import Dialogue.Proofs.Loading
import Dialogue.Request

/-!
# The source files of a project

The manifest of a project that was loaded is valid.  So the project has a group
(`Project.groups_ne_nil_of_load`), and every source file stays below the folder of the project
(`Project.contained_of_load`).  The same holds of the groups that are selected, and of those that
a request asks for (`Project.asked`).
-/

namespace Dialogue

/-! ### Valid manifests -/

namespace Manifest

theorem contained_of_checkFiles {owner : String} {files : List String}
    (h : checkFiles owner files = .ok ()) : ∀ file ∈ files, Path.isContained file = true := by
  induction files with
  | nil => exact nofun
  | cons file rest ih =>
      rw [checkFiles] at h
      split at h
      · exact List.forall_mem_cons.mpr ⟨‹_›, ih h⟩
      · cases h

theorem contained_of_checkGroups {seen : List String} {groups : List ScriptGroup}
    (h : checkGroups seen groups = .ok ()) :
    ∀ g ∈ groups, ∀ file ∈ g.sourceFiles, Path.isContained file = true := by
  induction groups generalizing seen with
  | nil => exact nofun
  | cons g rest ih =>
      rw [checkGroups] at h
      split at h
      · cases h
      · split at h
        · cases h
        · obtain ⟨_, hf, h⟩ := bind_eq_ok_iff.mp h
          exact List.forall_mem_cons.mpr ⟨contained_of_checkFiles hf, ih h⟩

/-- Every source file of a valid manifest is contained, that of the default group too. -/
theorem contained_groups {m : Manifest} {defaultSource : String} (h : m.validate = .ok ())
    (hs : Path.isContained defaultSource = true) :
    ∀ g ∈ m.groups defaultSource, ∀ file ∈ g.sourceFiles, Path.isContained file = true := by
  obtain ⟨_, hg, hb⟩ := bind_eq_ok_iff.mp h
  unfold groups
  split
  · intro g hmem
    rw [List.mem_singleton.mp hmem]
    show ∀ file ∈ if m.buildOrder.isEmpty then [defaultSource] else m.buildOrder, _
    split
    · exact List.forall_mem_singleton.mpr hs
    · exact contained_of_checkFiles hb
  · exact contained_of_checkGroups hg

theorem groups_ne_nil (m : Manifest) (defaultSource : String) : m.groups defaultSource ≠ [] := by
  unfold groups
  split
  · exact List.cons_ne_nil _ _
  · rename_i h
    simpa using h

end Manifest

/-! ### Loaded projects -/

namespace Project

variable {config : Config} {tree : FileTree} {slug : String} {p : Project}

theorem groups_ne_nil_of_load (h : (load config tree slug).2 = .ok p) : p.groups ≠ [] := by
  obtain ⟨-, -, -, -, hgroups⟩ := load_eq_ok h
  rw [hgroups]
  exact p.manifest.groups_ne_nil _

theorem contained_of_load (h : (load config tree slug).2 = .ok p)
    (hs : Path.isContained config.defaultSource = true) :
    ∀ g ∈ p.groups, ∀ file ∈ g.sourceFiles, Path.isContained file = true := by
  obtain ⟨-, -, -, hm, hgroups⟩ := load_eq_ok h
  rw [hgroups]
  exact Manifest.contained_groups hm hs

/-! ### Selected groups -/

theorem mem_of_requireGroup {g : ScriptGroup} {group : String}
    (h : p.requireGroup group = .ok g) : g ∈ p.groups := by
  unfold requireGroup at h
  split at h <;> cases h
  rename_i hfound
  exact List.mem_of_find?_eq_some hfound

/-- All groups are selected, or one of them. -/
theorem select_eq_ok {filter : Option String} {groups : List ScriptGroup}
    (h : p.select filter = .ok groups) : groups = p.groups ∨ ∃ g ∈ p.groups, groups = [g] := by
  cases filter with
  | none =>
      cases h
      exact .inl rfl
  | some slug =>
      obtain ⟨g, hg, h⟩ := bind_eq_ok_iff.mp h
      cases h
      exact .inr ⟨g, mem_of_requireGroup hg, rfl⟩

theorem select_subset {filter : Option String} {groups : List ScriptGroup}
    (h : p.select filter = .ok groups) : groups ⊆ p.groups := by
  obtain rfl | ⟨g, hg, rfl⟩ := select_eq_ok h
  · exact List.Subset.refl _
  · exact List.cons_subset.mpr ⟨hg, List.nil_subset _⟩

theorem mem_of_chosen {g : ScriptGroup} {filter : Option String} (h : p.chosen filter = .ok g) :
    g ∈ p.groups := by
  cases filter with
  | some group => exact mem_of_requireGroup h
  | none =>
      unfold chosen firstGroup at h
      dsimp only at h
      split at h <;> cases h
      rename_i hfirst
      exact List.mem_of_head? hfirst

theorem wellNamed_select (hw : Manifest.WellNamed p.groups) {filter : Option String}
    {groups : List ScriptGroup} (h : p.select filter = .ok groups) :
    Manifest.WellNamed groups where
  slugs g hg := hw.slugs g (select_subset h hg)
  distinct := by
    obtain rfl | ⟨g, -, rfl⟩ := select_eq_ok h
    · exact hw.distinct
    · exact List.nodup_singleton _

/-! ### Groups that a request asks for -/

/-- The groups that a request runs: the one it shows, or those it compiles. -/
def asked (p : Project) (r : Request) : Except Failure (List ScriptGroup) :=
  match r.mode with
  | .preview => (p.chosen r.group).map ([·])
  | .persist | .check => p.select r.group

section Asked

variable {r : Request} {groups : List ScriptGroup}

theorem asked_of_ne_preview (h : r.mode ≠ .preview) : p.asked r = p.select r.group := by
  unfold asked
  cases hm : r.mode with
  | persist | check => rfl
  | preview => exact absurd hm h

/-- What is shown is one group that is chosen. -/
theorem asked_of_preview (hm : r.mode = .preview) (h : p.asked r = .ok groups) :
    ∃ g, p.chosen r.group = .ok g ∧ groups = [g] := by
  unfold asked at h
  rw [hm] at h
  dsimp only at h
  cases hg : p.chosen r.group with
  | error f =>
      rw [hg] at h
      cases h
  | ok g =>
      rw [hg] at h
      cases h
      exact ⟨g, rfl, rfl⟩

theorem asked_eq_ok (h : p.asked r = .ok groups) :
    groups ⊆ p.groups ∧ (Manifest.WellNamed p.groups → Manifest.WellNamed groups) := by
  by_cases hm : r.mode = .preview
  · obtain ⟨g, hg, rfl⟩ := asked_of_preview hm h
    have hmem := mem_of_chosen hg
    refine ⟨List.cons_subset.mpr ⟨hmem, List.nil_subset _⟩, fun hw => ⟨?_, ?_⟩⟩
    · exact fun g' hg' => hw.slugs g' (List.mem_singleton.mp hg' ▸ hmem)
    · exact List.nodup_singleton _
  · rw [asked_of_ne_preview hm] at h
    exact ⟨select_subset h, fun hw => wellNamed_select hw h⟩

end Asked

end Project

end Dialogue
