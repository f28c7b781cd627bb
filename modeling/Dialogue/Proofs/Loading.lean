import Dialogue.Proofs.Walks
import Mathlib.Data.List.Nodup

/-!
# What loading a project gives

The groups of a project that was loaded have slugs for names, and different ones, so a group is
found by its slug (`Loaded.group?`).  Loading looks at the folder of the project and at the
manifest in it, and so gives the same in any tree where these are as they were (`load_congr`).
-/

namespace Dialogue

open FileTree (ChangesOnly)

/-! ### Groups of an accepted manifest -/

namespace Manifest

theorem checkGroups_ok {seen : List String} {groups : List ScriptGroup}
    (h : checkGroups seen groups = .ok ()) :
    (∀ g ∈ groups, isSlug g.slug = true ∧ g.slug ∉ seen) ∧ (groups.map (·.slug)).Nodup := by
  induction groups generalizing seen with
  | nil => simp
  | cons g rest ih =>
      simp only [checkGroups] at h
      split at h
      · cases h
      · rename_i hs
        split at h
        · cases h
        · rename_i hseen
          obtain ⟨_, -, h⟩ := bind_eq_ok_iff.mp h
          -- the slug is among those seen by the groups behind it
          obtain ⟨hrest, hnodup⟩ := ih h
          have hnot : g.slug ∉ rest.map (·.slug) := by
            intro hm
            obtain ⟨g', hg', he⟩ := List.mem_map.mp hm
            exact (hrest g' hg').2 (he ▸ List.mem_cons_self)
          refine ⟨fun g' hg' => ?_, List.nodup_cons.mpr ⟨hnot, hnodup⟩⟩
          rcases List.mem_cons.mp hg' with rfl | hg'
          · exact ⟨by simpa using hs, hseen⟩
          · exact ⟨(hrest g' hg').1, fun hm => (hrest g' hg').2 (List.mem_cons_of_mem _ hm)⟩

/-- The groups to compile have slugs for names, and different ones. -/
structure WellNamed (groups : List ScriptGroup) : Prop where
  slugs : ∀ g ∈ groups, isSlug g.slug = true
  distinct : (groups.map (·.slug)).Nodup

section WellNamed

variable {g g' : ScriptGroup} {rest : List ScriptGroup}

theorem WellNamed.head (h : WellNamed (g :: rest)) : isSlug g.slug = true :=
  h.slugs g List.mem_cons_self

theorem WellNamed.tail (h : WellNamed (g :: rest)) : WellNamed rest where
  slugs g' hg' := h.slugs g' (List.mem_cons_of_mem g hg')
  distinct := (List.nodup_cons.mp h.distinct).2

theorem WellNamed.ne_of_mem (h : WellNamed (g :: rest)) (hg : g' ∈ rest) :
    g.slug ≠ g'.slug := by
  intro he
  have hn : g.slug ∉ rest.map (·.slug) := (List.nodup_cons.mp h.distinct).1
  rw [he] at hn
  exact hn (List.mem_map_of_mem hg)

end WellNamed

theorem wellNamed_default (files : List String) : WellNamed [.default files] where
  slugs g hg := by
    rw [List.mem_singleton.mp hg]
    exact (by decide : isSlug "behavior" = true)
  distinct := List.nodup_singleton _

theorem wellNamed_groups {m : Manifest} (h : WellNamed m.scriptGroups) (defaultSource : String) :
    WellNamed (m.groups defaultSource) := by
  unfold groups
  split
  · exact wellNamed_default _
  · exact h

theorem validate_of_parse {text : String} {m : Manifest} (h : parse text = .ok m) :
    m.validate = .ok () := by
  unfold parse at h
  obtain ⟨found, -, h⟩ := bind_eq_ok_iff.mp h
  obtain ⟨_, hv, h⟩ := bind_eq_ok_iff.mp h
  cases h
  exact hv

theorem wellNamed_of_validate {m : Manifest} (h : m.validate = .ok ()) :
    WellNamed m.scriptGroups := by
  obtain ⟨_, hc, -⟩ := bind_eq_ok_iff.mp h
  obtain ⟨hs, hn⟩ := checkGroups_ok hc
  exact ⟨fun g hg => (hs g hg).1, hn⟩

end Manifest

namespace Project

/-! ### Loading -/

/-- A manifest that was read is valid, and so is the one that stands for a missing one. -/
theorem validate_of_readManifest {tree : FileTree} {slug dir : String} {m : Manifest}
    (h : (readManifest tree slug dir).2 = .ok m) : m.validate = .ok () := by
  unfold readManifest at h
  dsimp only at h
  split at h
  · split at h
    · cases h
    · exact Manifest.validate_of_parse (mapError_eq_ok_iff.mp h)
  · cases h
    rfl

/-- What loading a project comes to, if it comes to anything. -/
theorem load_eq_ok {config : Config} {tree : FileTree} {slug : String} {p : Project}
    (h : (load config tree slug).2 = .ok p) :
    isSlug slug = true ∧ p.dir = config.projectDir slug ∧ tree.isFolder p.dir = true ∧
      p.manifest.validate = .ok () ∧ p.groups = p.manifest.groups config.defaultSource := by
  unfold load at h
  split at h
  · cases h
  · rename_i hs
    dsimp only at h
    split at h
    · cases h
    · rename_i hf
      cases hm : (readManifest tree slug (config.projectDir slug)).2 with
      | error fault => simp [hm, Except.map] at h
      | ok m =>
          simp only [hm, Except.map] at h
          cases h
          exact ⟨by simpa using hs, rfl, by simpa using hf, validate_of_readManifest hm, rfl⟩

/-- What is known of a project that was loaded. -/
structure Loaded (config : Config) (tree : FileTree) (slug : String) (p : Project) : Prop where
  isSlug : isSlug slug = true
  dir : p.dir = config.projectDir slug
  folder : tree.isFolder p.dir = true
  groups : Manifest.WellNamed p.groups

theorem loaded_of_load {config : Config} {tree : FileTree} {slug : String} {p : Project}
    (h : (load config tree slug).2 = .ok p) : Loaded config tree slug p := by
  obtain ⟨hs, hdir, hf, hm, hgroups⟩ := load_eq_ok h
  refine ⟨hs, hdir, hf, ?_⟩
  rw [hgroups]
  exact Manifest.wellNamed_groups (Manifest.wellNamed_of_validate hm) _

namespace Loaded

variable {config : Config} {tree : FileTree} {slug : String} {p : Project}

theorem isBase (h : Loaded config tree slug p) : Path.IsBase p.dir :=
  h.dir ▸ Path.isBase_join _ (isName_of_isSlug h.isSlug)

theorem folderAt (h : Loaded config tree slug p) : ∃ loc, tree.FolderAt p.dir loc :=
  FileTree.isFolder_iff.mp h.folder

/-- A group is the one with its slug. -/
theorem group? (h : Loaded config tree slug p) {g : ScriptGroup} (hg : g ∈ p.groups) :
    p.group? g.slug = some g := by
  have hn := h.groups.distinct
  unfold Project.group?
  generalize p.groups = groups at hg hn
  induction groups with
  | nil => cases hg
  | cons g' rest ih =>
      rw [List.map_cons, List.nodup_cons] at hn
      rcases List.mem_cons.mp hg with rfl | hg
      · simp
      · have hne : g'.slug ≠ g.slug := fun e => hn.1 (e ▸ List.mem_map_of_mem hg)
        rw [List.find?_cons_of_neg (by simpa using hne)]
        exact ih hg hn.2

theorem select (h : Loaded config tree slug p) {g : ScriptGroup} (hg : g ∈ p.groups) :
    p.select (some g.slug) = .ok [g] := by
  simp [Project.select, requireGroup, h.group? hg, bind, Except.bind, pure, Except.pure]

end Loaded

/-! ### Loading again -/

theorem readManifest_congr {tree tree' : FileTree} {slug dir : String}
    (h : tree'.entryAt (Path.join dir manifestFile) = tree.entryAt (Path.join dir manifestFile)) :
    readManifest tree' slug dir = readManifest tree slug dir := by
  have hf : tree'.isFile (Path.join dir manifestFile) = tree.isFile (Path.join dir manifestFile) := by
    rw [FileTree.isFile, FileTree.isFile, h]
  have hr : tree'.readText (Path.join dir manifestFile) =
      tree.readText (Path.join dir manifestFile) := by
    rw [FileTree.readText, FileTree.readText, FileTree.read, FileTree.read, h]
  simp only [readManifest, hf, hr]

/-- **A project is loaded as before** where no folder is missing and the manifest is as it
was. -/
theorem load_congr {config : Config} {tree tree' : FileTree} {slug : String} {loc : Location}
    {P : Location → Prop} (hd : tree.FolderAt (config.projectDir slug) loc)
    (hc : ChangesOnly P tree tree') (hm : ¬ P (loc ++ [manifestFile])) :
    load config tree' slug = load config tree slug := by
  unfold load
  split
  · rfl
  · rename_i hs
    have hd' := hd.mono hc.folders
    have hb : Path.IsBase (config.projectDir slug) :=
      Path.isBase_join _ (isName_of_isSlug (by simpa using hs))
    have he := hd.entryAt_congr hd' hb isName_manifestFile (hc.others _ hm)
    dsimp only
    rw [FileTree.isFolder_iff.mpr ⟨loc, hd⟩, FileTree.isFolder_iff.mpr ⟨loc, hd'⟩,
      readManifest_congr he]

end Project

end Dialogue
