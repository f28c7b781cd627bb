import Dialogue.Proofs.Keeping
import Dialogue.Proofs.ReadBack
import Dialogue.Proofs.Sequence

/-!
# What a request touches

Checking and showing leave the files as they are.  Keeping takes no file away, and what is not as
it was is the artifact of a group that is reported to be compiled, and nothing else, whether the
request failed or not (`Request.touches_own_artifacts`).  Only the folder of artifacts is made
besides, where it was missing.
-/

namespace Dialogue

open FileTree (KeepsFolders)

/-! ### Groups that are compiled -/

/-- The machine of the group with that slug is reported to be compiled. -/
def Reports (groups : List GroupReport) (slug : String) : Prop :=
  ∃ n, ⟨slug, .success n⟩ ∈ groups

/-- Files are changed at the folder of artifacts, if it is missing, and at the artifacts of groups
that are reported to be compiled, and these are there. -/
structure WritesReported (loc : Location) (tree left : FileTree) (groups : List GroupReport) :
    Prop where
  changed : ∀ q, left.lookup q ≠ tree.lookup q →
    q = loc ++ ["generated"] ∧ tree.lookup q = none ∧ left.lookup q = some .folder ∨
      ∃ slug, Reports groups slug ∧ q = artifactAt loc slug
  written : ∀ slug, Reports groups slug →
    ∃ content, left.lookup (artifactAt loc slug) = some (.file content)

theorem eq_of_artifactAt {loc : Location} {slug other : String}
    (h : artifactAt loc slug = artifactAt loc other) : slug = other := by
  by_contra hne
  exact not_kept_artifactAt loc (Ne.symm hne) (.inr h)

theorem not_reports_nil (slug : String) : ¬ Reports [] slug := by simp [Reports]

theorem not_reports_failed {slug other : String} {f : Failure} :
    ¬ Reports [.failed slug f] other := by simp [Reports, GroupReport.failed]

theorem not_reports_empty {slug other : String} : ¬ Reports [⟨slug, .empty⟩] other := by
  simp [Reports]

theorem reports_append {groups later : List GroupReport} {slug : String} :
    Reports (groups ++ later) slug ↔ Reports groups slug ∨ Reports later slug := by
  simp only [Reports, List.mem_append, exists_or]

theorem reports_singleton {slug other : String} {outcome : GroupOutcome} :
    Reports [⟨slug, outcome⟩] other ↔ other = slug ∧ ∃ n, outcome = .success n := by
  simp only [Reports, List.mem_singleton, GroupReport.mk.injEq]
  constructor
  · rintro ⟨n, hs, ho⟩
    exact ⟨hs, n, ho.symm⟩
  · rintro ⟨hs, n, ho⟩
    exact ⟨n, hs, ho.symm⟩

namespace WritesReported

variable {loc : Location} {tree left made : FileTree} {groups later : List GroupReport}

/-- Nothing is changed and nothing is reported to be compiled. -/
theorem unchanged (h : ∀ slug, ¬ Reports groups slug) : WritesReported loc tree tree groups where
  changed _ hq := absurd rfl hq
  written slug hs := absurd hs (h slug)

theorem trans (h : WritesReported loc tree made groups)
    (h' : WritesReported loc made left later) : WritesReported loc tree left (groups ++ later) where
  changed q hq := by
    by_cases hlater : left.lookup q = made.lookup q
    · rw [hlater] at hq ⊢
      obtain hfolder | ⟨slug, hs, e⟩ := h.changed q hq
      · exact .inl hfolder
      · exact .inr ⟨slug, reports_append.mpr (.inl hs), e⟩
    · obtain ⟨rfl, hnone, hfolder⟩ | ⟨slug, hs, e⟩ := h'.changed q hlater
      · by_cases hfirst : made.lookup (loc ++ ["generated"]) = tree.lookup (loc ++ ["generated"])
        · exact .inl ⟨rfl, hfirst ▸ hnone, hfolder⟩
        · -- what the first has made there is not missing for the second
          obtain ⟨-, -, hmade⟩ | ⟨slug, -, e⟩ := h.changed _ hfirst
          · cases hnone.symm.trans hmade
          · exact absurd e.symm (Artifact.artifactAt_ne loc slug)
      · exact .inr ⟨slug, reports_append.mpr (.inr hs), e⟩
  written slug hs := by
    by_cases hlater : left.lookup (artifactAt loc slug) = made.lookup (artifactAt loc slug)
    · obtain hs | hs := reports_append.mp hs
      · rw [hlater]
        exact h.written slug hs
      · exact h'.written slug hs
    · obtain ⟨e, -⟩ | ⟨other, hs', e⟩ := h'.changed _ hlater
      · exact absurd e (Artifact.artifactAt_ne loc slug)
      · rw [eq_of_artifactAt e]
        exact h'.written other hs'

/-- A file stays a file. -/
theorem file (h : WritesReported loc tree left groups) {q : Location} {content : Content}
    (hq : tree.lookup q = some (.file content)) :
    ∃ content', left.lookup q = some (.file content') := by
  by_cases hsame : left.lookup q = tree.lookup q
  · exact ⟨content, hsame.trans hq⟩
  · obtain ⟨-, hnone, -⟩ | ⟨slug, hs, rfl⟩ := h.changed q hsame
    · cases hnone.symm.trans hq
    · exact h.written slug hs

/-- The artifact of a group that is not reported to be compiled is as it was. -/
theorem untouched (h : WritesReported loc tree left groups) {slug : String}
    (hs : ¬ Reports groups slug) :
    left.lookup (artifactAt loc slug) = tree.lookup (artifactAt loc slug) := by
  by_contra hne
  obtain ⟨e, -⟩ | ⟨other, hother, e⟩ := h.changed _ hne
  · exact Artifact.artifactAt_ne loc slug e
  · exact hs (eq_of_artifactAt e ▸ hother)

end WritesReported

/-! ### One group and then the others -/

section Groups

variable {config : Config} {p : Project} {tree : FileTree} {loc : Location}
  {groups : List ScriptGroup} {g : ScriptGroup}

/-- Making the folder of artifacts changes nothing where it is there. -/
theorem FileTree.FolderAt.lookup_makeFolders {dir name : String} {q : Location}
    (h : tree.FolderAt dir loc) (hb : Path.IsBase dir) (hn : Path.IsName name)
    (hq : (tree.makeFolders (Path.join dir name)).1.lookup q ≠ tree.lookup q) :
    q = loc ++ [name] ∧ tree.lookup q = none ∧
      (tree.makeFolders (Path.join dir name)).1.lookup q = some .folder := by
  obtain he | ⟨hnone, he⟩ := h.tree_makeFolders hb hn <;> rw [he] at hq ⊢
  · exact absurd rfl hq
  · by_cases hloc : q = loc ++ [name]
    · subst hloc
      exact ⟨rfl, hnone, lookup_put_free _ (by simp [hnone])⟩
    · exact absurd (lookup_put_of_ne tree _ hloc) hq

theorem Request.writesReported_one (hc : config.generatedDir = "generated")
    (hd : tree.FolderAt p.dir loc) (hb : Path.IsBase p.dir) (hs : isSlug g.slug = true) :
    WritesReported loc tree (compileGroups config p true tree [g]).tree
      (compileGroups config p true tree [g]).groups := by
  have hmakes {q : Location} := hd.lookup_makeFolders (q := q) hb (Artifact.isName_generatedDir hc)
  rw [← Config.artifactDir] at hmakes
  have hone : KeptOne config p tree g _ (compileGroups config p true tree [g]) := keptOne rfl
  generalize compileGroups config p true tree [g] = one at hone
  cases hone with
  | fault _ => exact .unchanged fun _ => not_reports_failed
  | empty _ => exact .unchanged fun _ => not_reports_empty
  | unkept _ hk =>
      -- the folder may have been made before the fault
      refine ⟨fun q hq => .inl ?_, fun slug h => absurd h not_reports_failed⟩
      cases Artifact.keeping_iff.mpr hk with
      | noFolder folder | noFile folder =>
          rw [folder, hc] at hmakes
          exact hmakes hq
  | @kept c left _ hk =>
      obtain ⟨made, folder, -, hfree, rfl⟩ := Artifact.eq_put_of_keep hc hd hb hs hk
      rw [folder, hc] at hmakes
      have hreports : Reports [⟨g.slug, .success c.machine.states.length⟩] g.slug :=
        reports_singleton.mpr ⟨rfl, _, rfl⟩
      refine ⟨fun q hq => ?_, fun slug h => ?_⟩
      · by_cases hfile : q = artifactAt loc g.slug
        · exact .inr ⟨g.slug, hreports, hfile⟩
        · rw [FileTree.lookup_put_of_ne made _ hfile] at hq ⊢
          exact .inl (hmakes hq)
      · rw [(reports_singleton.mp h).1]
        exact ⟨_, FileTree.lookup_put_free _ hfree⟩

/-- **Keeping groups writes the artifacts of those that are reported to be compiled**, and may
make the folder for them. -/
theorem Request.writesReported_compileGroups (hc : config.generatedDir = "generated")
    (hd : tree.FolderAt p.dir loc) (hb : Path.IsBase p.dir) (hw : Manifest.WellNamed groups) :
    WritesReported loc tree (compileGroups config p true tree groups).tree
      (compileGroups config p true tree groups).groups := by
  induction groups generalizing tree with
  | nil => exact .unchanged not_reports_nil
  | cons g rest ih =>
      have hone := writesReported_one hc hd hb hw.head
      cases hf : (compileGroups config p true tree [g]).failure? with
      | some f => rwa [compileGroups_cons_of_failed hf]
      | none =>
          rw [compileGroups_cons_of_finished hf]
          have hchanges := (one_compileGroups hc hd hb hw.head true).changes
          exact hone.trans (ih (hd.mono hchanges.folders) hw.tail)

end Groups

/-! ### Requests -/

/-- Of the files, a request has touched the artifacts of the groups that it reports to be compiled
and no others. -/
structure TouchesOwnArtifacts (config : Config) (r : Request) (tree : FileTree) (a : Answer) :
    Prop where
  /-- no file is taken away -/
  files : ∀ q content, tree.lookup q = some (.file content) →
    ∃ content', a.tree.lookup q = some (.file content')
  folders : KeepsFolders tree a.tree
  /-- what is not as it was is one of these artifacts, or the folder for them that was missing -/
  changed : ∀ q, a.tree.lookup q ≠ tree.lookup q →
    ∃ loc, tree.FolderAt (config.projectDir r.project) loc ∧
      (q = loc ++ ["generated"] ∧ tree.lookup q = none ∧ a.tree.lookup q = some .folder ∨
        ∃ slug, Reports a.groups slug ∧ q = artifactAt loc slug)
  /-- each holds what the sources of the group were compiled to when it was its turn -/
  written : ∀ slug n, ⟨slug, .success n⟩ ∈ a.groups →
    ∃ p loc groups c, (Project.load config tree r.project).2 = .ok p ∧
      tree.FolderAt (config.projectDir r.project) loc ∧ p.select r.group = .ok groups ∧
      Request.Compiles config p tree groups slug c ∧ n = c.machine.states.length ∧
      a.tree.lookup (artifactAt loc slug) = some (.file (.text c.machine.artifact)) ∧
      a.tree.read (config.artifactPath p.dir slug) = .ok (.text c.machine.artifact)
  /-- a group that is empty, failed or was not reached has the artifact it had, if any -/
  untouched : ∀ loc, tree.FolderAt (config.projectDir r.project) loc →
    ∀ slug, ¬ Reports a.groups slug →
      a.tree.lookup (artifactAt loc slug) = tree.lookup (artifactAt loc slug)

namespace Request

/-- **Nothing but persisting changes files.** -/
theorem tree_run_of_ne_persist {r : Request} (hm : r.mode ≠ .persist) (config : Config)
    (tree : FileTree) : (r.run config tree).tree = tree := by
  cases hl : (Project.load config tree r.project).2 with
  | error f => exact (run_of_load_error hl).1
  | ok p =>
      rw [(run_of_load_ok hl).1]
      unfold compileProject
      cases hmode : r.mode with
      | persist => exact absurd hmode hm
      | preview =>
          unfold previewGroup
          dsimp only
          split <;> rfl
      | check =>
          unfold compileAll
          dsimp only
          split
          · rfl
          · rw [tree_answerOf, tree_compileGroups_checked]

section Persist

variable {config : Config} {r : Request} {tree : FileTree} {p : Project}

/-- What persisting comes to, if there are groups to compile. -/
theorem run_persist_cases (config : Config) (tree : FileTree) (hm : r.mode = .persist) :
    (∃ f, (r.run config tree).tree = tree ∧
      (r.run config tree).result = .error { failure := f }) ∨
    ∃ p groups, (Project.load config tree r.project).2 = .ok p ∧
      p.select r.group = .ok groups ∧
      (r.run config tree).Tells (compileGroups config p true tree groups) := by
  cases hl : (Project.load config tree r.project).2 with
  | error f =>
      have h := run_of_load_error hl
      exact .inl ⟨f, h.1, h.2⟩
  | ok p =>
      obtain ⟨ht, hr⟩ := run_of_load_ok hl
      rw [compileProject, hm] at ht hr
      dsimp only at ht hr
      unfold compileAll at ht hr
      cases hs : p.select r.group with
      | error f =>
          rw [hs] at ht hr
          exact .inl ⟨f, ht, hr⟩
      | ok groups =>
          rw [hs] at ht hr
          exact .inr ⟨p, groups, rfl, hs, .of_answerOf ht hr⟩

/-- The artifact that is read lies in the folder of artifacts. -/
theorem lookup_of_read {left : FileTree} {loc : Location} {slug : String} {content : Content}
    (hc : config.generatedDir = "generated") (hd : left.FolderAt p.dir loc)
    (hb : Path.IsBase p.dir) (hs : isSlug slug = true)
    (h : left.read (config.artifactPath p.dir slug) = .ok content) :
    left.lookup (artifactAt loc slug) = some (.file content) := by
  obtain ⟨-, -, found, hwalk, hl⟩ := FileTree.read_eq_ok_iff.mp h
  rw [Config.artifactPath, Config.artifactDir, hc] at hwalk
  obtain ⟨-, rfl⟩ := hd.walk_join_join hb isName_generated (isName_artifact hs) hwalk
  exact hl

/-- **A request touches its own artifacts only.**  Unless it is to persist, it touches nothing. -/
theorem touches_own_artifacts (hc : config.generatedDir = "generated") (r : Request)
    (tree : FileTree) :
    (r.mode ≠ .persist → (r.run config tree).tree = tree) ∧
      (r.mode = .persist → TouchesOwnArtifacts config r tree (r.run config tree)) := by
  refine ⟨fun hm => tree_run_of_ne_persist hm config tree, fun hm => ?_⟩
  obtain ⟨f, ht, hr⟩ | ⟨p, groups, hl, hs, htells⟩ := run_persist_cases config tree hm
  · have hnone : (r.run config tree).groups = [] := Answer.groups_of_error hr
    constructor <;> rw [ht]
    case files => exact fun q content hq => ⟨content, hq⟩
    case folders => exact fun q hq => hq
    case changed => exact fun q hq => absurd rfl hq
    case written =>
      rw [hnone]
      intro slug n hg
      cases hg
    case untouched => exact fun loc hd slug hg => rfl
  · have hp := Project.loaded_of_load hl
    obtain ⟨loc, hd⟩ := hp.folderAt
    have hw := Project.wellNamed_select hp.groups hs
    have hwrites := writesReported_compileGroups hc hd hp.isBase hw
    have hdir : tree.FolderAt (config.projectDir r.project) loc := hp.dir ▸ hd
    -- the path of the project leads to one location
    have hsame : ∀ loc', tree.FolderAt (config.projectDir r.project) loc' → loc' = loc :=
      fun loc' hd' => Except.ok.inj (hd'.walk.symm.trans hdir.walk)
    have hfolders := (changes_compileGroups hc hd hp.isBase hw).folders
    constructor <;> simp only [htells.tree, htells.groups]
    case files => exact fun q content hq => hwrites.file hq
    case folders => exact hfolders
    case changed => exact fun q hq => ⟨loc, hdir, hwrites.changed q hq⟩
    case written =>
      intro slug n hreport
      obtain ⟨c, hcompiles, hn, hread⟩ := read_of_success hp.isBase hw hreport
      have hslug : isSlug slug = true := by
        obtain ⟨before, g, after, -, rfl, rfl, -, -⟩ := hcompiles
        exact hw.slugs g (List.mem_append_right _ List.mem_cons_self)
      exact ⟨p, loc, groups, c, hl, hdir, hs, hcompiles, hn,
        lookup_of_read hc (hd.mono hfolders) hp.isBase hslug hread, hread⟩
    case untouched =>
      intro loc' hd' slug hslug
      rw [hsame loc' hd']
      exact hwrites.untouched hslug

end Persist

end Request

theorem touches_own_artifacts_threeGroups :
    TouchesOwnArtifacts {} ⟨"demo", .persist, none⟩ threeGroups
        (Request.run ⟨"demo", .persist, none⟩ {} threeGroups) ∧
      (Request.run ⟨"demo", .persist, none⟩ {} threeGroups).groups.map (·.outcome.status) =
        [.success, .failed] ∧
      (Request.run ⟨"demo", .check, none⟩ {} threeGroups).tree = threeGroups := by
  refine ⟨(Request.touches_own_artifacts rfl ⟨"demo", .persist, none⟩ threeGroups).2 rfl, ?_,
    (Request.touches_own_artifacts rfl ⟨"demo", .check, none⟩ threeGroups).1 nofun⟩
  decide +kernel

end Dialogue
