import Dialogue.Proofs.Frame
import Dialogue.Proofs.Ways

/-!
# Artifacts along a history

In the history of a project its manifest and sources are edited and all its groups are persisted,
any number of times.  Artifacts are only ever written.  So what there is of them tells of the
whole history and not of the last run: a group has an artifact exactly if some run so far has
reported it to be compiled (`artifacts_of_history`).  In particular a group that has become empty
keeps the artifact of an earlier run (`artifact_of_emptied_group`).
-/

namespace Dialogue

open FileTree (KeepsFolders)

/-! ### Files and edits -/

namespace FileTree

variable {t t' : FileTree} {path : String}

theorem isFile_iff : t.isFile path = true ↔ ∃ content, t.read path = .ok content := by
  unfold isFile read
  cases t.entryAt path with
  | error fault => simp [bind, Except.bind]
  | ok entry => cases entry <;> simp [bind, Except.bind, pure, Except.pure, throw, throwThe,
      MonadExceptOf.throw]

/-- A path to a file leads to a file while folders stay folders and files stay files. -/
theorem isFile_mono (hk : KeepsFolders t t')
    (hf : ∀ q content, t.lookup q = some (.file content) →
      ∃ content', t'.lookup q = some (.file content'))
    (h : t.isFile path = true) : t'.isFile path = true := by
  obtain ⟨content, hr⟩ := isFile_iff.mp h
  obtain ⟨hv, hend, loc, hw, hl⟩ := read_eq_ok_iff.mp hr
  obtain ⟨content', hl'⟩ := hf loc content hl
  exact isFile_iff.mpr ⟨content', read_eq_ok_iff.mpr ⟨hv, hend, loc, walk_mono hk hw, hl'⟩⟩

end FileTree

/-- The files of a project are edited: the folder of artifacts is neither made nor taken away, and
what lies in it stays. -/
structure Edited (dir : String) (loc : Location) (t t' : FileTree) : Prop where
  project : t'.FolderAt dir loc
  folder : t'.lookup (loc ++ ["generated"]) = some .folder ↔
    t.lookup (loc ++ ["generated"]) = some .folder
  inside : ∀ names, names ≠ [] →
    t'.lookup (loc ++ "generated" :: names) = t.lookup (loc ++ "generated" :: names)

/-- An artifact is read as before. -/
theorem Edited.read {dir name : String} {loc : Location} {t t' : FileTree} {content : Content}
    (h : Edited dir loc t t') (hd : t.FolderAt dir loc) (hb : Path.IsBase dir)
    (hn : Path.IsName name)
    (hr : t.read (Path.join (Path.join dir "generated") name) = .ok content) :
    t'.read (Path.join (Path.join dir "generated") name) = .ok content := by
  obtain ⟨hv, hend, found, hw, hl⟩ := FileTree.read_eq_ok_iff.mp hr
  obtain ⟨hfolder, rfl⟩ := hd.walk_join_join hb isName_generated hn hw
  have hsteps : Path.steps (Path.join (Path.join dir "generated") name) =
      Path.steps dir ++ [.down "generated", .down name] := by
    rw [Path.steps_join (Path.isBase_join dir isName_generated) hn,
      Path.steps_join hb isName_generated, List.append_assoc, List.singleton_append]
  have hlast : t'.lookup (loc ++ ["generated", name]) = t.lookup (loc ++ ["generated", name]) :=
    h.inside [name] (List.cons_ne_nil _ _)
  refine FileTree.read_eq_ok_iff.mpr ⟨hv, hend, _, ?_, hlast.trans hl⟩
  rw [hsteps, FileTree.walk_append hd.walk hd.folder] at hw
  rw [hsteps, FileTree.walk_append h.project.walk h.project.folder, ← hw]
  -- the walk comes by the folder of artifacts, which is there before and after
  have hlen := (FileTree.walk_down hw).1
  rw [FileTree.walk_of_folder hlen (List.cons_ne_nil _ _) hfolder,
    FileTree.walk_of_folder hlen (List.cons_ne_nil _ _) (h.folder.mpr hfolder)]
  rfl

/-- Putting a file in the place of a file, or of nothing, is an edit outside that folder. -/
theorem Edited.put {dir : String} {loc q : Location} {t : FileTree} (hd : t.FolderAt dir loc)
    (hfree : t.lookup q ≠ some .folder) (hout : ¬ loc ++ ["generated"] <+: q) (content : Content) :
    Edited dir loc t (t.put q (.file content)) where
  project := hd.mono (FileTree.ChangesOnly.put hfree _).folders
  folder := by
    have hne : loc ++ ["generated"] ≠ q := by
      rintro rfl
      exact hout (List.prefix_refl _)
    rw [FileTree.lookup_put_of_ne t _ hne]
  inside names _ := by
    have hne : loc ++ "generated" :: names ≠ q := by
      rintro rfl
      exact hout ⟨names, by simp⟩
    exact FileTree.lookup_put_of_ne t _ hne

/-! ### Histories -/

/-- The request to persist all groups of a project. -/
def persistAll (project : String) : Request := { project, mode := .persist }

/-- A project begins without a folder of artifacts; then it is edited and persisted.  A history
comes to the files there are now and the answers there were. -/
inductive History (config : Config) (project : String) (loc : Location) :
    FileTree → List Answer → Prop
  | start {t : FileTree} (there : t.FolderAt (config.projectDir project) loc)
      (folder : t.lookup (loc ++ ["generated"]) ≠ some .folder)
      (inside : ∀ names, names ≠ [] → t.lookup (loc ++ "generated" :: names) = none) :
      History config project loc t []
  | edited {t t' : FileTree} {answers : List Answer} (h : History config project loc t answers)
      (edit : Edited (config.projectDir project) loc t t') : History config project loc t' answers
  | persisted {t : FileTree} {answers : List Answer} (h : History config project loc t answers) :
      History config project loc ((persistAll project).run config t).tree
        (answers ++ [(persistAll project).run config t])

/-- Some run has reported the group to be compiled. -/
def EverReported (answers : List Answer) (slug : String) : Prop :=
  ∃ a ∈ answers, Reports a.groups slug

theorem everReported_append {answers : List Answer} {a : Answer} {slug : String} :
    EverReported (answers ++ [a]) slug ↔ EverReported answers slug ∨ Reports a.groups slug := by
  simp only [EverReported, List.mem_append, List.mem_singleton, or_and_right, exists_or,
    exists_eq_left]

/-- The artifacts that there are, are those of the groups that were ever reported. -/
structure Agrees (config : Config) (project : String) (loc : Location) (t : FileTree)
    (answers : List Answer) : Prop where
  folder : t.FolderAt (config.projectDir project) loc
  reported : ∀ slug, isSlug slug = true → EverReported answers slug →
    t.isFile (config.artifactPath (config.projectDir project) slug) = true
  unreported : ∀ slug, ¬ EverReported answers slug →
    ∀ content, t.lookup (artifactAt loc slug) ≠ some (.file content)

namespace Agrees

variable {config : Config} {project : String} {loc : Location} {t t' : FileTree}
  {answers : List Answer}

theorem edited (hc : config.generatedDir = "generated")
    (hb : Path.IsBase (config.projectDir project)) (h : Agrees config project loc t answers)
    (edit : Edited (config.projectDir project) loc t t') :
    Agrees config project loc t' answers where
  folder := edit.project
  reported slug hs hr := by
    obtain ⟨content, hread⟩ := FileTree.isFile_iff.mp (h.reported slug hs hr)
    rw [Config.artifactPath, Config.artifactDir, hc] at hread ⊢
    exact FileTree.isFile_iff.mpr
      ⟨content, edit.read h.folder hb (isName_artifact hs) hread⟩
  unreported slug hr content := by
    have := h.unreported slug hr content
    rwa [artifactAt, ← edit.inside [slug ++ ".json"] (List.cons_ne_nil _ _)] at this

theorem persisted (hc : config.generatedDir = "generated") (h : Agrees config project loc t answers) :
    Agrees config project loc ((persistAll project).run config t).tree
      (answers ++ [(persistAll project).run config t]) := by
  obtain ⟨f, ht, hr⟩ | ⟨p, groups, hl, hs, htells⟩ :=
    Request.run_persist_cases (r := persistAll project) config t rfl
  · -- the request is refused, so nothing is written and nothing reported
    have hnone {slug : String} : ¬ Reports ((persistAll project).run config t).groups slug := by
      rw [Answer.groups_of_error hr]
      exact not_reports_nil slug
    refine ⟨?_, fun slug hs he => ?_, fun slug he => ?_⟩ <;> rw [ht]
    · exact h.folder
    · exact h.reported slug hs ((everReported_append.mp he).resolve_right hnone)
    · exact h.unreported slug fun hr => he (everReported_append.mpr (.inl hr))
  · have hp := Project.loaded_of_load hl
    have hd : t.FolderAt p.dir loc := hp.dir ▸ h.folder
    have hw := Project.wellNamed_select hp.groups hs
    have hwrites := Request.writesReported_compileGroups hc hd hp.isBase hw
    have hfolders := (Request.changes_compileGroups hc hd hp.isBase hw).folders
    rw [← htells.tree, ← htells.groups] at hwrites
    rw [← htells.tree] at hfolders
    refine ⟨h.folder.mono hfolders, fun slug hslug he => ?_, fun slug he content => ?_⟩
    · obtain he | ⟨n, hn⟩ := everReported_append.mp he
      · exact FileTree.isFile_mono hfolders (fun q content => hwrites.file)
          (h.reported slug hslug he)
      · rw [htells.groups] at hn
        obtain ⟨c, -, -, hread⟩ := Request.read_of_success hp.isBase hw hn
        rw [← htells.tree, hp.dir] at hread
        exact FileTree.isFile_iff.mpr ⟨_, hread⟩
    · rw [hwrites.untouched fun hr => he (everReported_append.mpr (.inr hr))]
      exact h.unreported slug (fun hr => he (everReported_append.mpr (.inl hr))) content

end Agrees

theorem agrees_of_history {config : Config} {project : String} {loc : Location} {t : FileTree}
    {answers : List Answer} (hc : config.generatedDir = "generated")
    (hb : Path.IsBase (config.projectDir project)) (h : History config project loc t answers) :
    Agrees config project loc t answers := by
  induction h with
  | start there _ inside =>
      refine ⟨there, fun slug _ he => ?_, fun slug _ content hl => ?_⟩
      · obtain ⟨a, ha, -⟩ := he
        cases ha
      · cases (inside [slug ++ ".json"] (List.cons_ne_nil _ _)).symm.trans hl
  | edited _ edit ih => exact ih.edited hc hb edit
  | persisted _ ih => exact ih.persisted hc

/-! ### After a run -/

section Reported

variable {config : Config} {p : Project} {tree : FileTree} {loc : Location}
  {groups : List ScriptGroup} (hc : config.generatedDir = "generated")
  (hd : tree.FolderAt p.dir loc) (hb : Path.IsBase p.dir) (hw : Manifest.WellNamed groups)
include hc hd hb hw

/-- Groups are reported by their slugs, kept or not. -/
theorem Request.isSlug_of_reported {kept : Bool} :
    ∀ g ∈ (compileGroups config p kept tree groups).groups, isSlug g.slug = true := by
  have horder : InOrder loc groups tree
      (answerOf kept (compileGroups config p kept tree groups)) := .compileGroups hc hd hb hw
  have hslugs := horder.slugs
  rw [groups_answerOf] at hslugs
  intro g hg
  have hmem : g.slug ∈ (groups.take _).map (·.slug) := hslugs ▸ List.mem_map_of_mem hg
  obtain ⟨s, hs, e⟩ := List.mem_map.mp hmem
  exact e ▸ hw.slugs s (List.mem_of_mem_take hs)

/-- Each group is reported once, by its slug, and none has failed unless the request has. -/
theorem Request.reported_once :
    (∀ g ∈ (compileGroups config p true tree groups).groups, isSlug g.slug = true) ∧
      ((compileGroups config p true tree groups).groups.map (·.slug)).Nodup ∧
      ((compileGroups config p true tree groups).failure? = none →
        ∀ g ∈ (compileGroups config p true tree groups).groups, g.outcome.status ≠ .failed) := by
  have horder : InOrder loc groups tree
      (answerOf true (compileGroups config p true tree groups)) := .compileGroups hc hd hb hw
  obtain ⟨hslugs, hfinished, -⟩ := horder
  rw [groups_answerOf] at hslugs hfinished
  rw [failure?_answerOf] at hfinished
  refine ⟨isSlug_of_reported hc hd hb hw, ?_, fun hf => (hfinished hf).2⟩
  rw [hslugs, List.map_take]
  exact hw.distinct.sublist (List.take_sublist _ _)

end Reported

/-- **A group has an artifact if it is reported to be compiled, and if it is reported to be empty,
exactly if some run before has reported it to be compiled**: after every run of a history that
answers with a report. -/
theorem artifacts_of_history {config : Config} {project : String} {loc : Location} {t : FileTree}
    {answers : List Answer} (hc : config.generatedDir = "generated")
    (h : History config project loc t answers) {report : Report}
    (hr : ((persistAll project).run config t).result = .ok (.report report)) :
    ∀ g ∈ report.groups,
      let left := ((persistAll project).run config t).tree
      let path := config.artifactPath (config.projectDir project) g.slug
      g.outcome.status = .success ∧ left.isFile path = true ∨
        g.outcome.status = .empty ∧ (left.isFile path = true ↔ EverReported answers g.slug) := by
  intro g hg left path
  obtain ⟨f, -, hf⟩ | ⟨p, groups, hl, hs, htells⟩ :=
    Request.run_persist_cases (r := persistAll project) config t rfl
  · cases hf.symm.trans hr
  · have hp := Project.loaded_of_load hl
    have hb : Path.IsBase (config.projectDir project) := hp.dir ▸ hp.isBase
    have hw := Project.wellNamed_select hp.groups hs
    have hd : t.FolderAt p.dir loc := hp.dir ▸ (agrees_of_history hc hb h).folder
    have hagrees := agrees_of_history hc hb h.persisted
    obtain ⟨hslugs, honce, hfinished⟩ := Request.reported_once hc hd hp.isBase hw
    rw [← htells.groups] at hslugs honce hfinished
    rw [← htells.failure?] at hfinished
    have hg' : g ∈ ((persistAll project).run config t).groups := by rwa [Answer.groups, hr]
    have hok := hfinished (by rw [Answer.failure?, hr]) g hg'
    have hslug := hslugs g hg'
    obtain ⟨slug, outcome⟩ := g
    cases outcome with
    | failed message => exact absurd rfl hok
    | success n =>
        exact .inl ⟨rfl, hagrees.reported slug hslug (everReported_append.mpr (.inr ⟨n, hg'⟩))⟩
    | empty =>
        have hnot : ¬ Reports ((persistAll project).run config t).groups slug := by
          rintro ⟨n, hn⟩
          cases List.inj_on_of_nodup_map honce hg' hn rfl
        refine .inr ⟨rfl, fun hfile => ?_, fun he =>
          hagrees.reported slug hslug (everReported_append.mpr (.inl he))⟩
        by_contra he
        obtain ⟨content, hread⟩ := FileTree.isFile_iff.mp hfile
        have hread' : left.read (config.artifactPath p.dir slug) = .ok content := by
          rw [hp.dir]
          exact hread
        have hl := Request.lookup_of_read hc (hp.dir ▸ hagrees.folder) hp.isBase hslug hread'
        exact hagrees.unreported slug
          (fun hr => he ((everReported_append.mp hr).resolve_right hnot)) content hl

/-! ### A group that becomes empty -/

/-- A project with one source, the default one. -/
def mainProject (source : String) : FileTree :=
  ⟨[(["projects"], .folder), (["projects", "demo"], .folder),
    (["projects", "demo", "main.rhai"], .file (.text source))]⟩

/-- The source was persisted with an action in it, and then emptied. -/
def emptiedProject : FileTree :=
  ((persistAll "demo").run {} (mainProject "label(\"a\");")).tree.put
    ["projects", "demo", "main.rhai"] (.file (.text ""))

theorem history_emptiedProject :
    History {} "demo" ["projects", "demo"] emptiedProject
      [(persistAll "demo").run {} (mainProject "label(\"a\");")] := by
  have there : (mainProject "label(\"a\");").FolderAt (Config.projectDir {} "demo")
      ["projects", "demo"] := ⟨by decide +kernel, by decide +kernel, by decide +kernel⟩
  have hstart : History {} "demo" ["projects", "demo"] (mainProject "label(\"a\");") [] :=
    .start there (by decide +kernel) fun names _ => by
      simp [FileTree.lookup, mainProject, Location.isAbove, List.lookup_cons]
  have hleft := agrees_of_history rfl (Path.isBase_join _ (isName_of_isSlug (by decide)))
    hstart.persisted
  exact hstart.persisted.edited (.put hleft.folder (by decide +kernel) (by decide) _)

theorem run_emptiedProject :
    ∃ report, ((persistAll "demo").run {} emptiedProject).result = .ok (.report report) ∧
      report.groups = [⟨"behavior", .empty⟩] := by
  have hgroups : ((persistAll "demo").run {} emptiedProject).groups = [⟨"behavior", .empty⟩] := by
    decide +kernel
  have hok : ((persistAll "demo").run {} emptiedProject).failure? = none := by decide +kernel
  cases hr : ((persistAll "demo").run {} emptiedProject).result with
  | error f => simp [Answer.failure?, hr] at hok
  | ok shown =>
      cases shown with
      | preview p => simp [Answer.groups, hr] at hgroups
      | report report =>
          rw [Answer.groups, hr] at hgroups
          exact ⟨report, rfl, hgroups⟩

/-- The artifact of a group that has become empty stays. -/
theorem artifact_of_emptied_group :
    ∃ t answers report, History {} "demo" ["projects", "demo"] t answers ∧
      ((persistAll "demo").run {} t).result = .ok (.report report) ∧
      report.groups = [⟨"behavior", .empty⟩] ∧
      ((persistAll "demo").run {} t).tree.isFile "projects/demo/generated/behavior.json" =
        true := by
  obtain ⟨report, hr, hgroups⟩ := run_emptiedProject
  exact ⟨emptiedProject, _, report, history_emptiedProject, hr, hgroups, by decide +kernel⟩

theorem artifacts_of_history_emptied :
    ∃ report, ((persistAll "demo").run {} emptiedProject).result = .ok (.report report) ∧
      ∀ g ∈ report.groups,
        let left := ((persistAll "demo").run {} emptiedProject).tree
        let path := Config.artifactPath {} (Config.projectDir {} "demo") g.slug
        g.outcome.status = .success ∧ left.isFile path = true ∨
          g.outcome.status = .empty ∧ (left.isFile path = true ↔
            EverReported [(persistAll "demo").run {} (mainProject "label(\"a\");")] g.slug) := by
  obtain ⟨report, hr, -⟩ := run_emptiedProject
  exact ⟨report, hr, artifacts_of_history rfl history_emptiedProject hr⟩

end Dialogue
