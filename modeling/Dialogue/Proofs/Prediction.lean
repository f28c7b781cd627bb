import Dialogue.Proofs.Answers
import Dialogue.Proofs.Artifacts
import Dialogue.Proofs.Previews
import Dialogue.Proofs.Rooted
import Dialogue.Proofs.Sources

/-!
# Checking foretells keeping

Checking a project compiles its groups on the files that are there; keeping it changes these
files between one group and the next.  A group runs as it is foretold all the same, unless it
reads what the groups before it have left: the artifact of one of them, or the folder of
artifacts (`ReadsNoArtifact`).  Then keeping answers what checking does, or stops earlier because
an artifact cannot be written (`Request.check_foretells_persist`).

The manifest may name an artifact among the sources of a later group.  It is not there when the
project is checked for the first time, and it is no script when it is
(`check_misses_artifact`).
-/

namespace Dialogue

open FileTree (ChangesOnly)

/-! ### Groups that read no artifact -/

/-- No source of the group is named like the folder of artifacts, or like the artifact of the
group with that slug. -/
def ScriptGroup.Spares (g : ScriptGroup) (slug : String) : Prop :=
  ∀ file ∈ g.sourceFiles,
    Path.names file ≠ ["generated"] ∧ Path.names file ≠ ["generated", slug ++ ".json"]

/-- No group reads what a group before it may have left. -/
def ReadsNoArtifact (groups : List ScriptGroup) : Prop :=
  groups.Pairwise fun earlier later => later.Spares earlier.slug

instance (g : ScriptGroup) (slug : String) : Decidable (g.Spares slug) :=
  List.decidableBAll _ g.sourceFiles

instance (groups : List ScriptGroup) : Decidable (ReadsNoArtifact groups) :=
  inferInstanceAs (Decidable (groups.Pairwise _))

theorem ScriptGroup.Spares.not_kept {g : ScriptGroup} {slug : String} (h : g.Spares slug)
    (loc : Location) : ∀ file ∈ g.sourceFiles, ¬ Kept loc slug (loc ++ Path.names file) := by
  rintro file hfile (hk | hk)
  · exact (h file hfile).1 (List.append_cancel_left hk)
  · exact (h file hfile).2 (List.append_cancel_left hk)

/-! ### The same run on changed files -/

section SameRun

variable {options : ScriptOptions} {tree tree' : FileTree}

/-- A unit runs the same where its source is found or missing as before. -/
theorem SourceUnit.run_congr {unit : UnitName} {path : String}
    (h : (tree'.entryAt path).toOption = (tree.entryAt path).toOption) :
    run options tree' unit path = run options tree unit path := by
  unfold run
  obtain ⟨entry, he, he'⟩ | ⟨fault, fault', he, he'⟩ := FileTree.entryAt_cases h
  · simp only [FileTree.pathExists, FileTree.readText, FileTree.read, he, he']
  · -- the fault may be another one, but the source is missing all the same
    simp [FileTree.pathExists, he, he', Except.isOk, Except.toBool]

theorem GroupRun.files_congr {p : Project} {group : String} {sources : List String}
    (h : ∀ file ∈ sources, (tree'.entryAt (Path.join p.dir file)).toOption =
      (tree.entryAt (Path.join p.dir file)).toOption) :
    files options tree' p group sources = files options tree p group sources := by
  induction sources with
  | nil => rfl
  | cons file rest ih =>
      obtain ⟨hfile, hrest⟩ := List.forall_mem_cons.mp h
      unfold files
      dsimp only
      rw [SourceUnit.run_congr hfile, ih hrest]

theorem GroupRun.run_congr {p : Project} {g : ScriptGroup}
    (h : ∀ file ∈ g.sourceFiles, (tree'.entryAt (Path.join p.dir file)).toOption =
      (tree.entryAt (Path.join p.dir file)).toOption) :
    run options tree' p g = run options tree p g := by
  simp only [run, files_congr h]

end SameRun

/-! ### What is foretold -/

/-- Keeping comes to what checking comes to, or to its end at a group whose machine cannot be
kept. -/
inductive GroupsRun.Foretells (checked kept : GroupsRun) : Prop
  | same (logs : kept.logs = checked.logs) (groups : kept.groups = checked.groups)
      (failure : kept.failure? = checked.failure?)
  | unwritten (f : Failure) (before : List GroupReport) (slug : String) (n : Nat)
      (failure : kept.failure? = some f) (code : f.IsUnwritten)
      (groups : kept.groups = before ++ [.failed slug f])
      (counted : before ++ [⟨slug, .success n⟩] <+: checked.groups)
      (logs : kept.logs <+: checked.logs)

/-- What checking answers foretells what keeping answers. -/
inductive Foretells (checked kept : Answer) : Prop
  /-- both succeed, with the same groups and log -/
  | report (r s : Report) (checks : checked.result = .ok (.report r))
      (keeps : kept.result = .ok (.report s)) (groups : s.groups = r.groups)
      (logs : s.logs = r.logs)
  /-- both fail with the same failure, groups and log -/
  | failure (e : CompileFailure) (checks : checked.result = .error e)
      (keeps : kept.result = .error e)
  /-- the machine of a group that was counted when checking cannot be kept -/
  | unwritten (e : CompileFailure) (before : List GroupReport) (slug : String) (n : Nat)
      (keeps : kept.result = .error e) (code : e.failure.IsUnwritten)
      (groups : e.groups = before ++ [.failed slug e.failure])
      (counted : before ++ [⟨slug, .success n⟩] <+: checked.groups)
      (logs : e.logs <+: checked.logs)

/-- It hangs on the results alone. -/
theorem Foretells.congr {checked checked' kept kept' : Answer} (h : Foretells checked kept)
    (hc : checked'.result = checked.result) (hk : kept'.result = kept.result) :
    Foretells checked' kept' := by
  cases h with
  | report r s checks keeps groups logs =>
      exact .report r s (hc.trans checks) (hk.trans keeps) groups logs
  | failure e checks keeps => exact .failure e (hc.trans checks) (hk.trans keeps)
  | unwritten e before slug n keeps code groups counted logs =>
      refine .unwritten e before slug n (hk.trans keeps) code groups ?_ ?_
      · rwa [Answer.groups, hc, ← Answer.groups]
      · rwa [Answer.logs, hc, ← Answer.logs]

namespace GroupsRun.Foretells

variable {checked kept later later' : GroupsRun}

theorem answerOf (h : Foretells checked kept) :
    Dialogue.Foretells (Request.answerOf false checked) (Request.answerOf true kept) := by
  cases h with
  | same logs groups failure =>
      cases hf : checked.failure? with
      | none =>
          refine .report (.ofGroups false checked.groups checked.logs)
            (.ofGroups true kept.groups kept.logs) ?_ ?_ groups logs
          · simp only [Request.answerOf, hf]
          · simp only [Request.answerOf, failure, hf]
      | some f =>
          refine .failure ⟨f, checked.logs, checked.groups⟩ ?_ ?_
          · simp only [Request.answerOf, hf]
          · simp only [Request.answerOf, failure, hf, logs, groups]
  | unwritten f before slug n failure code groups counted logs =>
      refine .unwritten ⟨f, kept.logs, kept.groups⟩ before slug n ?_ code groups ?_ ?_
      · simp only [Request.answerOf, failure]
      · rwa [Request.groups_answerOf]
      · rwa [Request.logs_answerOf]

/-- Groups that come to the same are followed by others. -/
theorem followedBy (logs : kept.logs = checked.logs) (groups : kept.groups = checked.groups)
    (h : Foretells later later') :
    Foretells (checked.followedBy later) (kept.followedBy later') := by
  cases h with
  | same logs' groups' failure =>
      refine .same ?_ ?_ failure
      · simp only [GroupsRun.followedBy, logs, logs']
      · simp only [GroupsRun.followedBy, groups, groups']
  | unwritten f before slug n failure code groups' counted logs' =>
      refine .unwritten f (checked.groups ++ before) slug n failure code ?_ ?_ ?_
      · simp only [GroupsRun.followedBy, groups, groups', List.append_assoc]
      · simp only [GroupsRun.followedBy, List.append_assoc]
        exact (List.prefix_append_right_inj _).mpr counted
      · simp only [GroupsRun.followedBy, logs]
        exact (List.prefix_append_right_inj _).mpr logs'

/-- Checking may go on behind a group whose machine cannot be kept. -/
theorem more {longer : GroupsRun} (h : Foretells checked kept)
    (hsame : kept.failure? = checked.failure? → longer = checked)
    (groups : checked.groups <+: longer.groups) (logs : checked.logs <+: longer.logs) :
    Foretells longer kept := by
  cases h with
  | same logs' groups' failure =>
      rw [hsame failure]
      exact .same logs' groups' failure
  | unwritten f before slug n failure code groups' counted logs' =>
      exact .unwritten f before slug n failure code groups' (counted.trans groups)
        (logs'.trans logs)

end GroupsRun.Foretells

namespace Request

section Groups

variable {config : Config} {p : Project} {tree left : FileTree} {loc : Location}
  {groups : List ScriptGroup} {g : ScriptGroup}

/-- A group that runs the same is kept as it is foretold. -/
theorem foretells_one (h : GroupRun.run config.scriptOptions left p g =
      GroupRun.run config.scriptOptions tree p g) :
    GroupsRun.Foretells (compileGroups config p false tree [g])
      (compileGroups config p true left [g]) := by
  have hone := keptOne h
  generalize compileGroups config p true left [g] = one at hone
  cases hone with
  | fault h => refine .same ?_ ?_ ?_ <;> simp only [compileGroups, settle, h]
  | empty h => refine .same ?_ ?_ ?_ <;> simp only [compileGroups, settle, h, List.append_nil]
  | kept h =>
      refine .same ?_ ?_ ?_ <;>
        simp only [compileGroups, settle, h, List.append_nil, Bool.false_eq_true, if_false]
  | @unkept c left f h hk =>
      refine .unwritten f [] g.slug c.machine.states.length rfl (Artifact.code_of_keep hk) rfl ?_ ?_
      · simp only [compileGroups, settle, h, Bool.false_eq_true, if_false]
        exact List.prefix_refl _
      · simp only [compileGroups, settle, h, List.append_nil, Bool.false_eq_true, if_false]
        exact List.prefix_refl _

/-- The first group's report and log begin those of all. -/
theorem prefix_compileGroups_cons (config : Config) (p : Project) (kept : Bool)
    (tree : FileTree) (g : ScriptGroup) (rest : List ScriptGroup) :
    (compileGroups config p kept tree [g]).groups <+:
        (compileGroups config p kept tree (g :: rest)).groups ∧
      (compileGroups config p kept tree [g]).logs <+:
        (compileGroups config p kept tree (g :: rest)).logs := by
  cases hf : (compileGroups config p kept tree [g]).failure? with
  | some f =>
      have hall : compileGroups config p kept tree (g :: rest) = _ :=
        compileGroups_cons_of_failed hf
      exact ⟨hall ▸ List.prefix_refl _, hall ▸ List.prefix_refl _⟩
  | none =>
      have hall : compileGroups config p kept tree (g :: rest) = _ :=
        compileGroups_cons_of_finished hf
      exact ⟨hall ▸ List.prefix_append _ _, hall ▸ List.prefix_append _ _⟩

/-- **Groups are kept as it is foretold** by checking them on the files that were there before
some were changed, if none of the groups reads those, or what the groups before it leave. -/
theorem foretells_compileGroups {P : Location → Prop} (hc : config.generatedDir = "generated")
    (hr : tree.Rooted) (hd : tree.FolderAt p.dir loc) (hb : Path.IsBase p.dir)
    (hw : Manifest.WellNamed groups)
    (hpaths : ∀ g ∈ groups, ∀ file ∈ g.sourceFiles, Path.isContained file = true)
    (hreads : ReadsNoArtifact groups) (hleft : ChangesOnly P tree left)
    (hP : ∀ g ∈ groups, ∀ file ∈ g.sourceFiles, ¬ P (loc ++ Path.names file)) :
    GroupsRun.Foretells (compileGroups config p false tree groups)
      (compileGroups config p true left groups) := by
  induction groups generalizing left P with
  | nil => exact .same rfl rfl rfl
  | cons g rest ih =>
      obtain ⟨hpath, hpaths⟩ := List.forall_mem_cons.mp hpaths
      obtain ⟨hPg, hPrest⟩ := List.forall_mem_cons.mp hP
      obtain ⟨hspares, hreads⟩ := List.pairwise_cons.mp hreads
      have hran : GroupRun.run config.scriptOptions left p g =
          GroupRun.run config.scriptOptions tree p g :=
        GroupRun.run_congr fun file hfile =>
          hr.entryAt_join hd hb (hpath file hfile) hleft (hPg file hfile)
      have hone := foretells_one hran
      cases hf : (compileGroups config p true left [g]).failure? with
      | some f =>
          obtain ⟨hgroups, hlogs⟩ := prefix_compileGroups_cons config p false tree g rest
          rw [compileGroups_cons_of_failed hf]
          exact hone.more (fun hsame => compileGroups_cons_of_failed (hsame.symm.trans hf))
            hgroups hlogs
      | none =>
          cases hone with
          | unwritten f before slug n failure =>
              rw [hf] at failure
              cases failure
          | same logs groups failure =>
              have hchanges := (one_compileGroups hc (hd.mono hleft.folders) hb hw.head true).changes
              -- what the group left is among what those behind it do not read
              have hleft' : ChangesOnly (fun q => P q ∨ Kept loc g.slug q) tree
                  (compileGroups config p true left [g]).tree :=
                (hleft.mono fun _ => .inl).trans (hchanges.mono fun _ => .inr)
              have hP' : ∀ g' ∈ rest, ∀ file ∈ g'.sourceFiles,
                  ¬ (P (loc ++ Path.names file) ∨ Kept loc g.slug (loc ++ Path.names file)) :=
                fun g' hg' file hfile => not_or.mpr ⟨hPrest g' hg' file hfile,
                  (hspares g' hg').not_kept loc file hfile⟩
              rw [compileGroups_cons_of_finished hf,
                compileGroups_cons_of_finished (failure.symm.trans hf), tree_compileGroups_checked]
              exact .followedBy logs groups (ih hw.tail hpaths hreads hleft' hP')

end Groups

/-! ### Requests -/

/-- The groups that a request compiles, if the project is loaded and they are there. -/
def selected (r : Request) (config : Config) (tree : FileTree) : List ScriptGroup :=
  match (Project.load config tree r.project).2 with
  | .error _ => []
  | .ok p =>
    match p.select r.group with
    | .error _ => []
    | .ok groups => groups

/-- **Checking foretells keeping**, for every project and group asked for: they answer the same,
or a machine cannot be written; unless a group reads what a group before it may have left. -/
theorem check_foretells_persist {config : Config} (hc : config.generatedDir = "generated")
    (hs : config.defaultSource = "main.rhai") {tree : FileTree} (hr : tree.Rooted)
    (project : String) (group : Option String)
    (hreads : ReadsNoArtifact (selected ⟨project, .persist, group⟩ config tree)) :
    Foretells (run ⟨project, .check, group⟩ config tree)
      (run ⟨project, .persist, group⟩ config tree) := by
  cases hl : (Project.load config tree project).2 with
  | error f =>
      exact .failure _ (run_of_load_error (r := ⟨project, .check, group⟩) hl).2
        (run_of_load_error (r := ⟨project, .persist, group⟩) hl).2
  | ok p =>
      have hkeeps := (run_of_load_ok (r := ⟨project, .persist, group⟩) hl).2
      have hchecks := (run_of_load_ok (r := ⟨project, .check, group⟩) hl).2
      have hp := Project.loaded_of_load hl
      cases hg : p.select group with
      | error f =>
          simp only [compileProject, compileAll, hg] at hkeeps hchecks
          exact .failure _ hchecks hkeeps
      | ok groups =>
          obtain ⟨loc, hd⟩ := hp.folderAt
          have hdefault : Path.isContained config.defaultSource = true := by
            rw [hs]
            decide +kernel
          have hpaths : ∀ g ∈ groups, ∀ file ∈ g.sourceFiles, Path.isContained file = true :=
            fun g hmem => Project.contained_of_load hl hdefault g (Project.select_subset hg hmem)
          have hreads' : ReadsNoArtifact groups := by
            simpa only [selected, hl, hg] using hreads
          simp only [compileProject, compileAll, hg] at hkeeps hchecks
          have hforetells := foretells_compileGroups hc hr hd hp.isBase
            (Project.wellNamed_select hp.groups hg) hpaths hreads'
            (.refl (fun _ => False) tree) fun _ _ _ _ => id
          exact hforetells.answerOf.congr hchecks hkeeps

end Request

/-- A project of two groups, the second of which has one source. -/
def pairProject (source : String) : FileTree :=
  ⟨[(["projects"], .folder), (["projects", "demo"], .folder),
    (["projects", "demo", "manifest.json"], .file (.text
      ("\x7b\"slug\":\"demo\",\"name\":\"\",\"script_groups\":
        [[\"one\",\"\",[\"a.rhai\"]],[\"two\",\"\",[\"" ++ source ++ "\"]]]\x7d"))),
    (["projects", "demo", "a.rhai"], .file (.text "label(\"a\");"))]⟩

theorem pairProject_foretells :
    (pairProject "a.rhai").Rooted ∧
      ReadsNoArtifact (Request.selected ⟨"demo", .persist, none⟩ {} (pairProject "a.rhai")) ∧
      (Request.selected ⟨"demo", .persist, none⟩ {} (pairProject "a.rhai")).length = 2 ∧
      Foretells (Request.run ⟨"demo", .check, none⟩ {} (pairProject "a.rhai"))
        (Request.run ⟨"demo", .persist, none⟩ {} (pairProject "a.rhai")) := by
  have hr : (pairProject "a.rhai").Rooted := by decide +kernel
  have hreads : ReadsNoArtifact
      (Request.selected ⟨"demo", .persist, none⟩ {} (pairProject "a.rhai")) := by decide +kernel
  exact ⟨hr, hreads, by decide +kernel,
    Request.check_foretells_persist rfl rfl hr "demo" none hreads⟩

/-- Where the second group reads the artifact of the first one, checking succeeds, since it is
not there, and keeping fails, since it is no script. -/
theorem check_misses_artifact :
    (pairProject "generated/one.json").Rooted ∧
      ¬ Foretells (Request.run ⟨"demo", .check, none⟩ {} (pairProject "generated/one.json"))
        (Request.run ⟨"demo", .persist, none⟩ {} (pairProject "generated/one.json")) := by
  refine ⟨by decide +kernel, fun h => ?_⟩
  have hchecks : (Request.run ⟨"demo", .check, none⟩ {}
      (pairProject "generated/one.json")).failure? = none := by decide +kernel
  have hkeeps : (Request.run ⟨"demo", .persist, none⟩ {}
      (pairProject "generated/one.json")).failure?.map (·.code) =
        some "SANDBOX_PARSE_ERROR" := by decide +kernel
  cases h with
  | report r s checks keeps =>
      rw [Answer.failure?, keeps] at hkeeps
      cases hkeeps
  | failure e checks =>
      rw [Answer.failure?, checks] at hchecks
      cases hchecks
  | unwritten e before slug n keeps code =>
      rw [Answer.failure?, keeps] at hkeeps
      exact absurd (code.symm.trans (Option.some.inj hkeeps)) (by decide)

end Dialogue
