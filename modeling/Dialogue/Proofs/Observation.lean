import Dialogue.Golden.Run
import Dialogue.Proofs.Copying

/-!
# What a golden case observes

A golden case runs on a copy of its project.  What is told of the run is told of the project
itself: the groups, the log and the error come out as they do for a request on the project
(`GoldenCase.run_observes`), because its units find in the copy what they find in the project
(`SourceUnit.observed_run`), and so do groups, one after the other.  Only messages name paths, and
they are not told.

A source that lies in a folder for artifacts is found in the project and left out of the copy
(`GoldenCase.run_skips_source`).
-/

namespace Dialogue

open Dialogue.Path (IsBase IsName)

/-! ### Results apart from messages -/

/-- A result with what is told of its failure. -/
def observed {α : Type} (x : Except Failure α) : Except ObservedError α := x.mapError .ofFailure

section Observed

variable {α β : Type} {x x' : Except Failure α}

/-- Results of which the same is told. -/
theorem observed_cases (h : observed x' = observed x) :
    (∃ a, x = .ok a ∧ x' = .ok a) ∨
      ∃ f f', x = .error f ∧ x' = .error f' ∧ ObservedError.ofFailure f' = .ofFailure f := by
  cases x with
  | ok a =>
      cases x' with
      | ok a' =>
          cases h
          exact .inl ⟨a, rfl, rfl⟩
      | error f' => cases h
  | error f =>
      cases x' with
      | ok a' => cases h
      | error f' => exact .inr ⟨f, f', rfl, rfl, Except.error.inj h⟩

theorem observed_error {f f' : Failure} (h : ObservedError.ofFailure f' = .ofFailure f) :
    observed (.error f' : Except Failure α) = observed (.error f) := congrArg Except.error h

theorem observed_map (h : observed x' = observed x) (f : α → β) :
    observed (x'.map f) = observed (x.map f) := by
  obtain ⟨a, rfl, rfl⟩ | ⟨e, e', rfl, rfl, he⟩ := observed_cases h
  · rfl
  · exact observed_error he

end Observed

/-- Two runs with the same log, and results of which the same is told. -/
structure Told.Alike {α : Type} (ran ran' : Told α) : Prop where
  logs : ran'.logs = ran.logs
  result : observed ran'.result = observed ran.result

/-! ### Units and groups in the copy -/

section Groups

variable {tree left : FileTree} {options : ScriptOptions} {path path' : String}

/-- **A unit is observed where its source is.** -/
theorem SourceUnit.observed_run {unit : UnitName}
    (h : (left.entryAt path').toOption = (tree.entryAt path).toOption) :
    observed (run options left unit path').2 = observed (run options tree unit path).2 := by
  obtain ⟨entry, he, he'⟩ | ⟨fault, fault', he, he'⟩ := FileTree.entryAt_cases h
  · have hread : left.readText path' = tree.readText path := by
      simp only [FileTree.readText, FileTree.read, he, he']
    have hfound : tree.pathExists path = true ∧ left.pathExists path' = true := by
      simp [FileTree.pathExists, he, he', Except.isOk, Except.toBool]
    simp only [run, hfound.1, hfound.2, if_true, hread]
    cases tree.readText path with
    | ok source => rfl
    | error fault => exact observed_error rfl
  · have hmissing : tree.pathExists path = false ∧ left.pathExists path' = false := by
      simp [FileTree.pathExists, he, he', Except.isOk, Except.toBool]
    simp [run, hmissing]

variable {p : Project} {dir : String} {g : ScriptGroup}

theorem GroupRun.files_alike {group : String} {sources : List String}
    (h : ∀ file ∈ sources, (left.entryAt (Path.join dir file)).toOption =
      (tree.entryAt (Path.join p.dir file)).toOption) :
    (files options tree p group sources).Alike
      (files options left { p with dir } group sources) := by
  induction sources with
  | nil => exact ⟨rfl, rfl⟩
  | cons file rest ih =>
      obtain ⟨hfile, hrest⟩ := List.forall_mem_cons.mp h
      have later := ih hrest
      have unit : observed (SourceUnit.run options left ⟨p.slug, group, file⟩ (Path.join dir file)).2 =
          observed (SourceUnit.run options tree ⟨p.slug, group, file⟩ (Path.join p.dir file)).2 :=
        SourceUnit.observed_run hfile
      rcases hran : SourceUnit.run options tree ⟨p.slug, group, file⟩ (Path.join p.dir file) with
        ⟨events, x⟩
      rcases hran' : SourceUnit.run options left ⟨p.slug, group, file⟩ (Path.join dir file) with
        ⟨events', x'⟩
      rw [hran, hran'] at unit
      obtain ⟨ran, rfl, rfl⟩ | ⟨f, f', rfl, rfl, he⟩ := observed_cases unit
      · simp only [files, hran, hran']
        exact ⟨congrArg (List.cons _) later.logs, observed_map later.result _⟩
      · simp only [files, hran, hran']
        exact ⟨rfl, observed_error he⟩

/-- **A group is observed where its sources are.** -/
theorem GroupRun.run_alike
    (h : ∀ file ∈ g.sourceFiles, (left.entryAt (Path.join dir file)).toOption =
      (tree.entryAt (Path.join p.dir file)).toOption) :
    (run options tree p g).Alike (run options left { p with dir } g) := by
  have hfiles : (files options tree p g.slug g.sourceFiles).Alike
      (files options left { p with dir } g.slug g.sourceFiles) := files_alike h
  obtain ⟨logs, result⟩ := hfiles
  obtain ⟨actions, hran, hran'⟩ | ⟨f, f', hran, hran', he⟩ := observed_cases result
  · simp only [run, hran, hran', logs]
    exact ⟨rfl, rfl⟩
  · simp only [run, hran, hran', logs]
    exact ⟨rfl, observed_error he⟩

end Groups

/-! ### Reports -/

/-- Reports that tell the same, artifacts apart. -/
structure GoldenReport.TellsAs (r r' : GoldenReport) : Prop where
  groups : r.groups = r'.groups
  logs : r.logs = r'.logs
  error : r.error.map ObservedError.ofFailure = r'.error.map .ofFailure

theorem GoldenReport.TellsAs.trans {r r' r'' : GoldenReport} (h : r.TellsAs r')
    (h' : r'.TellsAs r'') : r.TellsAs r'' where
  groups := h.groups.trans h'.groups
  logs := h.logs.trans h'.logs
  error := h.error.trans h'.error

/-- Groups that came out alike, messages apart. -/
structure GroupsRun.ToldAlike (came came' : GroupsRun) : Prop where
  logs : came'.logs = came.logs
  groups : came'.groups.map ObservedGroup.ofReport = came.groups.map .ofReport
  failure : came'.failure?.map ObservedError.ofFailure = came.failure?.map .ofFailure

section Requests

variable {tree left : FileTree} {config config' : Config} {p : Project} {dir : String}
  {groups : List ScriptGroup}

theorem Request.compileGroups_alike (hc : config'.scriptOptions = config.scriptOptions)
    (h : ∀ g ∈ groups, ∀ file ∈ g.sourceFiles, (left.entryAt (Path.join dir file)).toOption =
      (tree.entryAt (Path.join p.dir file)).toOption) :
    (compileGroups config p false tree groups).ToldAlike
      (compileGroups config' { p with dir } false left groups) := by
  induction groups with
  | nil => exact ⟨rfl, rfl, rfl⟩
  | cons g rest ih =>
      obtain ⟨hg, hrest⟩ := List.forall_mem_cons.mp h
      have later := ih hrest
      have first : (GroupRun.run config.scriptOptions tree p g).Alike
          (GroupRun.run config.scriptOptions left { p with dir } g) := GroupRun.run_alike hg
      obtain ⟨logs, result⟩ := first
      obtain ⟨c, hran, hran'⟩ | ⟨f, f', hran, hran', he⟩ := observed_cases result
      · cases c <;>
          simp only [compileGroups, hc, settle, hran, hran', Bool.false_eq_true, if_false, logs] <;>
          exact ⟨congrArg (_ ++ ·) later.logs, congrArg (List.cons _) later.groups, later.failure⟩
      · simp only [compileGroups, hc, settle, hran, hran', logs]
        exact ⟨rfl, rfl, congrArg some he⟩

theorem GoldenCase.observe_answerOf {came came' : GroupsRun} (h : came.ToldAlike came') :
    (observe (Request.answerOf false came').result).TellsAs
      (observe (Request.answerOf false came).result) := by
  obtain ⟨logs, groups, failure⟩ := h
  cases hf : came.failure? with
  | none =>
      rw [hf, Option.map_none, Option.map_eq_none_iff] at failure
      simp only [Request.answerOf, hf, failure, observe]
      exact ⟨groups, logs, rfl⟩
  | some f =>
      rw [hf, Option.map_some, Option.map_eq_some_iff] at failure
      obtain ⟨f', hf', he⟩ := failure
      simp only [Request.answerOf, hf, hf', observe]
      exact ⟨groups, logs, congrArg some he⟩

theorem GoldenCase.observe_showing {group : String} {ran ran' : Told (Option Compilation)}
    (h : ran.Alike ran') :
    (observe (Request.showing group ran')).TellsAs (observe (Request.showing group ran)) := by
  obtain ⟨logs, result⟩ := h
  obtain ⟨c, hran, hran'⟩ | ⟨f, f', hran, hran', he⟩ := observed_cases result
  · cases c <;> simp only [Request.showing, hran, hran', logs] <;> exact ⟨rfl, rfl, rfl⟩
  · simp only [Request.showing, hran, hran', logs]
    exact ⟨rfl, rfl, congrArg some he⟩

/-- What is asked of a project that has another folder elsewhere. -/
theorem GoldenCase.observe_compileProject {r : Request} (hm : r.mode ≠ .persist)
    (hc : config'.scriptOptions = config.scriptOptions)
    (h : ∀ groups, p.asked r = .ok groups → ∀ g ∈ groups, ∀ file ∈ g.sourceFiles,
      (left.entryAt (Path.join dir file)).toOption =
        (tree.entryAt (Path.join p.dir file)).toOption) :
    (observe (r.compileProject config' { p with dir } left).result).TellsAs
      (observe (r.compileProject config p tree).result) := by
  by_cases hpreview : r.mode = .preview
  · have same : { p with dir }.chosen r.group = p.chosen r.group := by cases r.group <;> rfl
    simp only [Request.compileProject, hpreview, Request.previewGroup, same]
    cases hg : p.chosen r.group with
    | error f => exact ⟨rfl, rfl, rfl⟩
    | ok g =>
        have hasked : p.asked r = .ok [g] := by
          simp only [Project.asked, hpreview, hg, Except.map]
        dsimp only
        rw [hc]
        exact observe_showing (GroupRun.run_alike (h [g] hasked g List.mem_cons_self))
  · have same : { p with dir }.select r.group = p.select r.group := by cases r.group <;> rfl
    have hkept : (r.mode == .persist) = false := by simpa using hm
    rw [Request.compileProject_of_ne_preview hpreview, Request.compileProject_of_ne_preview hpreview,
      hkept, Request.compileAll, Request.compileAll, same]
    cases hg : p.select r.group with
    | error f => exact ⟨rfl, rfl, rfl⟩
    | ok groups =>
        have hasked : p.asked r = .ok groups := by
          rw [Project.asked_of_ne_preview hpreview, hg]
        exact observe_answerOf (Request.compileGroups_alike hc (h groups hasked))

end Requests

/-! ### The project in the copy -/

section Loading

variable {tree left : FileTree} {source target : String} {loc : Location}

/-- A name leads to a file in a folder if there is one with that name. -/
theorem FileTree.FolderAt.file_of_isFile {t : FileTree} {dir name : String} {loc : Location}
    (hd : t.FolderAt dir loc) (hb : IsBase dir) (hn : IsName name)
    (h : t.isFile (Path.join dir name) = true) :
    ∃ content, t.lookup (loc ++ [name]) = some (.file content) := by
  unfold isFile at h
  split at h
  · rename_i content he
    obtain ⟨-, found, hw, hl⟩ := walk_of_entryAt he
    rw [hd.walk_join hb hn] at hw
    exact ⟨content, eq_of_walk_name hw ▸ hl⟩
  · cases h

theorem Project.readManifest_of_no_file {slug dir : String}
    (h : tree.isFile (Path.join dir manifestFile) = false) :
    (readManifest tree slug dir).2 = .ok (Manifest.fallback slug) := by
  simp only [readManifest, h, Bool.false_eq_true, if_false]

/-- **The manifest is observed in the copy.** -/
theorem ProjectCopy.Mirrors.readManifest (h : Mirrors tree left source target loc)
    (hr : tree.Rooted) (hb : IsBase source) (hb' : IsBase target) (slug : String) :
    observed (Project.readManifest left slug target).2 =
      observed (Project.readManifest tree slug source).2 := by
  have hn := isName_manifestFile
  by_cases hfile : ∃ content, tree.lookup (loc ++ [Project.manifestFile]) = some (.file content)
  · obtain ⟨content, hl⟩ := hfile
    have hnames : Path.names Project.manifestFile = [Project.manifestFile] := by
      simp [Path.names, hn.steps, Path.Step.name?]
    have hkept (entry : Entry) : isSkipped [Project.manifestFile] entry = false := by
      cases entry <;> rfl
    obtain ⟨hv, hv'⟩ := h.named [Project.manifestFile] content (List.cons_ne_nil _ _) ⟨hl, hkept _⟩
    rw [String.intercalate_singleton] at hv hv'
    have hcontained : Path.isContained Project.manifestFile = true := by decide +kernel
    have same := h.entryAt hr hb hb' hcontained (fun _ _ => hv'.trans hv.symm) fun entry _ =>
      hnames ▸ hkept entry
    obtain ⟨entry, he, he'⟩ | ⟨fault, fault', he, he'⟩ := FileTree.entryAt_cases same
    · have hread : left.readText (Path.join target Project.manifestFile) =
          tree.readText (Path.join source Project.manifestFile) := by
        simp only [FileTree.readText, FileTree.read, he, he']
      simp only [Project.readManifest, FileTree.isFile, he, he', hread]
      cases entry with
      | folder => rfl
      | file content =>
          cases tree.readText (Path.join source Project.manifestFile) with
          | ok text => rfl
          | error fault => exact observed_error rfl
    · rw [Project.readManifest_of_no_file (by simp only [FileTree.isFile, he']),
        Project.readManifest_of_no_file (by simp only [FileTree.isFile, he])]
  · have none : tree.isFile (Path.join source Project.manifestFile) = false :=
      Bool.eq_false_iff.mpr fun hf => hfile (h.project.file_of_isFile hb hn hf)
    have none' : left.isFile (Path.join target Project.manifestFile) = false := by
      refine Bool.eq_false_iff.mpr fun hf => hfile ?_
      obtain ⟨content, hl⟩ := h.copy.file_of_isFile hb' hn hf
      have hw := h.lookup_eq_some.mp hl
      rw [if_neg (List.cons_ne_nil _ _)] at hw
      exact ⟨content, hw.1⟩
    rw [Project.readManifest_of_no_file none, Project.readManifest_of_no_file none']

/-- **The project is observed in the copy**, with another folder. -/
theorem ProjectCopy.Mirrors.load {base scratch slug : String}
    (h : Mirrors tree left (Path.join base slug) (Path.join scratch slug) loc)
    (hr : tree.Rooted) (hn : IsName slug) (config : Config) :
    observed (Project.load { config with projectsDir := scratch } left slug).2 =
      observed ((Project.load { config with projectsDir := base } tree slug).2.map
        ({ · with dir := Path.join scratch slug })) := by
  have hfolder := FileTree.isFolder_iff.mpr ⟨loc, h.project⟩
  have hfolder' := FileTree.isFolder_iff.mpr ⟨_, h.copy⟩
  have hmanifest := h.readManifest hr (Path.isBase_join base hn) (Path.isBase_join scratch hn) slug
  unfold Project.load
  split
  · rfl
  · simp only [Config.projectDir, hfolder, hfolder', Bool.not_true, Bool.false_eq_true, if_false]
    obtain ⟨m, e, e'⟩ | ⟨f, f', e, e', he⟩ := observed_cases hmanifest
    · rw [e, e']
      rfl
    · rw [e, e']
      exact observed_error he

end Loading

/-! ### Golden cases -/

/-- The source files of the groups that a request runs. -/
def Request.sources (r : Request) (config : Config) (tree : FileTree) : List String :=
  match (Project.load config tree r.project).2 with
  | .error _ => []
  | .ok p =>
    match p.asked r with
    | .error _ => []
    | .ok groups => groups.flatMap (·.sourceFiles)

/-- What a source file of the project `dir` leads to is copied to `copy`, and its path is too long
in both or in neither. -/
structure ProjectCopy.Keeps (tree : FileTree) (dir copy file : String) : Prop where
  kept : ∀ entry, tree.entryAt (Path.join dir file) = .ok entry →
    isSkipped (Path.names file) entry = false
  named : ∀ entry, tree.lookup (Path.location dir ++ Path.names file) = some entry →
    FileTree.checkPath (Path.join copy file) = FileTree.checkPath (Path.join dir file)

instance (tree : FileTree) (dir copy file : String) :
    Decidable (ProjectCopy.Keeps tree dir copy file) :=
  decidable_of_iff ((∀ entry ∈ (tree.entryAt (Path.join dir file)).toOption,
        ProjectCopy.isSkipped (Path.names file) entry = false) ∧
      ∀ entry ∈ tree.lookup (Path.location dir ++ Path.names file),
        FileTree.checkPath (Path.join copy file) = FileTree.checkPath (Path.join dir file))
    ⟨fun h => ⟨fun entry he => h.1 entry (toOption_eq_some_iff.mpr he), h.2⟩,
      fun h => ⟨fun entry he => h.kept entry (toOption_eq_some_iff.mp he), h.named⟩⟩

namespace GoldenCase

variable {c : GoldenCase} {tree left : FileTree} {base slug scratch : String}

/-- A case is run if its project is copied, and tells what a request on the copy tells. -/
theorem run_of_copy (hn : IsName slug) {name : String}
    (h : ProjectCopy.run tree (Path.join base slug) scratch = .ok (left, name)) :
    slug = name ∧ ∃ report, c.run tree (Path.join base slug) scratch = .ok report ∧
      report.TellsAs (observe
        (Request.run ⟨slug, c.mode, c.group⟩ { projectsDir := scratch } left).result) := by
  obtain ⟨hname, -⟩ := ProjectCopy.run_eq_ok h
  rw [Path.fileName?_join base hn] at hname
  cases hname
  have hcopy : (ProjectCopy.run tree (Path.join base slug) scratch).mapError GoldenFault.notCopied =
      .ok (left, slug) := mapError_eq_ok_iff.mpr h
  refine ⟨rfl, ?_⟩
  simp only [run, hcopy]
  exact ⟨_, rfl, rfl, rfl, rfl⟩

/-- **A golden case observes the project it was given.**  If it can be copied, what is told of the
run is what a request on the project itself would tell, provided the sources are copied. -/
theorem run_observes (c : GoldenCase) (hn : IsName slug) (ho : tree.Orderly)
    (hf : tree.Fresh scratch) (hm : c.mode ≠ .persist) {name : String}
    (h : ProjectCopy.run tree (Path.join base slug) scratch = .ok (left, name))
    (hsources : ∀ file ∈ Request.sources ⟨slug, c.mode, c.group⟩ { projectsDir := base } tree,
      ProjectCopy.Keeps tree (Path.join base slug) (Path.join scratch slug) file) :
    ∃ report, c.run tree (Path.join base slug) scratch = .ok report ∧
      report.TellsAs (observe
        (Request.run ⟨slug, c.mode, c.group⟩ { projectsDir := base } tree).result) := by
  obtain ⟨rfl, report, hrun, htells⟩ := run_of_copy (c := c) hn h
  obtain ⟨loc, hmirrors⟩ := ProjectCopy.mirrors_of_run ho hf h
  refine ⟨report, hrun, htells.trans ?_⟩
  have hload := hmirrors.load ho.rooted hn {}
  obtain ⟨p', hdirect, hl'⟩ | ⟨f, f', hdirect, hl', he⟩ := observed_cases hload
  · obtain ⟨p, hl, rfl⟩ := map_eq_ok_iff.mp hdirect
    rw [(Request.run_of_load_ok (r := ⟨slug, c.mode, c.group⟩) hl).2,
      (Request.run_of_load_ok (r := ⟨slug, c.mode, c.group⟩) hl').2]
    refine observe_compileProject hm rfl fun groups hg g hgroup file hfile => ?_
    have hdefault : Path.isContained "main.rhai" = true := by decide +kernel
    have hcontained := Project.contained_of_load hl hdefault g
      ((Project.asked_eq_ok hg).1 hgroup) file hfile
    have hmem : file ∈ Request.sources ⟨slug, c.mode, c.group⟩ { projectsDir := base } tree := by
      simp only [Request.sources, hl, hg]
      exact List.mem_flatMap.mpr ⟨g, hgroup, hfile⟩
    obtain ⟨hkept, hnamed⟩ := hsources file hmem
    rw [← FileTree.eq_location_of_walk hmirrors.project.walk] at hnamed
    rw [(Project.load_eq_ok hl).2.1]
    exact hmirrors.entryAt ho.rooted (Path.isBase_join base hn) (Path.isBase_join scratch hn)
      hcontained hnamed hkept
  · have hl := map_eq_error_iff.mp hdirect
    rw [(Request.run_of_load_error (r := ⟨slug, c.mode, c.group⟩) hl).2,
      (Request.run_of_load_error (r := ⟨slug, c.mode, c.group⟩) hl').2]
    exact ⟨rfl, rfl, congrArg some he⟩

end GoldenCase

/-- A project with one source file, in a folder of that name. -/
def nestedProject (folder : String) : FileTree :=
  ⟨[(["projects"], .folder), (["projects", "demo"], .folder),
    (["projects", "demo", "manifest.json"], .file (.text
      ("\x7b\"slug\":\"demo\",\"name\":\"\",\"script_groups\":[[\"one\",\"\",[\"" ++ folder ++
        "/a.rhai\"]]]\x7d"))),
    (["projects", "demo", folder], .folder),
    (["projects", "demo", folder, "a.rhai"], .file (.text "label(\"a\");"))]⟩

/-- The source is copied from the folder it is in. -/
theorem GoldenCase.run_observes_nestedProject :
    let tree := nestedProject "scenes"
    let c : GoldenCase := { schemaVersion := schema, mode := .check }
    ∃ report, c.run tree (Path.join "projects" "demo") "tmp/run" = .ok report ∧
      report.groups = [⟨"one", .success, some 1⟩] ∧
      report.TellsAs (observe (Request.run ⟨"demo", .check, none⟩ {} tree).result) := by
  intro tree c
  have copied : (ProjectCopy.run tree (Path.join "projects" "demo") "tmp/run").toOption.isSome ∧
      (∀ file ∈ Request.sources ⟨"demo", c.mode, c.group⟩ { projectsDir := "projects" } tree,
        ProjectCopy.Keeps tree (Path.join "projects" "demo") (Path.join "tmp/run" "demo") file) ∧
      (observe (Request.run ⟨"demo", .check, none⟩ {} tree).result).groups =
        [⟨"one", .success, some 1⟩] := by
    decide +kernel
  obtain ⟨⟨left, name⟩, hcopy⟩ := Option.isSome_iff_exists.mp copied.1
  obtain ⟨report, hrun, htells⟩ := run_observes c (by decide +kernel) (by decide +kernel)
    (by decide +kernel) (by decide) (toOption_eq_some_iff.mp hcopy) copied.2.1
  exact ⟨report, hrun, htells.groups.trans copied.2.2, htells⟩

/-- **A source in a folder for artifacts is not observed**: it is left out of the copy, and so the
group is empty there. -/
theorem GoldenCase.run_skips_source :
    let tree := nestedProject "generated"
    let c : GoldenCase := { schemaVersion := schema, mode := .check }
    tree.Orderly ∧ tree.Fresh "tmp/run" ∧
      ∃ report, c.run tree (Path.join "projects" "demo") "tmp/run" = .ok report ∧
        report.groups = [⟨"one", .empty, none⟩] ∧
        (observe (Request.run ⟨"demo", .check, none⟩ {} tree).result).groups =
          [⟨"one", .success, some 1⟩] ∧
        ¬ report.TellsAs (observe (Request.run ⟨"demo", .check, none⟩ {} tree).result) := by
  intro tree c
  have ran : (c.run tree (Path.join "projects" "demo") "tmp/run").toOption.map (·.groups) =
      some [⟨"one", .empty, none⟩] ∧
      (observe (Request.run ⟨"demo", .check, none⟩ {} tree).result).groups =
        [⟨"one", .success, some 1⟩] := by
    decide +kernel
  obtain ⟨report, hrun, hgroups⟩ := Option.map_eq_some_iff.mp ran.1
  have hrun := toOption_eq_some_iff.mp hrun
  refine ⟨by decide +kernel, by decide +kernel, report, hrun, hgroups, ran.2, fun h => ?_⟩
  have same := h.groups
  rw [hgroups, ran.2] at same
  cases same

end Dialogue
