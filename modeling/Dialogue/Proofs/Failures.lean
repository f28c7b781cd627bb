import Dialogue.Proofs.Accepted
import Dialogue.Proofs.Atomicity
import Dialogue.Proofs.Sequence
import Dialogue.Proofs.Sources

/-!
# How requests fail

Every step of a request has a table of the ways in which it may fail, each with its kind and its
code; the tables of the steps make up that of the request (`Request.failures`).  Three failures
are in none of the tables, for what they tell of does not happen: that there is nothing to
compile, that actions give no states, and that a script leaves a block open.

`Request.classified`: the code of a failure tells its kind, that is, who has to act on it.
-/

namespace Dialogue

namespace Failure

/-- The kind of the failure and its code are in a table. -/
def In (f : Failure) (table : List (FailureKind × String)) : Prop := (f.kind, f.code) ∈ table

theorem In.left {f : Failure} {table : List (FailureKind × String)} (h : f.In table)
    (more : List (FailureKind × String)) : f.In (table ++ more) :=
  List.mem_append_left _ h

theorem In.right {f : Failure} {table : List (FailureKind × String)}
    (before : List (FailureKind × String)) (h : f.In table) : f.In (before ++ table) :=
  List.mem_append_right _ h

/-- The failure is that an artifact, or the folder for it, could not be written. -/
def IsUnwritten (f : Failure) : Prop := f.code = "ARTIFACT_WRITE_ERROR"

theorem In.not_isUnwritten {f : Failure} {table : List (FailureKind × String)} (h : f.In table)
    (ht : ∀ x ∈ table, x.2 ≠ "ARTIFACT_WRITE_ERROR") : ¬ f.IsUnwritten := ht _ h

end Failure

/-! ### Running and compiling -/

/-- How running a source unit fails. -/
def SourceUnit.failures : List (FailureKind × String) :=
  [(.internal, "SANDBOX_READ_ERROR"), (.internal, "SANDBOX_PARSE_ERROR"),
    (.internal, "SANDBOX_EVAL_ERROR")]

/-- How compiling some actions fails. -/
def CompileFault.failures : List (FailureKind × String) :=
  [(.script, "COMPILER_LABEL_INVALID"), (.script, "COMPILER_DUPLICATE_LABEL"),
    (.script, "COMPILER_NESTED_LABEL"), (.script, "COMPILER_CHOICE_EMPTY"),
    (.script, "COMPILER_NESTED_CONDITIONAL"), (.script, "COMPILER_LABEL_NOT_FOUND")]

/-- How running and compiling a group fails. -/
def GroupRun.failures : List (FailureKind × String) :=
  SourceUnit.failures ++ CompileFault.failures

/-- A script that has been executed has closed its blocks, so this is no way to fail. -/
theorem SourceUnit.failure_in {options : ScriptOptions} {tree : FileTree} {unit : UnitName}
    {path : String} {events : List Event} {f : Failure}
    (h : run options tree unit path = (events, .error f)) : f.In failures := by
  have came := came_run options tree unit path
  rw [h] at came
  cases came with
  | unreadable => simp [Failure.In, failures, readFailure]
  | malformed => simp [Failure.In, failures, syntaxFailure]
  | broken => simp [Failure.In, failures, scriptFailure]
  | entryBroken => simp [Failure.In, failures, scriptFailure]

theorem CompileFault.failure_in {actions : List Action} {fault : CompileFault}
    (hne : actions ≠ []) (h : compile actions = .error fault) : fault.failure.In failures := by
  have first := (check_eq_error_iff hne).mp (compile_eq_error_iff.mp h)
  rcases first with ⟨-, p, -, -, -, hp⟩ | ⟨-, -, v, -, -, -, hv⟩
  · cases hp <;> simp [Failure.In, failures, failure, kind, code]
  · cases hv with
    | target ht =>
        obtain ⟨-, t, -, -, -, -, rfl⟩ := ht
        simp [Failure.In, failures, failure, kind, code]
    | _ => simp [Failure.In, failures, failure, kind, code]

namespace GroupRun

variable {options : ScriptOptions} {tree : FileTree} {p : Project} {f : Failure}

theorem files_failure_in {group : String} {sources : List String}
    (h : (files options tree p group sources).result = .error f) : f.In SourceUnit.failures := by
  induction sources with
  | nil => cases h
  | cons file rest ih =>
      unfold files at h
      dsimp only at h
      split at h
      · rename_i hrun
        cases h
        exact SourceUnit.failure_in hrun
      · cases hl : (files options tree p group rest).result with
        | error g =>
            rw [hl] at h
            cases h
            exact ih hl
        | ok actions =>
            rw [hl] at h
            cases h

/-- Where all files of a group ran, only compiling is left to fail. -/
theorem failure_in_of_files {g : ScriptGroup} {actions : List Action}
    (hf : (files options tree p g.slug g.sourceFiles).result = .ok actions)
    (h : (run options tree p g).result = .error f) : f.In CompileFault.failures := by
  unfold run at h
  simp only [hf] at h
  unfold compileActions at h
  split at h
  · cases h
  · rename_i hne
    split at h
    · rename_i fault hc
      cases h
      exact CompileFault.failure_in (by simpa using hne) hc
    · cases h

theorem failure_in {g : ScriptGroup} (h : (run options tree p g).result = .error f) :
    f.In failures := by
  cases hf : (files options tree p g.slug g.sourceFiles).result with
  | error g' =>
      unfold run at h
      simp only [hf] at h
      cases h
      exact (files_failure_in hf).left _
  | ok actions => exact (failure_in_of_files hf h).right _

theorem not_unwritten_run {g : ScriptGroup} (h : (run options tree p g).result = .error f) :
    ¬ f.IsUnwritten :=
  (failure_in h).not_isUnwritten (by decide +kernel)

end GroupRun

/-! ### Loading -/

/-- What may be wrong with a manifest. -/
def ManifestFault.failures : List (FailureKind × String) :=
  [(.script, "PROJECT_MANIFEST_INVALID"), (.script, "PROJECT_SLUG_INVALID"),
    (.script, "PROJECT_GROUP_DUPLICATE"), (.script, "PROJECT_SOURCE_PATH_INVALID")]

theorem ManifestFault.failure_in (fault : ManifestFault) : fault.failure.In failures := by
  cases fault <;> simp [Failure.In, failures, failure, code]

namespace Project

variable {config : Config} {tree : FileTree} {slug : String} {f : Failure}

/-- How loading a project fails. -/
def loadFailures : List (FailureKind × String) :=
  [(.script, "PROJECT_SLUG_INVALID"), (.notFound, "PROJECT_NOT_FOUND"),
    (.internal, "PROJECT_MANIFEST_READ")] ++ ManifestFault.failures

/-- How choosing a group fails. -/
def choiceFailures : List (FailureKind × String) := [(.notFound, "PROJECT_GROUP_NOT_FOUND")]

theorem readManifest_failure_in {dir : String}
    (h : (readManifest tree slug dir).2 = .error f) : f.In loadFailures := by
  unfold readManifest at h
  dsimp only at h
  split at h
  · split at h
    · cases h
      simp [Failure.In, loadFailures, unreadable]
    · rename_i text _
      cases hp : Manifest.parse text with
      | ok m =>
          rw [hp] at h
          cases h
      | error fault =>
          rw [hp] at h
          cases h
          exact fault.failure_in.right _
  · cases h

theorem load_failure_in (h : (load config tree slug).2 = .error f) : f.In loadFailures := by
  unfold load at h
  split at h
  · cases h
    simp [Failure.In, loadFailures, invalidSlug]
  · dsimp only at h
    split at h
    · cases h
      simp [Failure.In, loadFailures, missing]
    · cases hm : (readManifest tree slug (config.projectDir slug)).2 with
      | ok m =>
          simp only [hm] at h
          cases h
      | error g =>
          simp only [hm] at h
          cases h
          exact readManifest_failure_in hm

theorem not_unwritten_load (h : (load config tree slug).2 = .error f) : ¬ f.IsUnwritten :=
  (load_failure_in h).not_isUnwritten (by decide +kernel)

/-- A group that is asked for by its slug fails to be found if it is not among the groups. -/
theorem requireGroup_eq_error {p : Project} (h : p.requireGroup slug = .error f) :
    f = unknownGroup p.slug slug ∧ ∀ g ∈ p.groups, g.slug ≠ slug := by
  unfold requireGroup group? at h
  split at h
  · cases h
  · rename_i hnone
    cases h
    exact ⟨rfl, fun g hg e => List.find?_eq_none.mp hnone g hg (by simp [e])⟩

theorem select_eq_error {p : Project} {filter : Option String} (h : p.select filter = .error f) :
    ∃ group, filter = some group ∧ p.requireGroup group = .error f := by
  cases filter with
  | none => cases h
  | some group =>
      refine ⟨group, rfl, ?_⟩
      dsimp only [select] at h
      cases hr : p.requireGroup group with
      | error g =>
          rw [hr] at h
          cases h
          rfl
      | ok g =>
          rw [hr] at h
          cases h

theorem chosen_failure_in {p : Project} {filter : Option String}
    (h : p.chosen filter = .error f) : f.In choiceFailures := by
  cases filter with
  | some group =>
      rw [(requireGroup_eq_error h).1]
      simp [Failure.In, choiceFailures, unknownGroup]
  | none =>
      unfold chosen firstGroup at h
      dsimp only at h
      split at h <;> cases h
      simp [Failure.In, choiceFailures, noGroups]

theorem not_unwritten_chosen {p : Project} {group : Option String}
    (h : p.chosen group = .error f) : ¬ f.IsUnwritten :=
  (chosen_failure_in h).not_isUnwritten (by decide +kernel)

/-- A project that declares no groups has one all the same, so the first is always found. -/
theorem chosen_eq_error {p : Project} {filter : Option String} (hp : p.groups ≠ [])
    (h : p.chosen filter = .error f) :
    ∃ group, filter = some group ∧ p.requireGroup group = .error f := by
  cases filter with
  | some group => exact ⟨group, rfl, h⟩
  | none =>
      unfold chosen firstGroup at h
      dsimp only at h
      split at h
      · cases h
      · rename_i hnone
        exact absurd (List.head?_eq_none_iff.mp hnone) hp

end Project

/-! ### Requests -/

/-- How keeping an artifact fails. -/
def Artifact.failures : List (FailureKind × String) := [(.internal, "ARTIFACT_WRITE_ERROR")]

theorem Artifact.failure_in {config : Config} {p : Project} {group : String} {m : Machine}
    {tree left : FileTree} {f : Failure} (h : keep config p group m tree = (left, some f)) :
    f.In failures := by
  unfold keep at h
  dsimp only at h
  split at h
  · cases h
    simp [Failure.In, failures, unwritable]
  · split at h
    · cases h
      simp [Failure.In, failures, unwritable]
    · cases h

namespace Request

variable {config : Config} {p : Project} {tree : FileTree} {f : Failure}

/-- How a group fails once it has run and been compiled. -/
def settling : Mode → List (FailureKind × String)
  | .persist => Artifact.failures
  | .check => []
  | .preview => [(.script, "PREVIEW_GROUP_EMPTY")]

/-- How a request fails. -/
def failures (mode : Mode) : List (FailureKind × String) :=
  Project.loadFailures ++ (Project.choiceFailures ++ (GroupRun.failures ++ settling mode))

/-- A group that fails did not run, or its machine could not be kept. -/
theorem settle_eq_error {kept : Bool} {group : String} {ran : Except Failure (Option Compilation)}
    (h : (settle config p kept tree group ran).2 = .error f) :
    ran = .error f ∨ kept = true ∧ f.In Artifact.failures := by
  unfold settle at h
  split at h
  · cases h
    exact .inl rfl
  · cases h
  · dsimp only at h
    split at h
    · rename_i hkept
      split at h
      · rename_i hk
        cases h
        exact .inr ⟨hkept, Artifact.failure_in hk⟩
      · cases h
    · cases h

theorem compileGroups_failure_in {kept : Bool} {groups : List ScriptGroup}
    (h : (compileGroups config p kept tree groups).failure? = some f) :
    f.In (GroupRun.failures ++ settling (if kept then .persist else .check)) := by
  induction groups generalizing tree with
  | nil => cases h
  | cons g rest ih =>
      simp only [compileGroups] at h
      split at h
      · rename_i hs
        cases h
        rcases settle_eq_error (congrArg Prod.snd hs) with hr | ⟨hkept, hk⟩
        · exact (GroupRun.failure_in hr).left _
        · subst hkept
          exact hk.right _
      · exact ih h

theorem showing_eq_error {group : String} {ran : Told (Option Compilation)} {e : CompileFailure}
    (h : showing group ran = .error e) :
    ran.result = .error e.failure ∨ e.failure.In (settling .preview) := by
  unfold showing at h
  dsimp only at h
  split at h
  · cases h
    exact .inl ‹_›
  · cases h
    exact .inr (by simp [Failure.In, settling, nothingToShow])
  · cases h

theorem compileAll_eq_error {filter : Option String} {kept : Bool} {e : CompileFailure}
    (h : (compileAll config p filter kept tree).result = .error e) :
    (∃ group, filter = some group ∧ p.requireGroup group = .error e.failure) ∨
      e.failure.In (GroupRun.failures ++ settling (if kept then .persist else .check)) := by
  unfold compileAll at h
  split at h
  · rename_i hs
    cases h
    exact .inl (Project.select_eq_error hs)
  · unfold answerOf at h
    dsimp only at h
    split at h
    · rename_i hf
      cases h
      exact .inr (compileGroups_failure_in hf)
    · cases h

theorem previewGroup_eq_error {filter : Option String} {e : CompileFailure} (hp : p.groups ≠ [])
    (h : (previewGroup config p filter tree).result = .error e) :
    (∃ group, filter = some group ∧ p.requireGroup group = .error e.failure) ∨
      e.failure.In (GroupRun.failures ++ settling .preview) := by
  unfold previewGroup at h
  split at h
  · rename_i hc
    cases h
    exact .inl (Project.chosen_eq_error hp hc)
  · rcases showing_eq_error h with hr | hs
    · exact .inr ((GroupRun.failure_in hr).left _)
    · exact .inr (hs.right _)

/-- **How a request fails**: its project is not loaded, the group that it asks for is not found,
or a group fails. -/
theorem run_eq_error {r : Request} {e : CompileFailure}
    (h : (r.run config tree).result = .error e) :
    (Project.load config tree r.project).2 = .error e.failure ∨
      ∃ p, (Project.load config tree r.project).2 = .ok p ∧
        ((∃ group, r.group = some group ∧ p.requireGroup group = .error e.failure) ∨
          e.failure.In (GroupRun.failures ++ settling r.mode)) := by
  cases hl : (Project.load config tree r.project).2 with
  | error f =>
      rw [(run_of_load_error hl).2] at h
      cases h
      exact .inl rfl
  | ok p =>
      refine .inr ⟨p, rfl, ?_⟩
      rw [(run_of_load_ok hl).2, compileProject] at h
      cases hm : r.mode with
      | persist | check =>
          rw [hm] at h
          exact compileAll_eq_error h
      | preview =>
          rw [hm] at h
          exact previewGroup_eq_error (Project.groups_ne_nil_of_load hl) h

theorem failure_in {r : Request} {e : CompileFailure} (h : (r.run config tree).result = .error e) :
    e.failure.In (failures r.mode) := by
  rcases run_eq_error h with hl | ⟨p, -, ⟨group, -, hg⟩ | hf⟩
  · exact (Project.load_failure_in hl).left _
  · rw [(Project.requireGroup_eq_error hg).1]
    exact .right _ (.left (by simp [Failure.In, Project.choiceFailures, Project.unknownGroup]) _)
  · exact (hf.right _).right _

/-! ### Who has to act -/

/-- Who has to act on the failure of a request, by its code. -/
structure Classified (config : Config) (tree : FileTree) (r : Request) (f : Failure) : Prop where
  internal : f.kind = .internal ↔ f.code ∈ ["PROJECT_MANIFEST_READ", "SANDBOX_READ_ERROR",
    "SANDBOX_PARSE_ERROR", "SANDBOX_EVAL_ERROR", "ARTIFACT_WRITE_ERROR"]
  notFound : f.kind = .notFound ↔ f.code ∈ ["PROJECT_NOT_FOUND", "PROJECT_GROUP_NOT_FOUND"]
  script : f.kind = .script ↔ f.code ∉ ["PROJECT_MANIFEST_READ", "SANDBOX_READ_ERROR",
    "SANDBOX_PARSE_ERROR", "SANDBOX_EVAL_ERROR", "ARTIFACT_WRITE_ERROR", "PROJECT_NOT_FOUND",
    "PROJECT_GROUP_NOT_FOUND"]
  writing : f.code = "ARTIFACT_WRITE_ERROR" → r.mode = .persist
  /-- a group is missing only where one was asked for and the project has none of that slug -/
  asked : f.code = "PROJECT_GROUP_NOT_FOUND" → ∃ group p, r.group = some group ∧
    (Project.load config tree r.project).2 = .ok p ∧ ∀ g ∈ p.groups, g.slug ≠ group
  unreached : f.code ∉ ["COMPILER_EMPTY_INPUT", "COMPILER_NO_STATES",
    "SANDBOX_RECORDER_UNBALANCED"]

theorem asked_of_missing {r : Request} {e : CompileFailure}
    (h : (r.run config tree).result = .error e)
    (hcode : e.failure.code = "PROJECT_GROUP_NOT_FOUND") :
    ∃ group p, r.group = some group ∧ (Project.load config tree r.project).2 = .ok p ∧
      ∀ g ∈ p.groups, g.slug ≠ group := by
  rcases run_eq_error h with hl | ⟨p, hl, ⟨group, hg, hr⟩ | hf⟩
  · have other : ∀ x ∈ Project.loadFailures, x.2 ≠ "PROJECT_GROUP_NOT_FOUND" := by decide +kernel
    exact absurd hcode (other _ (Project.load_failure_in hl))
  · exact ⟨group, p, hg, hl, (Project.requireGroup_eq_error hr).2⟩
  · have other : ∀ x ∈ GroupRun.failures ++ settling r.mode, x.2 ≠ "PROJECT_GROUP_NOT_FOUND" := by
      cases r.mode <;> decide +kernel
    exact absurd hcode (other _ hf)

theorem classified_run {r : Request} {e : CompileFailure}
    (h : (r.run config tree).result = .error e) : Classified config tree r e.failure := by
  -- all but one of the fields can be read off the table
  have listed (Q : FailureKind → String → Prop) (hq : ∀ x ∈ failures r.mode, Q x.1 x.2) :
      Q e.failure.kind e.failure.code := hq _ (failure_in h)
  constructor
  case internal =>
    refine listed (fun k c => k = .internal ↔ c ∈ _) ?_
    cases r.mode <;> decide +kernel
  case notFound =>
    refine listed (fun k c => k = .notFound ↔ c ∈ _) ?_
    cases r.mode <;> decide +kernel
  case script =>
    refine listed (fun k c => k = .script ↔ c ∉ _) ?_
    cases r.mode <;> decide +kernel
  case writing =>
    refine listed (fun _ c => c = _ → r.mode = .persist) ?_
    cases r.mode <;> decide +kernel
  case asked => exact asked_of_missing h
  case unreached =>
    refine listed (fun _ c => c ∉ _) ?_
    cases r.mode <;> decide +kernel

/-- Once all files of a group ran, it fails for what the scripts recorded, or because its machine
cannot be kept. -/
structure ClassifiedGroup (config : Config) (tree : FileTree) (p : Project) (g : ScriptGroup) :
    Prop where
  compiled : ∀ kept f, (compileGroups config p kept tree [g]).failure? = some f →
    f.kind = .script ∨ kept = true ∧ f.kind = .internal ∧ f.code = "ARTIFACT_WRITE_ERROR"
  shown : ∀ e, showing g.slug (GroupRun.run config.scriptOptions tree p g) = .error e →
    e.failure.kind = .script

theorem classified_group {g : ScriptGroup} {actions : List Action}
    (hf : (GroupRun.files config.scriptOptions tree p g.slug g.sourceFiles).result =
      .ok actions) : ClassifiedGroup config tree p g := by
  have script {f : Failure}
      (h : (GroupRun.run config.scriptOptions tree p g).result = .error f) : f.kind = .script := by
    have listed : ∀ x ∈ CompileFault.failures, x.1 = .script := by decide +kernel
    exact listed _ (GroupRun.failure_in_of_files hf h)
  constructor
  case compiled =>
    intro kept f h
    simp only [compileGroups] at h
    split at h
    · rename_i hs
      cases h
      rcases settle_eq_error (congrArg Prod.snd hs) with hr | ⟨hkept, hk⟩
      · exact .inl (script hr)
      · have listed : ∀ x ∈ Artifact.failures, x.1 = .internal ∧ x.2 = "ARTIFACT_WRITE_ERROR" := by
          decide +kernel
        exact .inr ⟨hkept, listed _ hk⟩
    · cases h
  case shown =>
    intro e h
    rcases showing_eq_error h with hr | hs
    · exact script hr
    · have listed : ∀ x ∈ settling .preview, x.1 = .script := by decide +kernel
      exact listed _ hs

/-- **Who has to act on a failure can be told from its code.** -/
theorem classified (config : Config) (tree : FileTree) :
    (∀ (r : Request) (e : CompileFailure), (r.run config tree).result = .error e →
      Classified config tree r e.failure) ∧
    ∀ (p : Project) (g : ScriptGroup) (actions : List Action),
      (GroupRun.files config.scriptOptions tree p g.slug g.sourceFiles).result = .ok actions →
      ClassifiedGroup config tree p g :=
  ⟨fun _ _ h => classified_run h, fun _ _ _ h => classified_group h⟩

/-- A group that the project does not have, and one with a jump to nowhere. -/
theorem classified_threeGroups :
    (∃ e, (run ⟨"demo", .check, some "four"⟩ {} threeGroups).result = .error e ∧
      e.failure.code = "PROJECT_GROUP_NOT_FOUND" ∧
      Classified {} threeGroups ⟨"demo", .check, some "four"⟩ e.failure) ∧
    ∃ p g actions, (Project.load {} threeGroups "demo").2 = .ok p ∧ g ∈ p.groups ∧
      (GroupRun.files (Config.scriptOptions {}) threeGroups p g.slug g.sourceFiles).result =
        .ok actions ∧
      (compileGroups {} p true threeGroups [g]).failure?.isSome = true ∧
      ClassifiedGroup {} threeGroups p g := by
  obtain ⟨hrun, hgroup⟩ := classified {} threeGroups
  constructor
  · have hcode : (run ⟨"demo", .check, some "four"⟩ {} threeGroups).failure?.map (·.code) =
        some "PROJECT_GROUP_NOT_FOUND" := by decide +kernel
    cases hr : (run ⟨"demo", .check, some "four"⟩ {} threeGroups).result with
    | ok _ =>
        rw [Answer.failure?, hr] at hcode
        cases hcode
    | error e =>
        rw [Answer.failure?, hr] at hcode
        exact ⟨e, rfl, Option.some.inj hcode, hrun _ e hr⟩
  · let second (p : Project) : ScriptGroup := p.groups[1]?.getD ⟨"", "", []⟩
    have hload : (Project.load {} threeGroups "demo").2.toOption.any (fun p =>
        second p ∈ p.groups ∧
        (GroupRun.files (Config.scriptOptions {}) threeGroups p (second p).slug
          (second p).sourceFiles).result.toOption.isSome ∧
        (compileGroups {} p true threeGroups [second p]).failure?.isSome) = true := by
      decide +kernel
    cases hl : (Project.load {} threeGroups "demo").2 with
    | error f =>
        rw [hl] at hload
        cases hload
    | ok p =>
        rw [hl] at hload
        obtain ⟨hmem, hran, hfails⟩ := of_decide_eq_true hload
        cases hf : (GroupRun.files (Config.scriptOptions {}) threeGroups p (second p).slug
          (second p).sourceFiles).result with
        | error f =>
            rw [hf] at hran
            cases hran
        | ok actions => exact ⟨p, second p, actions, rfl, hmem, hf, hfails, hgroup p _ _ hf⟩

end Request

end Dialogue
