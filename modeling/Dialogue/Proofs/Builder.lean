import Dialogue.GroupRun
import Mathlib.Data.List.Forall2

/-!
# One builder for all groups

The groups of a request share a builder.  A group resets it, its files append to it one after the
other, and what it holds in the end is compiled.  `GroupRun.runInto` is a run of a group in these
terms, and it comes to what `GroupRun.run` says, whatever the builder held before
(`runInto_snd_eq_run`).

**A group is its files, each on its own** (`GroupRun.runInto_composed`).  Let every file of the
group run alone, into an empty builder.  The run of the group fails with the first of them that
fails, and the log has a line for each file before.  Otherwise the actions of the files, one list
behind the other, are compiled, unless there are none.
-/

namespace Dialogue

/-- The actions that were appended since the last reset. -/
structure Builder where
  actions : List Action := []

namespace Builder

def reset (_ : Builder) : Builder := {}

def extend (b : Builder) (actions : List Action) : Builder :=
  { b with actions := b.actions ++ actions }

theorem extend_nil (b : Builder) : b.extend [] = b :=
  congrArg Builder.mk (List.append_nil b.actions)

theorem extend_append (b : Builder) (as bs : List Action) :
    (b.extend as).extend bs = b.extend (as ++ bs) :=
  congrArg Builder.mk (List.append_assoc b.actions as bs)

end Builder

/-- What a unit that did not fail reports, besides what it appends. -/
structure UnitReport where
  outcome : Outcome
  appended : Nat

namespace UnitReport

/-- What the log says of a file with this report. -/
def text (options : ScriptOptions) (file : String) : UnitReport → String
  | ⟨.completed, n⟩ => s!"{file} ({n} action(s))"
  | ⟨.skipped, _⟩ => s!"{file}: not found"
  | ⟨.noEntryPoint, n⟩ => s!"{file}: no entry point `{options.entryPoint}()` ({n} action(s))"

def line (options : ScriptOptions) (group file : String) (r : UnitReport) : String :=
  GroupRun.logLine group r.outcome.tag (r.text options file)

end UnitReport

/-- Runs the unit whose source is at a path.  A unit that fails leaves the builder as it is. -/
def SourceUnit.runInto (options : ScriptOptions) (tree : FileTree) (unit : UnitName)
    (path : String) (b : Builder) : Builder × List Event × Except Failure UnitReport :=
  match SourceUnit.run options tree unit path with
  | (events, .error f) => (b, events, .error f)
  | (events, .ok run) => (b.extend run.actions, events, .ok ⟨run.outcome, run.actions.length⟩)

section

variable {options : ScriptOptions} {tree : FileTree} {unit : UnitName} {path : String}
  {events : List Event}

theorem SourceUnit.runInto_of_error {f : Failure}
    (h : SourceUnit.run options tree unit path = (events, .error f)) (b : Builder) :
    SourceUnit.runInto options tree unit path b = (b, events, .error f) := by
  unfold runInto
  rw [h]

theorem SourceUnit.runInto_of_ok {run : UnitRun}
    (h : SourceUnit.run options tree unit path = (events, .ok run)) (b : Builder) :
    SourceUnit.runInto options tree unit path b =
      (b.extend run.actions, events, .ok ⟨run.outcome, run.actions.length⟩) := by
  unfold runInto
  rw [h]

end

namespace GroupRun

variable (options : ScriptOptions) (tree : FileTree) (p : Project)

/-- Runs files in order up to the first that fails. -/
def filesInto (group : String) : List String → Builder → Builder × Told Unit
  | [], b => (b, ⟨[], [], .ok ()⟩)
  | file :: rest, b =>
    let unit : UnitName := ⟨p.slug, group, file⟩
    match SourceUnit.runInto options tree unit (Path.join p.dir file) b with
    | (b, events, .error f) => (b, ⟨[], events, .error f⟩)
    | (b, events, .ok r) =>
      let later := filesInto group rest b
      (later.1, ⟨r.line options group file :: later.2.logs,
        events ++ incomplete options unit ⟨r.outcome, []⟩ ++ later.2.events, later.2.result⟩)

/-- Runs a group with a builder that may hold anything. -/
def runInto (g : ScriptGroup) (b : Builder) : Builder × Told (Option Compilation) :=
  let (b, ran) := filesInto options tree p g.slug g.sourceFiles b.reset
  match ran.result with
  | .error f => (b, ⟨ran.logs, ran.events, .error f⟩)
  | .ok () =>
    let compiled := compileActions p g.slug b.actions
    (b, ⟨ran.logs ++ compiled.logs, ran.events ++ compiled.events, compiled.result⟩)

/-- Runs a file of a group on its own. -/
def alone (group file : String) : Builder × List Event × Except Failure UnitReport :=
  SourceUnit.runInto options tree ⟨p.slug, group, file⟩ (Path.join p.dir file) {}

/-- The entry of the log is the line of a file that runs on its own without failing. -/
def IsLineOf (group file entry : String) : Prop :=
  ∃ r, (alone options tree p group file).2.2 = .ok r ∧ entry = r.line options group file ∧
    r.appended = (alone options tree p group file).1.actions.length

/-- What the files append on their own, one list behind the other. -/
def gathered (group : String) (sources : List String) : List Action :=
  sources.flatMap fun file => (alone options tree p group file).1.actions

/-- What a run of the group tells, in terms of its files that run on their own. -/
inductive Composed (g : ScriptGroup) (told : Told (Option Compilation)) : Prop where
  /-- a file fails; there is a line for each file before it -/
  | failed {before rest : List String} {file : String} {f : Failure}
      (sources : g.sourceFiles = before ++ file :: rest)
      (lines : List.Forall₂ (IsLineOf options tree p g.slug) before told.logs)
      (fails : (alone options tree p g.slug file).2.2 = .error f)
      (result : told.result = .error f)
  | empty (lines : List.Forall₂ (IsLineOf options tree p g.slug) g.sourceFiles told.logs)
      (nothing : gathered options tree p g.slug g.sourceFiles = [])
      (result : told.result = .ok none)
  | refused {fault : CompileFault}
      (lines : List.Forall₂ (IsLineOf options tree p g.slug) g.sourceFiles told.logs)
      (something : gathered options tree p g.slug g.sourceFiles ≠ [])
      (refuses : compile (gathered options tree p g.slug g.sourceFiles) = .error fault)
      (result : told.result = .error fault.failure)
  /-- behind the lines of the files there is a line for each warning -/
  | compiled {entries : List String} {c : Compilation}
      (lines : List.Forall₂ (IsLineOf options tree p g.slug) g.sourceFiles entries)
      (compiles : compile (gathered options tree p g.slug g.sourceFiles) = .ok c)
      (logs : told.logs = entries ++ c.warnings.map (logLine g.slug "WARN"))
      (result : told.result = .ok (some c))

/-! ### Into any builder -/

theorem line_eq_fileLine (group file : String) (run : UnitRun) :
    UnitReport.line options group file ⟨run.outcome, run.actions.length⟩ =
      fileLine options group file run := by
  obtain ⟨outcome, actions⟩ := run
  refine congrArg (logLine group outcome.tag) (String.toList_inj.mp ?_)
  cases outcome <;> simp [UnitReport.text, fileText, Outcome.reason?, toString]

/-- Files that are run into a builder append what they record, and tell what they tell. -/
theorem filesInto_eq (group : String) (sources : List String) (b : Builder) :
    (filesInto options tree p group sources b).2 =
        ⟨(files options tree p group sources).logs, (files options tree p group sources).events,
          (files options tree p group sources).result.map fun _ => ()⟩ ∧
      ∀ actions, (files options tree p group sources).result = .ok actions →
        (filesInto options tree p group sources b).1 = b.extend actions := by
  induction sources generalizing b with
  | nil =>
      refine ⟨rfl, fun actions h => ?_⟩
      cases h
      exact b.extend_nil.symm
  | cons file rest ih =>
      rcases hrun : SourceUnit.run options tree ⟨p.slug, group, file⟩ (Path.join p.dir file) with
        ⟨events, f | run⟩
      · unfold filesInto files
        simp only [SourceUnit.runInto_of_error hrun, hrun]
        exact ⟨rfl, fun actions h => nomatch h⟩
      · -- the files behind find the builder with what this one appended
        obtain ⟨told, holds⟩ := ih (b.extend run.actions)
        unfold filesInto files
        simp only [SourceUnit.runInto_of_ok hrun, hrun]
        refine ⟨?_, fun actions h => ?_⟩
        · rw [told, line_eq_fileLine]
          cases (files options tree p group rest).result <;> rfl
        · cases hr : (files options tree p group rest).result with
          | error f =>
              rw [hr] at h
              cases h
          | ok later =>
              rw [hr] at h
              cases h
              rw [holds later hr]
              exact b.extend_append run.actions later

/-- **Whatever the builder held**, a group runs as it does on its own. -/
theorem runInto_snd_eq_run (g : ScriptGroup) (b : Builder) :
    (runInto options tree p g b).2 = run options tree p g := by
  obtain ⟨told, holds⟩ := filesInto_eq options tree p g.slug g.sourceFiles b.reset
  rw [runInto, run]
  dsimp only
  rw [told]
  cases hr : (files options tree p g.slug g.sourceFiles).result with
  | error f => rfl
  | ok actions =>
      rw [holds actions hr]
      rfl

/-! ### File by file -/

theorem gathered_cons (group file : String) (rest : List String) :
    gathered options tree p group (file :: rest) =
      (alone options tree p group file).1.actions ++ gathered options tree p group rest :=
  List.flatMap_cons

/-- The files of a group up to the first that fails, in terms of files that run on their own. -/
theorem files_cases (group : String) (sources : List String) :
    (∃ before file rest f, sources = before ++ file :: rest ∧
        List.Forall₂ (IsLineOf options tree p group) before
          (files options tree p group sources).logs ∧
        (alone options tree p group file).2.2 = .error f ∧
        (files options tree p group sources).result = .error f) ∨
      List.Forall₂ (IsLineOf options tree p group) sources
          (files options tree p group sources).logs ∧
        (files options tree p group sources).result =
          .ok (gathered options tree p group sources) := by
  induction sources with
  | nil => exact Or.inr ⟨.nil, rfl⟩
  | cons file rest ih =>
      rcases hrun : SourceUnit.run options tree ⟨p.slug, group, file⟩ (Path.join p.dir file) with
        ⟨events, f | run⟩
      · have here : alone options tree p group file = ({}, events, .error f) :=
          SourceUnit.runInto_of_error hrun {}
        unfold files
        simp only [hrun]
        exact Or.inl ⟨[], file, rest, f, rfl, .nil, congrArg (·.2.2) here, rfl⟩
      · have here : alone options tree p group file =
            ({ actions := run.actions }, events, .ok ⟨run.outcome, run.actions.length⟩) :=
          SourceUnit.runInto_of_ok hrun {}
        have appends : (alone options tree p group file).1.actions = run.actions :=
          congrArg (·.1.actions) here
        have line : IsLineOf options tree p group file (fileLine options group file run) :=
          ⟨_, congrArg (·.2.2) here, (line_eq_fileLine options group file run).symm, by rw [appends]⟩
        unfold files
        simp only [hrun]
        rcases ih with ⟨before, failing, after, f, rfl, lines, fails, result⟩ | ⟨lines, result⟩
        · refine Or.inl ⟨file :: before, failing, after, f, rfl, .cons line lines, fails, ?_⟩
          rw [result]
          rfl
        · refine Or.inr ⟨.cons line lines, ?_⟩
          rw [result, gathered_cons, appends]
          rfl

theorem run_composed (g : ScriptGroup) : Composed options tree p g (run options tree p g) := by
  unfold run
  dsimp only
  rcases files_cases options tree p g.slug g.sourceFiles with
    ⟨before, file, rest, f, sources, lines, fails, result⟩ | ⟨lines, result⟩
  · rw [result]
    exact .failed sources lines fails rfl
  · rw [result]
    unfold compileActions
    dsimp only
    split
    · next nothing =>
        exact .empty (by simpa using lines) (List.isEmpty_iff.mp nothing) rfl
    · next something =>
        have something := fun h => something (List.isEmpty_iff.mpr h)
        split
        · next fault refuses => exact .refused (by simpa using lines) something refuses rfl
        · next c compiles => exact .compiled lines compiles rfl rfl

/-- A file that is missing is passed over. -/
theorem alone_of_missing {group file : String}
    (h : tree.pathExists (Path.join p.dir file) = false) :
    (alone options tree p group file).2.2 = .ok ⟨.skipped, 0⟩ ∧
      (alone options tree p group file).1.actions = [] := by
  simp only [alone, SourceUnit.runInto, SourceUnit.run, h, Bool.false_eq_true, if_false]
  exact ⟨rfl, rfl⟩

/-- **A group is its files, each on its own**, whatever the builder held. -/
theorem runInto_composed (options : ScriptOptions) (tree : FileTree) (p : Project)
    (g : ScriptGroup) (b : Builder) :
    (runInto options tree p g b).2 = run options tree p g ∧
      Composed options tree p g (runInto options tree p g b).2 ∧
        ∀ file, tree.pathExists (Path.join p.dir file) = false →
          (alone options tree p g.slug file).2.2 = .ok ⟨.skipped, 0⟩ ∧
            (alone options tree p g.slug file).1.actions = [] := by
  rw [runInto_snd_eq_run]
  exact ⟨rfl, run_composed options tree p g,
    fun _ missing => alone_of_missing options tree p missing⟩

end GroupRun

/-- A project folder with nothing in it. -/
def bareFolder : FileTree := ⟨[(["projects"], .folder), (["projects", "demo"], .folder)]⟩

/-- The line of a missing file does not say how much it appended. -/
theorem missing_file_without_count :
    (match (Project.load {} bareFolder "demo").2 with
      | .error _ => []
      | .ok p => p.groups.map fun g => (GroupRun.runInto {} bareFolder p g {}).2.logs) =
        [["[behavior] SKIP main.rhai: not found"]] ∧
      ∀ c ∈ "[behavior] SKIP main.rhai: not found".toList, c.isDigit = false :=
  ⟨by decide +kernel, by simp⟩

end Dialogue
