import Dialogue.Proofs.Builder
import Dialogue.Proofs.Script.Recording

/-!
# Units run as a whole or not at all

A source unit that fails, or is passed over, leaves the builder as it is; any other appends what
its script recorded (`SourceUnit.runInto_all_or_nothing`).  That is what the statements outside of
functions record in one run from the beginning and, if the script has an entry point, behind it what
the entry point records in one run (`SourceUnit.Came`).  The entry point does not see what was
recorded before it, so its part is what it records on its own.

Whatever units ran before, and whatever the builder holds, a unit appends and tells the same
(`Job.runEach_eq`).
-/

namespace Dialogue

open Script (Program mainPart entryPart)

/-- The script has a function of that name that takes no arguments. -/
def Script.Program.Defines (p : Program) (name : String) : Prop :=
  ∃ f ∈ p.functions, f.name = name ∧ f.params = []

theorem Script.Program.function?_isSome_iff {p : Program} {name : String} :
    (p.function? name 0).isSome ↔ p.Defines name := by
  simp only [Program.function?, List.find?_isSome, Bool.and_eq_true, beq_iff_eq,
    List.length_eq_zero_iff, Program.Defines]

/-- Functions keep their names and parameters when a script is made simple. -/
theorem Script.Program.function?_simplified (p : Program) (name : String) (params : Nat) :
    p.simplified.function? name params = (p.function? name params).map (·.simplified) := by
  simp only [Program.function?, Program.simplified, List.find?_map]
  rfl

namespace SourceUnit

/-- How the script of a unit is executed. -/
def setting (options : ScriptOptions) (unit : UnitName) (program : Program) : Script.Setting where
  program := program.simplified
  unit := unit.text
  maxOperations := options.maxOperations.getD 0

/-- The file of a unit is there and holds a script. -/
structure Holds (tree : FileTree) (path : String) (program : Program) : Prop where
  exists_ : tree.pathExists path = true
  parsed : ∃ source, tree.readText path = .ok source ∧ Script.parse source = .ok program

/-- How a run of a unit comes out.  The statements outside of functions begin with nothing recorded,
and so does the entry point. -/
inductive Came (options : ScriptOptions) (tree : FileTree) (unit : UnitName) (path : String) :
    Except Failure UnitRun → Prop where
  | missing (h : tree.pathExists path = false) : Came options tree unit path (.ok ⟨.skipped, []⟩)
  | unreadable {fault : FileFault} (h : tree.pathExists path = true)
      (reads : tree.readText path = .error fault) :
      Came options tree unit path (.error (readFailure path fault))
  | malformed {source : String} {fault : Script.SyntaxFault} (h : tree.pathExists path = true)
      (reads : tree.readText path = .ok source) (parses : Script.parse source = .error fault) :
      Came options tree unit path (.error (syntaxFailure unit fault))
  | broken {program : Program} {fault : Script.Fault} {s : Script.State}
      (holds : Holds tree path program)
      (main : mainPart (setting options unit program) {} = .error fault s) :
      Came options tree unit path (.error (scriptFailure unit fault))
  | entryBroken {program : Program} {f : Script.Function} {fault : Script.Fault}
      {s t : Script.State} (holds : Holds tree path program)
      (main : mainPart (setting options unit program) {} = .ok () s)
      (defines : program.function? options.entryPoint 0 = some f)
      (entry : entryPart (setting options unit program) f.simplified { s with recorder := {} } =
        .error fault t) : Came options tree unit path (.error (scriptFailure unit fault))
  | noEntryPoint {program : Program} {s : Script.State} (holds : Holds tree path program)
      (main : mainPart (setting options unit program) {} = .ok () s)
      (lacks : ¬ program.Defines options.entryPoint) :
      Came options tree unit path (.ok ⟨.noEntryPoint, s.recorder.top⟩)
  | completed {program : Program} {f : Script.Function} {s t : Script.State}
      (holds : Holds tree path program)
      (main : mainPart (setting options unit program) {} = .ok () s)
      (defines : program.function? options.entryPoint 0 = some f)
      (entry : entryPart (setting options unit program) f.simplified { s with recorder := {} } =
        .ok () t) :
      Came options tree unit path (.ok ⟨.completed, s.recorder.top ++ t.recorder.top⟩)

variable {options : ScriptOptions} {tree : FileTree} {unit : UnitName} {path : String}

/-- How a unit comes out whose script is executed. -/
def ofExecuted (unit : UnitName) :
    List Event × Except Script.Fault Script.Execution → List Event × Except Failure UnitRun
  | (events, .error fault) => (events, .error (scriptFailure unit fault))
  | (events, .ok e) => (events ++ [executed unit e], .ok (ofExecution e))

/-- No unit is refused for a block that is left open. -/
theorem runSource_of_parse {program : Program} {source : String}
    (parses : Script.parse source = .ok program) :
    runSource options unit source =
      ofExecuted unit (Script.execute (setting options unit program) options.entryPoint) := by
  unfold runSource
  rw [parses]
  dsimp only
  rcases executes : Script.execute (setting options unit program) options.entryPoint with
    ⟨events, fault | e⟩
  · unfold setting at executes
    rw [executes]
    rfl
  · have closed : e.openBlocks = 0 := Script.openBlocks_execute executes
    unfold setting at executes
    rw [executes]
    dsimp only
    rw [if_pos closed]
    rfl

/-- An execution in terms of its two parts, each on its own. -/
theorem came_executed {program : Program} (holds : Holds tree path program) :
    Came options tree unit path (ofExecuted unit
      (Script.execute (setting options unit program) options.entryPoint)).2 := by
  have simplified : (setting options unit program).program.function? options.entryPoint 0 =
      (program.function? options.entryPoint 0).map (·.simplified) :=
    program.function?_simplified options.entryPoint 0
  unfold Script.execute
  rw [EStateM.run, Script.run_parts]
  cases main : mainPart (setting options unit program) {} with
  | error fault s => exact .broken holds main
  | ok _ s =>
      dsimp only
      rw [simplified]
      cases defines : program.function? options.entryPoint 0 with
      | none =>
          refine .noEntryPoint holds main fun has => ?_
          simpa [defines] using Program.function?_isSome_iff.mpr has
      | some f =>
          dsimp only [Option.map_some]
          -- the entry point does not see what the statements outside of functions recorded
          rw [(Script.writesOnly_entryPart _ f.simplified).run s]
          cases entry : entryPart (setting options unit program) f.simplified
              { s with recorder := {} } with
          | error fault t => exact .entryBroken holds main defines entry
          | ok _ t => exact .completed holds main defines entry

theorem came_run (options : ScriptOptions) (tree : FileTree) (unit : UnitName) (path : String) :
    Came options tree unit path (run options tree unit path).2 := by
  unfold run
  split
  · next exists_ =>
      cases reads : tree.readText path with
      | error fault => exact .unreadable exists_ reads
      | ok source =>
          dsimp only
          cases parses : Script.parse source with
          | error fault =>
              rw [runSource, parses]
              exact .malformed exists_ reads parses
          | ok program =>
              rw [runSource_of_parse parses]
              exact came_executed ⟨exists_, source, reads, parses⟩
  · next absent => exact .missing (Bool.eq_false_iff.mpr absent)

/-! ### Whatever ran before -/

theorem Holds.unique {p q : Program} (hp : Holds tree path p) (hq : Holds tree path q) : p = q := by
  obtain ⟨-, source, reads, parses⟩ := hp
  obtain ⟨-, source', reads', parses'⟩ := hq
  cases reads.symm.trans reads'
  cases parses.symm.trans parses'
  rfl

/-- A unit that has a source is completed if there is an entry point, and only then. -/
theorem Came.completed_iff {run : UnitRun} (h : Came options tree unit path (.ok run))
    (runs : run.outcome ≠ .skipped) :
    run.outcome = .completed ↔
      ∃ program, Holds tree path program ∧ program.Defines options.entryPoint := by
  cases h with
  | missing absent => exact absurd rfl runs
  | noEntryPoint holds main lacks =>
      refine ⟨nofun, fun ⟨q, holds', defines⟩ => ?_⟩
      cases holds.unique holds'
      exact absurd defines lacks
  | completed holds main defines entry =>
      refine ⟨fun _ => ⟨_, holds, Program.function?_isSome_iff.mp ?_⟩, fun _ => rfl⟩
      rw [defines]
      rfl

theorem Came.nothing_of_skipped {run : UnitRun} (h : Came options tree unit path (.ok run))
    (skipped : run.outcome = .skipped) : run.actions = [] := by
  cases h with
  | missing absent => rfl
  | noEntryPoint holds main lacks => cases skipped
  | completed holds main defines entry => cases skipped

end SourceUnit

/-- A unit to be run. -/
structure Job where
  options : ScriptOptions
  tree : FileTree
  unit : UnitName
  /-- where its source is -/
  path : String

namespace Job

def runInto (j : Job) (b : Builder) : Builder × List Event × Except Failure UnitReport :=
  SourceUnit.runInto j.options j.tree j.unit j.path b

/-- What the unit appends to any builder. -/
def appends (j : Job) : List Action := (j.runInto {}).1.actions

/-- What the unit tells. -/
def tells (j : Job) : List Event × Except Failure UnitReport := (j.runInto {}).2

theorem runInto_eq (j : Job) (b : Builder) : j.runInto b = (b.extend j.appends, j.tells) := by
  unfold appends tells runInto
  rcases ran : SourceUnit.run j.options j.tree j.unit j.path with ⟨events, f | run⟩
  · simp only [SourceUnit.runInto_of_error ran, b.extend_nil]
  · simp only [SourceUnit.runInto_of_ok ran]
    rfl

/-- Runs units one after the other, also if some of them fail. -/
def runEach : List Job → Builder → Builder × List (List Event × Except Failure UnitReport)
  | [], b => (b, [])
  | job :: rest, b =>
    let ran := job.runInto b
    let later := runEach rest ran.1
    (later.1, ran.2 :: later.2)

/-- **Units do not see each other**, nor what the builder held. -/
theorem runEach_eq (jobs : List Job) (b : Builder) :
    runEach jobs b = (b.extend (jobs.flatMap appends), jobs.map tells) := by
  induction jobs generalizing b with
  | nil => exact congrArg (·, []) b.extend_nil.symm
  | cons job rest ih =>
      rw [runEach, job.runInto_eq]
      dsimp only
      rw [ih, b.extend_append]
      rfl

end Job

/-! ### All or nothing -/

/-- **A unit is run as a whole or not at all.**  It appends the same and tells the same whatever the
builder holds and whatever units ran before.  If it fails or is passed over, that is nothing. -/
theorem SourceUnit.runInto_all_or_nothing (options : ScriptOptions) (tree : FileTree)
    (unit : UnitName) (path : String) :
    ∃ actions events result,
      Came options tree unit path
          (result.map fun report : UnitReport => ⟨report.outcome, actions⟩) ∧
        (∀ b, runInto options tree unit path b = (b.extend actions, events, result)) ∧
        (∀ before b, Job.runEach (before ++ [⟨options, tree, unit, path⟩]) b =
          ((Job.runEach before b).1.extend actions,
            (Job.runEach before b).2 ++ [(events, result)])) ∧
        (∀ failure, result = .error failure → ∀ b, (runInto options tree unit path b).1 = b) ∧
        ∀ report, result = .ok report →
          report.appended = actions.length ∧
            (report.outcome = .skipped → ∀ b, (runInto options tree unit path b).1 = b) ∧
            (report.outcome ≠ .skipped →
              (report.outcome = .completed ↔
                ∃ program, Holds tree path program ∧ program.Defines options.entryPoint)) := by
  have came := came_run options tree unit path
  have last (before : List Job) (job : Job) (b : Builder) : Job.runEach (before ++ [job]) b =
      ((Job.runEach before b).1.extend job.appends, (Job.runEach before b).2 ++ [job.tells]) := by
    simp [Job.runEach_eq, Builder.extend_append]
  rcases ran : run options tree unit path with ⟨events, f | run⟩
  · rw [ran] at came
    have into := runInto_of_error ran
    refine ⟨[], events, .error f, came, fun b => ?_, fun before b => ?_, fun _ _ b => ?_,
      nofun⟩
    · rw [into, b.extend_nil]
    · simp only [last, Job.appends, Job.tells, Job.runInto, into]
    · rw [into]
  · rw [ran] at came
    have into := runInto_of_ok ran
    refine ⟨run.actions, events, .ok ⟨run.outcome, run.actions.length⟩, came, into,
      fun before b => ?_, nofun, ?_⟩
    · simp only [last, Job.appends, Job.tells, Job.runInto, into]
      rfl
    · rintro _ ⟨⟩
      refine ⟨rfl, fun skipped b => ?_, came.completed_iff⟩
      rw [into, came.nothing_of_skipped skipped, b.extend_nil]

end Dialogue
