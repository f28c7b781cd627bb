import Dialogue.Proofs.Atomicity
import Dialogue.Proofs.Script.Limits
import Dialogue.Proofs.Walks

/-!
# The bound on operations

The operations of a script can be bounded.  **The bound is one for each part of a script**, not for
the unit (`SourceUnit.runInto_bounded`).  The statements outside of functions begin to count at
nothing, and so does the entry point.  If neither of them needs more operations than the bound, the
unit is run as if there were none, also if both together need more
(`SourceUnit.halves_beyond_bound`).  Otherwise the unit fails, and appends nothing.
-/

namespace Dialogue

/-- The same options without a bound. -/
def ScriptOptions.unbounded (o : ScriptOptions) : ScriptOptions := { o with maxOperations := none }

@[simp] theorem ScriptOptions.entryPoint_unbounded (o : ScriptOptions) :
    o.unbounded.entryPoint = o.entryPoint := rfl

namespace SourceUnit

open Script (Program)

/-- The script of a unit, if its file is there and holds one. -/
def program? (tree : FileTree) (path : String) : Option Program :=
  if tree.pathExists path then
    (tree.readText path).toOption.bind fun source => (Script.parse source).toOption
  else none

/-- How many operations the script of a unit counts outside of functions and in the entry point, as
far as it comes. -/
def counted (options : ScriptOptions) (tree : FileTree) (unit : UnitName) (path : String) :
    Nat × Nat :=
  match program? tree path with
  | none => (0, 0)
  | some program => Script.counted (setting options unit program) options.entryPoint

variable {options : ScriptOptions} {tree : FileTree} {unit : UnitName} {path : String}

theorem program?_eq_some_iff {program : Program} :
    program? tree path = some program ↔ Holds tree path program := by
  unfold program?
  constructor
  · intro h
    split at h
    · next exists_ =>
        obtain ⟨source, reads, parses⟩ := Option.bind_eq_some_iff.mp h
        exact ⟨exists_, source, toOption_eq_some_iff.mp reads, toOption_eq_some_iff.mp parses⟩
    · cases h
  · rintro ⟨exists_, source, reads, parses⟩
    rw [if_pos exists_, reads]
    exact toOption_eq_some_iff.mpr parses

/-- A unit without a script is run without counting operations. -/
theorem run_of_no_program (h : program? tree path = none) (options : ScriptOptions)
    (unit : UnitName) : run options tree unit path = run options.unbounded tree unit path := by
  unfold run
  split
  · next exists_ =>
      cases reads : tree.readText path with
      | error fault => rfl
      | ok source =>
          cases parses : Script.parse source with
          | error fault =>
              dsimp only
              rw [runSource, runSource, parses]
          | ok program =>
              rw [program?_eq_some_iff.mpr ⟨exists_, source, reads, parses⟩] at h
              cases h
  · rfl

theorem run_of_holds {program : Program} (h : Holds tree path program)
    (options : ScriptOptions) (unit : UnitName) : run options tree unit path =
      ofExecuted unit (Script.execute (setting options unit program) options.entryPoint) := by
  obtain ⟨exists_, source, reads, parses⟩ := h
  rw [run, if_pos exists_, reads]
  exact runSource_of_parse parses

theorem counted_of_holds {program : Program} (h : Holds tree path program)
    (options : ScriptOptions) (unit : UnitName) : counted options tree unit path =
      Script.counted (setting options unit program) options.entryPoint := by
  rw [counted, program?_eq_some_iff.mpr h]

/-- If a unit is run to its end, so is its script. -/
theorem execute_of_run_ok {program : Program} (h : Holds tree path program)
    {events : List Event} {r : UnitRun} (ok : run options tree unit path = (events, .ok r)) :
    ∃ told e, Script.execute (setting options unit program) options.entryPoint = (told, .ok e) := by
  rw [run_of_holds h] at ok
  rcases executes : Script.execute (setting options unit program) options.entryPoint with
    ⟨told, fault | e⟩
  · rw [executes] at ok
    cases ok
  · exact ⟨told, e, rfl⟩

/-- A unit compared with itself without a bound. -/
theorem run_bounded (options : ScriptOptions) (tree : FileTree) (unit : UnitName) (path : String)
    {limit : Nat} (limits : options.maxOperations = some limit) (positive : 0 < limit)
    (needs : Nat × Nat) (needed : counted options.unbounded tree unit path = needs) :
    needs.1 ≤ limit ∧ needs.2 ≤ limit ∧ counted options tree unit path = needs ∧
        run options tree unit path = run options.unbounded tree unit path ∨
      (limit < needs.1 ∨ limit < needs.2) ∧ ∃ events fault,
        run options tree unit path = (events, .error (scriptFailure unit fault)) := by
  cases holds : program? tree path with
  | none =>
      have nothing (options : ScriptOptions) : counted options tree unit path = (0, 0) := by
        rw [counted, holds]
      rw [nothing] at needed
      cases needed
      exact Or.inl ⟨Nat.zero_le _, Nat.zero_le _, nothing options, run_of_no_program holds _ _⟩
  | some program =>
      have h := program?_eq_some_iff.mp holds
      have bound : (setting options unit program).maxOperations = limit := by
        rw [setting, limits, Option.getD_some]
      have compared := Script.execute_bounded (setting options unit program)
        (setting options.unbounded unit program) rfl rfl
        (bound.trans_ne (Nat.ne_of_gt positive)) rfl options.entryPoint
      rw [counted_of_holds h, ScriptOptions.entryPoint_unbounded] at needed
      rw [counted_of_holds h, run_of_holds h, run_of_holds h]
      rw [bound, needed] at compared
      rcases compared with ⟨main, entry, same, alike⟩ | ⟨beyond, events, fault, failed⟩
      · exact Or.inl ⟨main, entry, same, congrArg (ofExecuted unit) alike⟩
      · refine Or.inr ⟨beyond, events, fault, ?_⟩
        rw [failed]
        rfl

/-- **The bound on operations holds for each part of a script on its own.**  A unit that is run to
its end has stayed within the bound with each of them.  A unit of which each part stays within the
bound is run as if there were none, and any other fails and appends nothing. -/
theorem runInto_bounded (options : ScriptOptions) (tree : FileTree) (unit : UnitName)
    (path : String) {limit : Nat} (limits : options.maxOperations = some limit)
    (positive : 0 < limit) :
    let needs := counted options.unbounded tree unit path
    (∀ b report, (runInto options tree unit path b).2.2 = .ok report →
        needs.1 ≤ limit ∧ needs.2 ≤ limit ∧ ∀ program, Holds tree path program →
          ∃ events e,
            Script.execute (setting options unit program) options.entryPoint = (events, .ok e) ∧
              needs = (e.mainOperations, e.entryOperations)) ∧
      (needs.1 ≤ limit → needs.2 ≤ limit →
        ∀ b, runInto options tree unit path b = runInto options.unbounded tree unit path b) ∧
      (limit < needs.1 ∨ limit < needs.2 → ∃ events fault, ∀ b,
        runInto options tree unit path b = (b, events, .error (scriptFailure unit fault))) := by
  intro needs
  rcases run_bounded options tree unit path limits positive needs rfl with
    ⟨main, entry, same, alike⟩ | ⟨beyond, events, fault, failed⟩
  · refine ⟨fun b report ok => ⟨main, entry, fun program h => ?_⟩, fun _ _ b => ?_,
      fun beyond => ?_⟩
    · rcases ran : run options tree unit path with ⟨events, f | r⟩
      · rw [runInto_of_error ran] at ok
        cases ok
      · obtain ⟨told, e, executes⟩ := execute_of_run_ok h ran
        rw [counted_of_holds h, Script.counted_of_ok executes] at same
        exact ⟨told, e, executes, same.symm⟩
    · rw [runInto, runInto, alike]
    · omega
  · have into := runInto_of_error failed
    refine ⟨fun b report ok => ?_, fun main entry => ?_, fun _ => ⟨events, fault, into⟩⟩
    · rw [into] at ok
      cases ok
    · omega

/-- A unit that does as much outside of functions as in its entry point. -/
def halves : FileTree := ⟨[(["main.rhai"], .file (.text "label(\"a\"); fn story() { finish(); }"))]⟩

def halvesUnit : UnitName := ⟨"demo", "behavior", "main.rhai"⟩

theorem runInto_bounded_halves :
    (0 < 3 ∧ ∀ b, runInto { maxOperations := some 3 } halves halvesUnit "main.rhai" b =
        runInto {} halves halvesUnit "main.rhai" b) ∧
      0 < 2 ∧ ∃ events fault, ∀ b,
        runInto { maxOperations := some 2 } halves halvesUnit "main.rhai" b =
          (b, events, .error (scriptFailure halvesUnit fault)) := by
  have needs (limit : Nat) : counted (ScriptOptions.unbounded { maxOperations := some limit })
      halves halvesUnit "main.rhai" = (3, 3) := by
    change counted {} halves halvesUnit "main.rhai" = (3, 3)
    decide +kernel
  have three :=
    runInto_bounded { maxOperations := some 3 } halves halvesUnit "main.rhai" rfl (by decide)
  have two :=
    runInto_bounded { maxOperations := some 2 } halves halvesUnit "main.rhai" rfl (by decide)
  refine ⟨⟨by decide, three.2.1 ?_ ?_⟩, by decide, two.2.2 (Or.inl ?_)⟩
  · exact Nat.le_of_eq (congrArg Prod.fst (needs 3))
  · exact Nat.le_of_eq (congrArg Prod.snd (needs 3))
  · rw [needs 2]
    decide

/-- Both parts together carry out more operations than the bound. -/
theorem halves_beyond_bound :
    (∃ report, (runInto { maxOperations := some 3 } halves halvesUnit "main.rhai" {}).2.2 =
        .ok report ∧ report.appended = 2) ∧
      3 < (counted { maxOperations := some 3 } halves halvesUnit "main.rhai").1 +
        (counted { maxOperations := some 3 } halves halvesUnit "main.rhai").2 := by
  have ran : (runInto { maxOperations := some 3 } halves halvesUnit "main.rhai" {}).2.2.toOption.map
      (·.appended) = some 2 := by
    decide +kernel
  obtain ⟨report, ok, appended⟩ := Option.map_eq_some_iff.mp ran
  exact ⟨⟨report, toOption_eq_some_iff.mp ok, appended⟩, by decide +kernel⟩

end SourceUnit

end Dialogue
