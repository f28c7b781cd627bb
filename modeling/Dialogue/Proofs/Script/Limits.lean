import Dialogue.Proofs.Script.Recording

/-!
# What a bound on operations changes

A bound makes no difference to code that stays within it, and all other code fails
(`Eval.Bounded`).  That holds of the small parts of the evaluator, of which only one counts
(`Eval.Bounded.tick`), and it passes to what is put together of them (`Eval.congruence_bounded`).

An execution begins to count anew with its entry point, so the bound holds for each of its parts on
its own (`execute_bounded`).
-/

namespace Dialogue.Script

variable {α β : Type}

namespace Eval

/-- What was counted stays counted. -/
def Counts (x : Eval α) : Prop := ∀ s, s.operations ≤ (ended (x s)).operations

theorem Counts.le_bind {x : Eval α} {f : α → Eval β} (h : ∀ a, Counts (f a)) (s : State) :
    (ended (x s)).operations ≤ (ended ((x >>= f) s)).operations := by
  cases run : x s with
  | ok a t =>
      rw [bind_of_ok run]
      exact h a t
  | error e t =>
      rw [bind_of_error run]
      exact Nat.le_refl _

theorem Counts.bind {x : Eval α} {f : α → Eval β} (hx : Counts x) (hf : ∀ a, Counts (f a)) :
    Counts (x >>= f) :=
  fun s => Nat.le_trans (hx s) (Counts.le_bind hf s)

theorem Counts.tried {x : Eval α} {f : Except Ending α → Eval β} (hx : Counts x)
    (hf : ∀ ending, Counts (f ending)) : Counts (attempt x >>= f) := by
  intro s
  rw [run_tried]
  exact Nat.le_trans (hx s) (hf _ _)

theorem operations_guarded (condition : Condition) (body : Eval Unit) (s : State) :
    (ended (guarded condition body s)).operations =
      (ended (body { s with recorder := s.recorder.openBlock })).operations := by
  rw [run_guarded]
  cases body { s with recorder := s.recorder.openBlock } <;> rfl

/-- How a run comes out, and the same run without a bound: either both stay within the bound, and
are the same, or both go beyond it, and the first fails. -/
inductive Kept {ε α : Type} (failed : EStateM.Result ε State α → Prop) (bound : Nat) :
    EStateM.Result ε State α → EStateM.Result ε State α → Prop where
  | within {r : EStateM.Result ε State α} (h : (ended r).operations ≤ bound) :
      Kept failed bound r r
  | beyond {r r' : EStateM.Result ε State α} (h : failed r)
      (here : bound < (ended r).operations) (there : bound < (ended r').operations) :
      Kept failed bound r r'

/-- The bound makes no difference to a run that stays within it, and any other fails. -/
structure Bounded (bound : Nat) (x x' : Eval α) : Prop where
  counts : Counts x
  counts' : Counts x'
  kept : ∀ s, s.operations ≤ bound → Kept Failed bound (x s) (x' s)

namespace Bounded

variable {bound : Nat} {x x' : Eval α}

/-- Code that counts no operations. -/
theorem of_still (h : ∀ s, (ended (x s)).operations = s.operations) : Bounded bound x x where
  counts s := Nat.le_of_eq (h s).symm
  counts' s := Nat.le_of_eq (h s).symm
  kept s within := .within ((h s).symm ▸ within)

theorem bind {f f' : α → Eval β} (hx : Bounded bound x x') (hf : ∀ a, Bounded bound (f a) (f' a)) :
    Bounded bound (x >>= f) (x' >>= f') where
  counts := hx.counts.bind fun a => (hf a).counts
  counts' := hx.counts'.bind fun a => (hf a).counts'
  kept s within := by
    have further := Counts.le_bind (x := x) (fun a => (hf a).counts) s
    have further' := Counts.le_bind (x := x') (fun a => (hf a).counts') s
    have kept := hx.kept s within
    generalize run : x s = r, run' : x' s = r' at kept further further'
    cases kept with
    | within h =>
        cases r with
        | ok a t =>
            rw [bind_of_ok run, bind_of_ok run']
            exact (hf a).kept t h
        | error e t =>
            rw [bind_of_error run, bind_of_error run']
            exact .within h
    | beyond failed here there =>
        -- the bounded run ends here, the other may go on
        exact .beyond ((run ▸ failed).bind f) (Nat.lt_of_lt_of_le here further)
          (Nat.lt_of_lt_of_le there further')

theorem tried {g : Setting} (limits : g.maxOperations ≠ 0) {x x' : Eval α}
    {f f' : Except Ending α → Eval β} (hx : Bounded g.maxOperations x x')
    (hf : ∀ ending, Bounded g.maxOperations (f ending) (f' ending)) (passes : Passes g f) :
    Bounded g.maxOperations (attempt x >>= f) (attempt x' >>= f') where
  counts := hx.counts.tried fun ending => (hf ending).counts
  counts' := hx.counts'.tried fun ending => (hf ending).counts'
  kept s within := by
    have kept := hx.kept s within
    rw [run_tried, run_tried]
    generalize x s = r, x' s = r' at kept
    cases kept with
    | within h => exact (hf _).kept _ h
    | beyond failed here there =>
        -- the failure is caught, and what follows runs with too many operations counted
        refine .beyond ?_ (Nat.lt_of_lt_of_le here ((hf _).counts _))
          (Nat.lt_of_lt_of_le there ((hf _).counts' _))
        cases failed with
        | error fails => exact passes _ _ fails ⟨limits, here⟩

theorem guarded (condition : Condition) {body body' : Eval Unit} (h : Bounded bound body body') :
    Bounded bound (guarded condition body) (guarded condition body') where
  counts s := by
    rw [operations_guarded]
    exact h.counts { s with recorder := s.recorder.openBlock }
  counts' s := by
    rw [operations_guarded]
    exact h.counts' { s with recorder := s.recorder.openBlock }
  kept s within := by
    have kept := h.kept { s with recorder := s.recorder.openBlock } within
    have here := operations_guarded condition body s
    have there := operations_guarded condition body' s
    rw [run_guarded] at here there
    rw [run_guarded, run_guarded]
    generalize body { s with recorder := s.recorder.openBlock } = r,
      body' { s with recorder := s.recorder.openBlock } = r' at kept here there ⊢
    cases kept with
    | within h => exact .within (here ▸ h)
    | beyond failed beyond beyond' =>
        refine .beyond ?_ (here ▸ beyond) (there ▸ beyond')
        cases failed with
        | error fails => exact .error fails

theorem tick {g g' : Setting} (limits : g.maxOperations ≠ 0) (free : g'.maxOperations = 0) :
    Bounded g.maxOperations (tick g) (tick g') := by
  have counted (g : Setting) (s : State) :
      (ended (Eval.tick g s)).operations = s.operations + 1 := by
    rw [run_tick]
    split <;> rfl
  refine ⟨fun s => ?_, fun s => ?_, fun s within => ?_⟩
  · rw [counted]
    exact Nat.le_succ _
  · rw [counted]
    exact Nat.le_succ _
  · by_cases beyond : g.maxOperations < s.operations + 1
    · refine .beyond ?_ ((counted g s).symm ▸ beyond) ((counted g' s).symm ▸ beyond)
      rw [run_tick, if_pos ⟨limits, beyond⟩]
      exact .error (.fault _)
    · have same : Eval.tick g s = Eval.tick g' s := by
        rw [run_tick, run_tick, if_neg (fun h => beyond h.2), if_neg (fun h => h.1 free)]
      rw [same]
      exact .within ((counted g' s).symm ▸ Nat.not_lt.mp beyond)

end Bounded

/-- **The bound makes no difference to code that stays within it**, and all other code fails. -/
theorem congruence_bounded {g g' : Setting} (program : g'.program = g.program)
    (unit : g'.unit = g.unit) (limits : g.maxOperations ≠ 0) (free : g'.maxOperations = 0) :
    Congruence g g' fun {_} => Bounded g.maxOperations where
  program := program
  unit := unit
  pure _ := .of_still fun _ => rfl
  throw _ := .of_still fun _ => rfl
  bind := .bind
  tried := .tried limits
  tick := .tick limits free
  tell _ := .of_still fun _ => rfl
  allocate _ := .of_still fun _ => rfl
  cellAt _ := .of_still fun _ => rfl
  changeCell _ _ := .of_still fun _ => rfl
  outermost := .of_still fun _ => rfl
  declare _ := .of_still fun _ => rfl
  record _ := .of_still fun _ => rfl
  guarded := .guarded

end Eval

/-! ### Executions -/

open Eval (ended Kept Bounded)

/-- A part of an execution ends with a fault. -/
def Broken {α : Type} (r : EStateM.Result Fault State α) : Prop := ∃ fault s, r = .error fault s

theorem operations_part (x : Eval α) (s : State) :
    (ended (part x s)).operations = (ended (x { s with operations := 0 })).operations := by
  unfold part
  cases x { s with operations := 0 } with
  | ok a t => rfl
  | error e t => cases e <;> rfl

/-- The bound holds for each part on its own, which begins to count anew. -/
theorem kept_part {bound : Nat} {x x' : Eval α} (h : Bounded bound x x') (s : State) :
    Kept Broken bound (part x s) (part x' s) := by
  have kept := h.kept { s with operations := 0 } (Nat.zero_le bound)
  have here := operations_part x s
  have there := operations_part x' s
  unfold part at here there ⊢
  generalize x { s with operations := 0 } = r, x' { s with operations := 0 } = r'
    at kept here there ⊢
  cases kept with
  | within h => exact .within (here ▸ h)
  | beyond failed beyond beyond' =>
      refine .beyond ?_ (here ▸ beyond) (there ▸ beyond')
      cases failed with
      | error fails =>
          cases fails with
          | fault f => exact ⟨_, _, rfl⟩
          | starved => exact ⟨_, _, rfl⟩

section

variable {g g' : Setting} (program : g'.program = g.program) (unit : g'.unit = g.unit)
  (limits : g.maxOperations ≠ 0) (free : g'.maxOperations = 0)

include program unit limits free

theorem kept_mainPart (s : State) :
    Kept Broken g.maxOperations (mainPart g s) (mainPart g' s) := by
  unfold mainPart
  rw [program]
  exact kept_part ((Eval.congruence_bounded program unit limits free).main fuel _) s

theorem kept_entryPart (f : Function) (s : State) :
    Kept Broken g.maxOperations (entryPart g f s) (entryPart g' f s) := by
  have kept := kept_part (((Eval.congruence_bounded program unit limits free).below fuel).stmt
    { environment := s.outermost } f.body) s
  rw [run_entryPart, run_entryPart]
  generalize part (Eval.stmt g fuel { environment := s.outermost } f.body) s = r,
    part (Eval.stmt g' fuel { environment := s.outermost } f.body) s = r' at kept
  cases kept with
  | within h =>
      cases r with
      | ok _ t => exact .within h
      | error fault t => exact .within h
  | beyond h here there =>
      obtain ⟨fault, t, rfl⟩ := h
      cases r' with
      | ok _ t' => exact .beyond ⟨_, _, rfl⟩ here there
      | error fault' t' => exact .beyond ⟨_, _, rfl⟩ here there

end

/-- How many operations an execution counts outside of functions and in the entry point, as far as
it comes. -/
def counted (g : Setting) (entryPoint : String) : Nat × Nat :=
  match mainPart g {} with
  | .error _ s => (s.operations, 0)
  | .ok _ s =>
    match g.program.function? entryPoint 0 with
    | none => (s.operations, 0)
    | some f => (s.operations, (ended (entryPart g f s)).operations)

theorem counted_of_ok {g : Setting} {entryPoint : String} {events : List Event} {e : Execution}
    (h : execute g entryPoint = (events, .ok e)) :
    counted g entryPoint = (e.mainOperations, e.entryOperations) := by
  obtain ⟨s, main, ⟨lacks, rfl⟩ | ⟨f, t, defines, entry, rfl⟩⟩ := execute_eq_ok h
  · simp only [counted, main, lacks]
  · simp only [counted, main, defines, entry, ended]

/-- **An execution compared with the same without a bound**: if neither part goes beyond the bound
it is the same execution, and if one does it fails. -/
theorem execute_bounded (g g' : Setting) (program : g'.program = g.program)
    (unit : g'.unit = g.unit) (limits : g.maxOperations ≠ 0) (free : g'.maxOperations = 0)
    (entryPoint : String) :
    (counted g' entryPoint).1 ≤ g.maxOperations ∧ (counted g' entryPoint).2 ≤ g.maxOperations ∧
        counted g entryPoint = counted g' entryPoint ∧
        execute g entryPoint = execute g' entryPoint ∨
      (g.maxOperations < (counted g' entryPoint).1 ∨
          g.maxOperations < (counted g' entryPoint).2) ∧
        ∃ events fault, execute g entryPoint = (events, .error fault) := by
  have main := kept_mainPart program unit limits free {}
  unfold execute counted
  rw [EStateM.run, EStateM.run, run_parts, run_parts, program]
  generalize mainPart g {} = r, mainPart g' {} = r' at main
  cases main with
  | within h =>
      cases r with
      | error fault t => exact Or.inl ⟨h, Nat.zero_le _, rfl, rfl⟩
      | ok _ t =>
          cases defines : g.program.function? entryPoint 0 with
          | none => exact Or.inl ⟨h, Nat.zero_le _, rfl, rfl⟩
          | some f =>
              have entry := kept_entryPart program unit limits free f t
              dsimp only
              generalize entryPart g f t = r, entryPart g' f t = r' at entry
              cases entry with
              | within h' => exact Or.inl ⟨h, h', rfl, rfl⟩
              | beyond h' here there =>
                  obtain ⟨fault, u, rfl⟩ := h'
                  exact Or.inr ⟨Or.inr there, _, _, rfl⟩
  | beyond h here there =>
      obtain ⟨fault, t, rfl⟩ := h
      refine Or.inr ⟨Or.inl ?_, _, _, rfl⟩
      cases r' with
      | error fault' t' => exact there
      | ok _ t' =>
          cases g.program.function? entryPoint 0 with
          | none => exact there
          | some f => exact there

end Dialogue.Script
