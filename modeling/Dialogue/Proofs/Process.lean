import Mathlib.Data.Option.Defs
import Mathlib.Logic.Function.Iterate
import Mathlib.Order.Basic

/-!
# Processes and their runs

A process stands at a position until it stops.  A step from a position tells something, or
nothing, and leads on; it may depend on all that was told before.

What a run tells first is settled by the process (`Tells.unique`), and there is always an answer
where silent steps bring a process nearer to a step that tells something (`exists_tells`).

**Simulation** (`Simulation.tells_iff`, `Simulation.stops_iff`).  Let each step of `p` be made by
some steps of `q`, or by none.  Then `q` tells what `p` tells and stops where `p` stops; and since
`p` never stands still for good, `q` tells nothing else and stops nowhere else.
-/

namespace Dialogue

structure Process (σ α : Type) where
  start : Option σ
  /-- what a step adds to what was told, and where it leads -/
  step : List α → σ → List α × Option σ

/-- What was told so far, and where the run stands unless it has stopped. -/
structure Moment (σ α : Type) where
  told : List α
  at? : Option σ

namespace Process

variable {σ τ α : Type} {p : Process σ α} {q : Process τ α}

def next (p : Process σ α) (m : Moment σ α) : Moment σ α :=
  match m.at? with
  | none => m
  | some s => ⟨m.told ++ (p.step m.told s).1, (p.step m.told s).2⟩

/-- The run after `k` steps. -/
def moment (p : Process σ α) (k : Nat) : Moment σ α := p.next^[k] ⟨[], p.start⟩

/-- The first `n` that the run tells are `out`; there are fewer only if it stops. -/
def Tells (p : Process σ α) (n : Nat) (out : List α) : Prop :=
  ∃ k, (n ≤ (p.moment k).told.length ∨ (p.moment k).at? = none) ∧ (p.moment k).told.take n = out

def Stops (p : Process σ α) : Prop := ∃ k, (p.moment k).at? = none

/-! ### What a run tells -/

theorem next_of_stopped {m : Moment σ α} (h : m.at? = none) : p.next m = m := by
  unfold next
  rw [h]

theorem told_prefix_next (m : Moment σ α) : m.told <+: (p.next m).told := by
  unfold next
  split
  · exact List.prefix_rfl
  · exact List.prefix_append _ _

theorem moment_add (k l : Nat) : p.moment (k + l) = p.next^[l] (p.moment k) := by
  rw [moment, Nat.add_comm, Function.iterate_add_apply, moment]

theorem told_prefix (m : Moment σ α) (l : Nat) : m.told <+: (p.next^[l] m).told := by
  induction l with
  | zero => exact List.prefix_rfl
  | succ l ih =>
      rw [Function.iterate_succ_apply']
      exact ih.trans (told_prefix_next _)

theorem iterate_of_stopped {m : Moment σ α} (h : m.at? = none) (l : Nat) : p.next^[l] m = m := by
  induction l with
  | zero => rfl
  | succ l ih => rw [Function.iterate_succ_apply', ih, next_of_stopped h]

/-- Once enough is told, more steps tell the same first `n`. -/
theorem take_told_add {n k : Nat}
    (h : n ≤ (p.moment k).told.length ∨ (p.moment k).at? = none) (l : Nat) :
    (p.moment (k + l)).told.take n = (p.moment k).told.take n := by
  rw [moment_add]
  rcases h with h | h
  · obtain ⟨more, e⟩ := told_prefix (p := p) (p.moment k) l
    rw [← e, List.take_append_of_le_length h]
  · rw [iterate_of_stopped h]

theorem Tells.unique {n : Nat} {out out' : List α} (h : p.Tells n out) (h' : p.Tells n out') :
    out = out' := by
  obtain ⟨k, hk, rfl⟩ := h
  obtain ⟨l, hl, rfl⟩ := h'
  rw [← take_told_add hk l, ← take_told_add hl k, Nat.add_comm]

/-- A run that has stopped has told all it tells. -/
theorem tells_of_stopped {k : Nat} (h : (p.moment k).at? = none) (n : Nat) :
    p.Tells n ((p.moment k).told.take n) :=
  ⟨k, Or.inr h, rfl⟩

/-- Where silent steps lower a rank, a run tells something more or stops. -/
theorem exists_longer (rank : σ → Nat)
    (h : ∀ told s s', p.step told s = ([], some s') → rank s' < rank s) (told : List α) (s : σ) :
    ∃ k, told.length < (p.next^[k] ⟨told, some s⟩).told.length ∨
      (p.next^[k] ⟨told, some s⟩).at? = none := by
  induction e : rank s using Nat.strongRecOn generalizing s with
  | ind r ih =>
      subst e
      rcases hs : p.step told s with ⟨more, s'⟩
      have first : p.next ⟨told, some s⟩ = ⟨told ++ more, s'⟩ := by simp [next, hs]
      cases s' with
      | none => exact ⟨1, Or.inr (by rw [Function.iterate_one, first])⟩
      | some s' =>
          cases more with
          | cons a more => exact ⟨1, Or.inl (by rw [Function.iterate_one, first]; simp)⟩
          | nil =>
              obtain ⟨k, hk⟩ := ih _ (h told s s' hs) s' rfl
              refine ⟨k + 1, ?_⟩
              rwa [Function.iterate_succ_apply, first, List.append_nil]

/-- **There is always an answer** to what a run tells first. -/
theorem exists_tells (rank : σ → Nat)
    (h : ∀ told s s', p.step told s = ([], some s') → rank s' < rank s) (n : Nat) :
    ∃ out, p.Tells n out := by
  have enough : ∃ k, n ≤ (p.moment k).told.length ∨ (p.moment k).at? = none := by
    induction n with
    | zero => exact ⟨0, Or.inl (Nat.zero_le _)⟩
    | succ n ih =>
        obtain ⟨k, hk | hk⟩ := ih
        · cases hs : (p.moment k).at? with
          | none => exact ⟨k, Or.inr hs⟩
          | some s =>
              obtain ⟨l, hl⟩ := exists_longer rank h (p.moment k).told s
              have here : (⟨(p.moment k).told, some s⟩ : Moment σ α) = p.moment k := by rw [← hs]
              rw [here, ← moment_add] at hl
              refine ⟨k + l, hl.imp_left fun hl => ?_⟩
              exact Nat.succ_le_of_lt (Nat.lt_of_le_of_lt hk hl)
        · exact ⟨k, Or.inr hk⟩
  obtain ⟨k, hk⟩ := enough
  exact ⟨_, k, hk, rfl⟩

/-! ### Simulation -/

/-- The same was told, and the runs stand at positions that stand for each other, or have both
stopped. -/
def Agree (R : σ → τ → Prop) (m : Moment σ α) (m' : Moment τ α) : Prop :=
  m.told = m'.told ∧ Option.Rel R m.at? m'.at?

structure Simulation (p : Process σ α) (q : Process τ α) (R : σ → τ → Prop) : Prop where
  start : Option.Rel R p.start q.start
  step : ∀ (told : List α) (s : σ) (t : τ), R s t →
    ∃ k, Agree R (p.next ⟨told, some s⟩) (q.next^[k] ⟨told, some t⟩)

namespace Simulation

variable {R : σ → τ → Prop}

/-- **A run, followed.** -/
theorem follow (h : Simulation p q R) (k : Nat) : ∃ l, Agree R (p.moment k) (q.moment l) := by
  induction k with
  | zero => exact ⟨0, rfl, h.start⟩
  | succ k ih =>
      obtain ⟨l, told, at?⟩ := ih
      rw [moment_add, Function.iterate_one]
      rcases hp : p.moment k with ⟨out, s⟩
      rcases hq : q.moment l with ⟨out', t⟩
      rw [hp, hq] at told at?
      cases told
      cases at? with
      | none => exact ⟨l, by rw [next_of_stopped rfl, hq]; exact ⟨rfl, .none⟩⟩
      | some hR =>
          obtain ⟨j, hj⟩ := h.step out _ _ hR
          exact ⟨l + j, by rwa [moment_add, hq]⟩

theorem tells (h : Simulation p q R) {n : Nat} {out : List α} (ht : p.Tells n out) :
    q.Tells n out := by
  obtain ⟨k, hk, rfl⟩ := ht
  obtain ⟨l, told, at?⟩ := h.follow k
  refine ⟨l, ?_, by rw [told]⟩
  rw [← told]
  refine hk.imp_right fun hs => ?_
  rw [hs] at at?
  cases e : (q.moment l).at? with
  | none => rfl
  | some t => rw [e] at at?; cases at?

theorem stops (h : Simulation p q R) (hs : p.Stops) : q.Stops := by
  obtain ⟨k, hk⟩ := hs
  obtain ⟨l, -, at?⟩ := h.follow k
  rw [hk] at at?
  refine ⟨l, ?_⟩
  cases e : (q.moment l).at? with
  | none => rfl
  | some t => rw [e] at at?; cases at?

/-- **Both tell the same**, if the one that is followed always has an answer. -/
theorem tells_iff (h : Simulation p q R) (total : ∀ n, ∃ out, p.Tells n out) {n : Nat}
    {out : List α} : p.Tells n out ↔ q.Tells n out := by
  refine ⟨h.tells, fun hq => ?_⟩
  obtain ⟨out', hp⟩ := total n
  rwa [← (h.tells hp).unique hq]

/-- **Both stop, or neither does.** -/
theorem stops_iff (h : Simulation p q R) (total : ∀ n, ∃ out, p.Tells n out) :
    p.Stops ↔ q.Stops := by
  refine ⟨h.stops, fun ⟨k, hk⟩ => ?_⟩
  -- `q` never tells more than this, so a run of `p` that was to tell more has stopped
  obtain ⟨out, l, hl, e⟩ := total ((q.moment k).told.length + 1)
  refine hl.elim (fun hl => ?_) fun hl => ⟨l, hl⟩
  have same := (h.tells ⟨l, Or.inl hl, e⟩).unique (tells_of_stopped hk _)
  have short : out.length ≤ (q.moment k).told.length := by
    rw [same]
    exact List.length_take_le' _ _
  rw [← e, List.length_take, Nat.min_eq_left hl] at short
  exact absurd short (Nat.not_succ_le_self _)

end Simulation

end Process

end Dialogue
