import Dialogue.Machine
import Dialogue.Proofs.Occurrence
import Dialogue.Proofs.Process

/-!
# Performing a dialogue

What a list of actions means, and what a machine means, is what is performed when they are run.
Conditions and choices are answered by an oracle.

* A label of the list is passed in silence.  Every other action is performed.
* Where the condition of a guarded block holds, the block is performed up to and with its first
  jump, choice or finish, and the run goes where that leads; otherwise it goes on behind the block.
* A jump, and the option that is picked, lead to the label or to the state of that name.  A finish
  stops the run, and so does the end of the list.
* At the end of a body the last transition of the state says what is next.

`Oracle.onList` and `Oracle.onMachine` are the two runs, as processes.
-/

namespace Dialogue

/-- Answers to what is asked.  An answer may depend on everything that was performed up to the
question, so that no two questions of a run need to have the same answer. -/
structure Oracle where
  holds : List Action → Condition → Bool
  /-- the index of the option that is picked; a run ends where there is no such option -/
  picks : List Action → List ChoiceOption → Nat

/-- Where a run goes when an action has been performed. -/
inductive Move where
  | on
  | goto (name : String)
  | stop

/-- The position that a move leads to. -/
def Move.lead {σ : Type} (behind : σ) (enter? : String → Option σ) : Move → Option σ
  | on => some behind
  | goto name => enter? name
  | stop => none

namespace Oracle

/-- Where the action itself leads, once it has been performed as the last of `told`. -/
def exit (o : Oracle) (told : List Action) : Action → Move
  | .jump target => .goto target
  | .choice options =>
    match options[o.picks told options]? with
    | some option => .goto option.target
    | none => .stop
  | .finish => .stop
  | _ => .on

/-- Performs a block up to and with the first action that does not lead on. -/
def performBlock (o : Oracle) (told : List Action) : List Action → List Action × Move
  | [] => ([], .on)
  | a :: rest =>
    match o.exit (told ++ [a]) a with
    | .on =>
      let (more, move) := performBlock o (told ++ [a]) rest
      (a :: more, move)
    | move => ([a], move)

/-- Performs an action of a list or of a body. -/
def perform (o : Oracle) (told : List Action) : Action → List Action × Move
  | .label _ => ([], .on)
  | .conditional condition block =>
    let asked := told ++ [.conditional condition block]
    if o.holds asked condition then
      let (more, move) := performBlock o asked block
      (.conditional condition block :: more, move)
    else ([.conditional condition block], .on)
  | a => ([a], o.exit (told ++ [a]) a)

end Oracle

/-- The place of the label of that name in a list. -/
def labelAt? (xs : List Action) (name : String) : Option Nat :=
  xs.findIdx? fun a => a.label? == some name

/-- The beginning of the state of that name. -/
def Machine.enter? (m : Machine) (name : String) : Option (State × Nat) :=
  (m.state? name).map fun s => (s, 0)

/-- The run of a list.  A position is an index. -/
def Oracle.onList (o : Oracle) (xs : List Action) : Process Nat Action where
  start := some 0
  step told i :=
    match xs[i]? with
    | none => ([], none)
    | some a =>
      let (more, move) := o.perform told a
      (more, move.lead (i + 1) (labelAt? xs))

/-- The run of a machine.  A position is a state and an index in its body. -/
def Oracle.onMachine (o : Oracle) (m : Machine) : Process (State × Nat) Action where
  start := m.enter? m.initial
  step told
    | (s, i) =>
      match s.body[i]? with
      | none =>
        ([], match s.transitions.getLast? with
          | some (.fallthrough name) => m.enter? name
          | _ => none)
      | some a =>
        let (more, move) := o.perform told a
        (more, move.lead (s, i + 1) m.enter?)

namespace Oracle

variable {o : Oracle} {told : List Action}

/-! ### Where an action leads -/

theorem isTerminator_of_exit {a : Action} (h : o.exit told a = .on) : a.isTerminator = false := by
  cases a with
  | choice options =>
      simp only [exit] at h
      split at h <;> cases h
  | jump target => cases h
  | finish => cases h
  | _ => rfl

theorem exit_of_not_isTerminator {a : Action} (h : a.isTerminator = false) (told : List Action) :
    o.exit told a = .on := by
  cases a with
  | jump target => cases h
  | choice options => cases h
  | finish => cases h
  | _ => rfl

theorem ownTargets_of_exit {a : Action} {name : String} (h : o.exit told a = .goto name) :
    name ∈ a.ownTargets := by
  cases a with
  | choice options =>
      simp only [exit] at h
      split at h
      · next option e =>
          cases h
          exact List.mem_map.mpr ⟨option, List.mem_of_getElem? e, rfl⟩
      · cases h
  | jump target => cases h; simp [Action.ownTargets]
  | _ => cases h

/-- A block leads where one of its actions refers to. -/
theorem ownTargets_of_performBlock {block : List Action} {name : String} :
    ∀ {told : List Action}, (o.performBlock told block).2 = .goto name →
      ∃ a ∈ block, name ∈ a.ownTargets := by
  induction block with
  | nil => intro told h; cases h
  | cons a rest ih =>
      intro told h
      rw [performBlock] at h
      cases e : o.exit (told ++ [a]) a with
      | on =>
          rw [e] at h
          obtain ⟨b, hb, hn⟩ := ih h
          exact ⟨b, List.mem_cons_of_mem _ hb, hn⟩
      | goto target =>
          rw [e] at h
          cases h
          exact ⟨a, List.mem_cons_self, ownTargets_of_exit e⟩
      | stop => rw [e] at h; cases h

/-- A terminator does not lead on. -/
theorem isTerminator_of_perform {a : Action} (h : (o.perform told a).2 = .on) :
    a.isTerminator = false := by
  cases a with
  | choice options => exact isTerminator_of_exit (o := o) (a := .choice options) h
  | jump target => cases h
  | finish => cases h
  | _ => rfl

/-- An action leads where it refers to, itself or by what it holds. -/
theorem ownTargets_of_perform {a : Action} {name : String}
    (h : (o.perform told a).2 = .goto name) : ∃ b, Occurs b [a] ∧ name ∈ b.ownTargets := by
  cases a with
  | label n => cases h
  | conditional condition block =>
      simp only [perform] at h
      split at h
      · obtain ⟨b, hb, hn⟩ := ownTargets_of_performBlock h
        exact ⟨b, .inside (List.mem_singleton_self _) (.here hb), hn⟩
      · cases h
  | choice options => exact ⟨_, .here (List.mem_singleton_self _), ownTargets_of_exit (o := o) h⟩
  | jump target =>
      cases h
      exact ⟨_, .here (List.mem_singleton_self _), by simp [Action.ownTargets]⟩
  | _ => cases h

/-- Only a label is passed in silence. -/
theorem eq_label_of_silent {a : Action} (h : (o.perform told a).1 = []) :
    ∃ name, a = .label name := by
  cases a with
  | label name => exact ⟨name, rfl⟩
  | conditional condition block =>
      simp only [perform] at h
      split at h <;> cases h
  | _ => cases h

/-! ### Steps -/

theorem next_onList {xs : List Action} {i : Nat} {a : Action} (h : xs[i]? = some a) :
    (o.onList xs).next ⟨told, some i⟩ = ⟨told ++ (o.perform told a).1,
      (o.perform told a).2.lead (i + 1) (labelAt? xs)⟩ := by
  simp only [Process.next, onList, h]

theorem next_onList_of_end {xs : List Action} {i : Nat} (h : xs[i]? = none) :
    (o.onList xs).next ⟨told, some i⟩ = ⟨told, none⟩ := by
  simp only [Process.next, onList, h, List.append_nil]

theorem next_onMachine {m : Machine} {s : State} {i : Nat} {a : Action}
    (h : s.body[i]? = some a) :
    (o.onMachine m).next ⟨told, some (s, i)⟩ = ⟨told ++ (o.perform told a).1,
      (o.perform told a).2.lead (s, i + 1) m.enter?⟩ := by
  simp only [Process.next, onMachine, h]

theorem next_onMachine_of_fallthrough {m : Machine} {s : State} {i : Nat} {name : String}
    (h : s.body[i]? = none) (ht : s.transitions.getLast? = some (.fallthrough name)) :
    (o.onMachine m).next ⟨told, some (s, i)⟩ = ⟨told, m.enter? name⟩ := by
  simp only [Process.next, onMachine, h, ht, List.append_nil]

theorem next_onMachine_of_exhausted {m : Machine} {s : State} {i : Nat}
    (h : s.body[i]? = none) (ht : s.transitions.getLast? = some .exhausted) :
    (o.onMachine m).next ⟨told, some (s, i)⟩ = ⟨told, none⟩ := by
  simp only [Process.next, onMachine, h, ht, List.append_nil]

/-- **A run of a list never stands still for good.** -/
theorem exists_tells_onList (o : Oracle) (xs : List Action) (n : Nat) :
    ∃ out, (o.onList xs).Tells n out := by
  refine Process.exists_tells (fun i => xs.length - i) (fun told i j h => ?_) n
  simp only [onList] at h
  cases e : xs[i]? with
  | none => rw [e] at h; cases h
  | some a =>
      simp only [e, Prod.mk.injEq] at h
      obtain ⟨name, rfl⟩ := eq_label_of_silent h.1
      have hi := (List.getElem?_eq_some_iff.mp e).1
      cases h.2
      omega

end Oracle

end Dialogue
