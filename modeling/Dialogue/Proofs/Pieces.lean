import Dialogue.Proofs.Closed
import Mathlib.Algebra.BigOperators.Group.List.Basic
import Mathlib.Algebra.GroupWithZero.Nat

/-!
# Every action accounted for

A machine holds a list of actions in pieces, one for each state: the label of the state, what the
state performs, and what stands behind that and is never reached.  The pieces in order are the list
(`Accounted.whole`), so nothing is lost, doubled or moved, and a piece has dead actions only behind
a terminator (`Piece.Sound`).

There is one warning for each piece with dead actions, and none besides.  Labels, bodies and the
counts of the warnings add up to the length of the list (`Accounted.length`).
-/

namespace Dialogue

/-- A state of a machine, with the actions behind its body that are never reached. -/
structure Piece where
  state : State
  dead : List Action

/-- What a warning tells of a state. -/
structure Unreached where
  state : String
  count : Nat
  /-- the kind of action that is not passed -/
  kind : String

def Unreached.text (u : Unreached) : String :=
  s!"state \"{u.state}\": {u.count} unreachable action(s) after {u.kind} ignored"

namespace Piece

/-- The stretch of the list that the piece stands for.  The start state has no label. -/
def actions (p : Piece) : List Action :=
  (if p.state.id = startState then [] else [.label p.state.id]) ++ p.state.body ++ p.dead

def unreached (p : Piece) : Unreached :=
  ⟨p.state.id, p.dead.length, (p.state.body.getLast?.map Action.kind).getD ""⟩

/-- What is told of pieces in order: nothing of those without dead actions. -/
def allUnreached (pieces : List Piece) : List Unreached :=
  (pieces.filter fun p => !p.dead.isEmpty).map (·.unreached)

structure Sound (p : Piece) : Prop where
  unlabelled : ∀ name, .label name ∉ p.state.body ++ p.dead
  /-- a terminator is the last action of its body -/
  terminated : ∀ i a, p.state.body[i]? = some a → a.isTerminator = true →
    i + 1 = p.state.body.length
  ended : p.dead ≠ [] →
    ∃ a, p.state.body.getLast? = some a ∧ a.isTerminator = true ∧ p.unreached.kind = a.kind

end Piece

/-- The list `xs` in pieces, by which its compilation is accounted for. -/
structure Accounted (xs : List Action) (c : Compilation) (pieces : List Piece) : Prop where
  states : pieces.map (·.state) = c.machine.states
  whole : pieces.flatMap (·.actions) = xs
  sound : ∀ p ∈ pieces, p.Sound
  warnings : c.warnings = (Piece.allUnreached pieces).map (·.text)
  length : xs.length = (labelNames xs).length + (c.machine.states.map (·.body.length)).sum +
    ((Piece.allUnreached pieces).map (·.count)).sum
  /-- there is one state more than labels unless the list opens with a label -/
  count : (∃ name rest, xs = .label name :: rest) ∧
      c.machine.states.length = (labelNames xs).length ∨
    (¬ ∃ name rest, xs = .label name :: rest) ∧
      c.machine.states.length = (labelNames xs).length + 1

namespace Segment

/-! ### What is cut off -/

/-- The actions of a segment that are never reached. -/
def dead (s : Segment) : List Action := s.actions.drop (cut s.actions).1.length

theorem dead_eq {s : Segment} {dead : List Action} (h : s.actions = (cut s.actions).1 ++ dead) :
    s.dead = dead := by
  calc s.dead = ((cut s.actions).1 ++ dead).drop (cut s.actions).1.length := by
        rw [← h, Segment.dead]
    _ = dead := List.drop_left

theorem cut_append_dead (s : Segment) : (cut s.actions).1 ++ s.dead = s.actions := by
  obtain ⟨dead, e, -⟩ := cut_append s.actions
  rw [dead_eq e, ← e]

theorem length_dead (s : Segment) : s.dead.length = (cut s.actions).2 := by
  obtain ⟨dead, e, hd⟩ := cut_append s.actions
  rw [dead_eq e, hd]

theorem cut_ne_nil {xs : List Action} (h : xs ≠ []) : (cut xs).1 ≠ [] := by
  obtain ⟨a, rest, rfl⟩ := List.exists_cons_of_ne_nil h
  cases ha : a.isTerminator with
  | true => rw [cut_terminator ha]; exact List.cons_ne_nil _ _
  | false => rw [cut_cons ha]; exact List.cons_ne_nil _ _

/-- Only a terminator has dead actions behind it. -/
theorem isTerminator_of_dead {s : Segment} (h : s.dead ≠ []) :
    ∃ a, (cut s.actions).1.getLast? = some a ∧ a.isTerminator = true := by
  have occupied : s.actions ≠ [] := by
    intro e
    exact h (by rw [dead, e, List.drop_nil])
  have last := List.getLast?_eq_some_getLast (cut_ne_nil occupied)
  refine ⟨_, last, ?_⟩
  by_contra hn
  have whole := cut_eq_self last (Bool.eq_false_iff.mpr hn)
  exact h (by rw [dead, whole, List.drop_length])

/-! ### Pieces -/

/-- The piece of a segment that stands before the state `next`. -/
def piece (s : Segment) (next : Option String) : Piece := ⟨s.state next, s.dead⟩

/-- The pieces of segments in order. -/
def pieces : List Segment → List Piece
  | [] => []
  | s :: rest => s.piece (rest.head?.map (·.id)) :: pieces rest

theorem map_state_pieces (ss : List Segment) : (pieces ss).map (·.state) = states ss := by
  induction ss with
  | nil => rfl
  | cons s ss ih => rw [pieces, List.map_cons, ih, states]; rfl

theorem mem_pieces {ss : List Segment} {p : Piece} (h : p ∈ pieces ss) :
    ∃ s ∈ ss, ∃ next, p = s.piece next := by
  induction ss with
  | nil => cases h
  | cons s ss ih =>
      rcases List.mem_cons.mp h with rfl | h
      · exact ⟨s, List.mem_cons_self, _, rfl⟩
      · obtain ⟨t, ht, e⟩ := ih h
        exact ⟨t, List.mem_cons_of_mem s ht, e⟩

theorem actions_piece_of_ne {s : Segment} (h : s.id ≠ startState) (next : Option String) :
    (s.piece next).actions = .label s.id :: s.actions := by
  have named : (s.piece next).state.id ≠ startState := h
  have whole : (s.piece next).state.body ++ (s.piece next).dead = s.actions := s.cut_append_dead
  rw [Piece.actions, if_neg named, List.append_assoc, whole]
  rfl

theorem actions_piece_of_eq {s : Segment} (h : s.id = startState) (next : Option String) :
    (s.piece next).actions = s.actions := by
  have named : (s.piece next).state.id = startState := h
  have whole : (s.piece next).state.body ++ (s.piece next).dead = s.actions := s.cut_append_dead
  rw [Piece.actions, if_pos named, List.nil_append, whole]

theorem flatMap_pieces {ss : List Segment} (h : ∀ s ∈ ss, s.id ≠ startState) :
    (pieces ss).flatMap (·.actions) = join ss := by
  induction ss with
  | nil => rfl
  | cons s ss ih =>
      obtain ⟨hs, hss⟩ := List.forall_mem_cons.mp h
      rw [pieces, List.flatMap_cons, actions_piece_of_ne hs, ih hss, join, List.cons_append]

theorem sound_piece {s : Segment} (h : ∀ name, .label name ∉ s.actions) (next : Option String) :
    (s.piece next).Sound where
  unlabelled name := by
    have whole : (s.piece next).state.body ++ (s.piece next).dead = s.actions :=
      s.cut_append_dead
    rw [whole]
    exact h name
  terminated i a hi ha := by
    have bound := (List.getElem?_eq_some_iff.mp hi).1
    by_contra hn
    have kept : (cut s.actions).1[i]? = some a := hi
    have passed := not_isTerminator_of_cut kept
      (Nat.lt_of_le_of_ne (Nat.succ_le_of_lt bound) hn)
    rw [ha] at passed
    cases passed
  ended hd := by
    obtain ⟨a, hl, ha⟩ := isTerminator_of_dead hd
    have last : (s.piece next).state.body.getLast? = some a := hl
    exact ⟨a, last, ha, by rw [Piece.unreached, last]; rfl⟩

theorem warning?_eq (s : Segment) (next : Option String) :
    s.warning? = if s.dead.isEmpty then none else some (s.piece next).unreached.text := by
  have count := s.length_dead
  unfold warning?
  dsimp only
  rw [← count]
  cases hd : s.dead with
  | nil => rfl
  | cons a dead => simp [Piece.unreached, Unreached.text, piece, state, hd]

/-- **A warning for each piece with dead actions.** -/
theorem filterMap_warning? (ss : List Segment) :
    ss.filterMap warning? = (Piece.allUnreached (pieces ss)).map (·.text) := by
  induction ss with
  | nil => rfl
  | cons s ss ih =>
      have warning := warning?_eq s (ss.head?.map (·.id))
      unfold Piece.allUnreached at ih ⊢
      cases hd : s.dead.isEmpty with
      | true => simp [pieces, piece, warning, hd, ih]
      | false => simp [pieces, piece, warning, hd, ih]

end Segment

/-! ### The sum -/

namespace Piece

theorem sum_allUnreached (pieces : List Piece) :
    ((allUnreached pieces).map (·.count)).sum = (pieces.map (·.dead.length)).sum := by
  unfold allUnreached
  induction pieces with
  | nil => rfl
  | cons p pieces ih =>
      cases hd : p.dead with
      | nil => simpa [List.filter_cons, hd] using ih
      | cons a dead => simpa [List.filter_cons, hd, unreached] using ih

theorem length_actions (p : Piece) :
    p.actions.length =
      ([p.state.id].filter (· ≠ startState)).length + p.state.body.length + p.dead.length := by
  unfold actions
  by_cases h : p.state.id = startState
  · simp [h]
  · simp [h]
    omega

theorem length_flatMap_actions (pieces : List Piece) :
    (pieces.flatMap (·.actions)).length =
      (((pieces.map (·.state)).map (·.id)).filter (· ≠ startState)).length +
        ((pieces.map (·.state)).map (·.body.length)).sum + (pieces.map (·.dead.length)).sum := by
  induction pieces with
  | nil => rfl
  | cons p pieces ih =>
      have first : (((p :: pieces).map (·.state)).map (·.id)).filter (· ≠ startState) =
          [p.state.id].filter (· ≠ startState) ++
            ((pieces.map (·.state)).map (·.id)).filter (· ≠ startState) := by
        rw [List.map_cons, List.map_cons, ← List.singleton_append, List.filter_append]
      rw [List.flatMap_cons, List.length_append, p.length_actions, ih, first, List.length_append]
      simp only [List.map_cons, List.sum_cons]
      omega

end Piece

namespace WellFormed

variable {xs : List Action}

theorem flatMap_pieces (h : WellFormed xs) :
    (Segment.pieces (Segment.ofActions xs)).flatMap (·.actions) = xs := by
  have named := h.segment_ne_startState
  have whole := Segment.join_split xs
  by_cases hl : (Segment.split xs).1 = []
  · rw [hl, List.nil_append] at whole
    rw [Segment.ofActions_of_lead_nil hl, Segment.flatMap_pieces named, whole]
  · rw [Segment.ofActions_of_lead_ne_nil hl, Segment.pieces, List.flatMap_cons,
      Segment.actions_piece_of_eq rfl, Segment.flatMap_pieces named, whole]

/-- The states besides the start state are those of the labels. -/
theorem filter_stateIds (h : WellFormed xs) :
    (compileChecked xs).machine.stateIds.filter (· ≠ startState) = labelNames xs := by
  have named : (labelNames xs).filter (· ≠ startState) = labelNames xs := by
    refine List.filter_eq_self.mpr fun name hn => ?_
    exact decide_eq_true (h.ne_startState (mem_labelNames.mp hn))
  rcases stateIds_eq h.nonempty with ⟨-, e⟩ | ⟨-, e⟩
  · rw [e, named]
  · rw [e, List.filter_cons_of_neg (by simp), named]

theorem accounted (h : WellFormed xs) :
    Accounted xs (compileChecked xs) (Segment.pieces (Segment.ofActions xs)) where
  states := Segment.map_state_pieces _
  whole := h.flatMap_pieces
  sound p hp := by
    obtain ⟨s, hs, next, rfl⟩ := Segment.mem_pieces hp
    exact Segment.sound_piece (Segment.label_not_mem hs) next
  warnings := Segment.filterMap_warning? _
  length := by
    have sum := Piece.length_flatMap_actions (Segment.pieces (Segment.ofActions xs))
    rw [h.flatMap_pieces, Segment.map_state_pieces] at sum
    rw [Piece.sum_allUnreached, ← h.filter_stateIds]
    exact sum
  count := by
    have ids : (compileChecked xs).machine.stateIds.length =
        (compileChecked xs).machine.states.length := List.length_map _
    rcases stateIds_eq h.nonempty with ⟨opens, e⟩ | ⟨opens, e⟩
    · exact Or.inl ⟨opens, by rw [← ids, e]⟩
    · exact Or.inr ⟨opens, by rw [← ids, e, List.length_cons]⟩

end WellFormed

/-- **Compiling loses nothing, doubles nothing and moves nothing**, and what is never reached is
told of. -/
theorem compile_accounted {xs : List Action} {c : Compilation} (h : compile xs = .ok c) :
    ∃ pieces, Accounted xs c pieces := by
  obtain ⟨hw, rfl⟩ := compile_eq_ok_iff.mp h
  exact ⟨_, hw.accounted⟩

theorem sampleDialogue_accounted :
    compile sampleDialogue = .ok (compileChecked sampleDialogue) ∧
      ∃ pieces, Accounted sampleDialogue (compileChecked sampleDialogue) pieces :=
  ⟨compile_sampleDialogue, compile_accounted compile_sampleDialogue⟩

example : (compileChecked sampleDialogue).warnings =
    ["state \"__start__\": 1 unreachable action(s) after choice ignored"] := by
  decide +kernel

end Dialogue
