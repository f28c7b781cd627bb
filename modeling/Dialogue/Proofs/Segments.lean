import Dialogue.Compile

/-!
# Segments and the list they come from

Splitting a list at its labels loses nothing: the lead and the segments, each behind its label,
are the list (`join_split`).  So the actions of any segment, followed by all later segments, are
the end of the list (`suffix_of_getElem?`); this ties a place in a segment to a place in the list.

Cutting a segment keeps the actions up to its first terminator.  Where something is cut off, the
last action kept is a terminator (`cut_eq_self`), and no earlier one is.
-/

namespace Dialogue.Segment

/-! ### Splitting -/

/-- Segments behind their labels. -/
def join : List Segment → List Action
  | [] => []
  | s :: rest => .label s.id :: (s.actions ++ join rest)

theorem label?_eq_some {a : Action} {name : String} :
    a.label? = some name ↔ a = .label name := by
  constructor
  · intro h
    cases a with
    | label n => cases h; rfl
    | _ => cases h
  · rintro rfl
    rfl

theorem split_label (name : String) (xs : List Action) :
    split (.label name :: xs) = ([], ⟨name, (split xs).1⟩ :: (split xs).2) := rfl

theorem split_cons {a : Action} (h : a.label? = none) (xs : List Action) :
    split (a :: xs) = (a :: (split xs).1, (split xs).2) := by
  simp only [split, h]

/-- **Nothing is lost.** -/
theorem join_split (xs : List Action) : (split xs).1 ++ join (split xs).2 = xs := by
  induction xs with
  | nil => rfl
  | cons a xs ih =>
      cases h : a.label? with
      | none => rw [split_cons h, List.cons_append, ih]
      | some name =>
          obtain rfl := label?_eq_some.mp h
          rw [split_label, List.nil_append, join, ih]

theorem ids_split (xs : List Action) :
    (split xs).2.map (·.id) = xs.filterMap Action.label? := by
  induction xs with
  | nil => rfl
  | cons a xs ih =>
      cases h : a.label? with
      | none => rw [split_cons h, ih, List.filterMap_cons_none h]
      | some name =>
          obtain rfl := label?_eq_some.mp h
          rw [split_label, List.map_cons, ih, List.filterMap_cons_some h]

/-- The lead is empty exactly where the list opens with a label or not at all. -/
theorem lead_eq_nil_iff {xs : List Action} :
    (split xs).1 = [] ↔ xs = [] ∨ ∃ name rest, xs = .label name :: rest := by
  cases xs with
  | nil => simp [split]
  | cons a xs =>
      cases h : a.label? with
      | none =>
          rw [split_cons h]
          simp only [reduceCtorEq, List.cons.injEq, false_or, false_iff]
          rintro ⟨name, rest, rfl, -⟩
          cases h
      | some name =>
          obtain rfl := label?_eq_some.mp h
          simp [split_label]

theorem ofActions_of_lead_nil {xs : List Action} (h : (split xs).1 = []) :
    ofActions xs = (split xs).2 := by
  simp [ofActions, h]

theorem ofActions_of_lead_ne_nil {xs : List Action} (h : (split xs).1 ≠ []) :
    ofActions xs = ⟨startState, (split xs).1⟩ :: (split xs).2 := by
  simp [ofActions, h]

theorem ofActions_ne_nil {xs : List Action} (h : xs ≠ []) : ofActions xs ≠ [] := by
  by_cases hl : (split xs).1 = []
  · obtain ⟨name, rest, rfl⟩ := (lead_eq_nil_iff.mp hl).resolve_left h
    rw [ofActions_of_lead_nil hl, split_label]
    exact List.cons_ne_nil _ _
  · rw [ofActions_of_lead_ne_nil hl]
    exact List.cons_ne_nil _ _

theorem join_suffix {ss : List Segment} : ∀ {k : Nat} {s : Segment}, ss[k]? = some s →
    ∃ before, join ss = before ++ (s.actions ++ join (ss.drop (k + 1))) := by
  induction ss with
  | nil => intro k s h; cases h
  | cons r ss ih =>
      intro k s h
      cases k with
      | zero =>
          cases h
          exact ⟨[.label r.id], by simp [join]⟩
      | succ k =>
          obtain ⟨before, e⟩ := ih h
          exact ⟨.label r.id :: (r.actions ++ before), by simp [join, e]⟩

/-- **A segment with all later ones ends the list.** -/
theorem suffix_of_getElem? {xs : List Action} {k : Nat} {s : Segment}
    (h : (ofActions xs)[k]? = some s) :
    ∃ before, xs = before ++ (s.actions ++ join ((ofActions xs).drop (k + 1))) := by
  have whole := join_split xs
  by_cases hl : (split xs).1 = []
  · rw [hl, List.nil_append] at whole
    rw [ofActions_of_lead_nil hl] at h ⊢
    obtain ⟨before, e⟩ := join_suffix h
    exact ⟨before, whole.symm.trans e⟩
  · rw [ofActions_of_lead_ne_nil hl] at h ⊢
    cases k with
    | zero => cases h; exact ⟨[], whole.symm⟩
    | succ k =>
        rw [List.getElem?_cons_succ] at h
        obtain ⟨before, e⟩ := join_suffix h
        exact ⟨(split xs).1 ++ before, by rw [List.append_assoc, List.drop_succ_cons, ← e, whole]⟩

/-- What a segment holds stands in the list. -/
theorem subset_of_mem {xs : List Action} {s : Segment} (h : s ∈ ofActions xs) :
    s.actions ⊆ xs := by
  obtain ⟨k, hk⟩ := List.getElem?_of_mem h
  obtain ⟨before, e⟩ := suffix_of_getElem? hk
  rw [e]
  exact fun a ha => List.mem_append_right _ (List.mem_append_left _ ha)

theorem label_not_mem_split (xs : List Action) (name : String) :
    .label name ∉ (split xs).1 ∧ ∀ s ∈ (split xs).2, .label name ∉ s.actions := by
  induction xs with
  | nil => exact ⟨List.not_mem_nil, nofun⟩
  | cons a xs ih =>
      obtain ⟨lead, segments⟩ := ih
      cases h : a.label? with
      | some n =>
          obtain rfl := label?_eq_some.mp h
          rw [split_label]
          exact ⟨List.not_mem_nil, List.forall_mem_cons.mpr ⟨lead, segments⟩⟩
      | none =>
          rw [split_cons h]
          refine ⟨fun hm => ?_, segments⟩
          rcases List.mem_cons.mp hm with rfl | hm
          · cases h
          · exact lead hm

theorem label_not_mem {xs : List Action} {s : Segment} (h : s ∈ ofActions xs) (name : String) :
    .label name ∉ s.actions := by
  obtain ⟨lead, segments⟩ := label_not_mem_split xs name
  by_cases hl : (split xs).1 = []
  · rw [ofActions_of_lead_nil hl] at h
    exact segments s h
  · rw [ofActions_of_lead_ne_nil hl] at h
    rcases List.mem_cons.mp h with rfl | h
    · exact lead
    · exact segments s h

/-! ### Cutting -/

theorem cut_terminator {a : Action} (h : a.isTerminator = true) (xs : List Action) :
    cut (a :: xs) = ([a], xs.length) := by
  rw [cut, if_pos h]

theorem cut_cons {a : Action} (h : a.isTerminator = false) (xs : List Action) :
    cut (a :: xs) = (a :: (cut xs).1, (cut xs).2) := by
  simp [cut, h]

/-- What is kept, and behind it what is counted, make up the actions. -/
theorem cut_append (xs : List Action) :
    ∃ dead, xs = (cut xs).1 ++ dead ∧ dead.length = (cut xs).2 := by
  induction xs with
  | nil => exact ⟨[], rfl, rfl⟩
  | cons a xs ih =>
      cases h : a.isTerminator with
      | true => exact ⟨xs, by rw [cut_terminator h]; simp⟩
      | false =>
          obtain ⟨dead, e, hd⟩ := ih
          refine ⟨dead, ?_, ?_⟩
          · rw [cut_cons h, List.cons_append, ← e]
          · rw [cut_cons h, hd]

/-- An action that is kept and terminates nothing is not the last one kept, unless nothing is
cut off. -/
theorem cut_eq_self {xs : List Action} {a : Action} (h : (cut xs).1.getLast? = some a)
    (ha : a.isTerminator = false) : (cut xs).1 = xs := by
  induction xs with
  | nil => rfl
  | cons b xs ih =>
      cases hb : b.isTerminator with
      | true =>
          rw [cut_terminator hb, List.getLast?_singleton, Option.some.injEq] at h
          rw [h, ha] at hb
          cases hb
      | false =>
          rw [cut_cons hb] at h ⊢
          cases hc : (cut xs).1 with
          | nil =>
              cases xs with
              | nil => rfl
              | cons c xs => simp only [cut] at hc; split at hc <;> cases hc
          | cons c ys =>
              rw [hc, List.getLast?_cons_cons, ← hc] at h
              rw [← hc, ih h]

/-- Only the last action kept can be a terminator. -/
theorem not_isTerminator_of_cut {xs : List Action} : ∀ {i : Nat} {a : Action},
    (cut xs).1[i]? = some a → i + 1 < (cut xs).1.length → a.isTerminator = false := by
  induction xs with
  | nil => intro i a h; cases h
  | cons b xs ih =>
      intro i a h hi
      cases hb : b.isTerminator with
      | true =>
          rw [cut_terminator hb] at hi
          simp at hi
      | false =>
          rw [cut_cons hb] at h hi
          cases i with
          | zero => cases h; exact hb
          | succ i => exact ih h (by simpa using hi)

theorem getElem?_of_cut {xs : List Action} {i : Nat} {a : Action}
    (h : (cut xs).1[i]? = some a) : xs[i]? = some a := by
  obtain ⟨dead, e, -⟩ := cut_append xs
  obtain ⟨hi, -⟩ := List.getElem?_eq_some_iff.mp h
  calc xs[i]? = ((cut xs).1 ++ dead)[i]? := by rw [← e]
    _ = some a := by rw [List.getElem?_append_left hi, h]

theorem cut_subset (xs : List Action) : (cut xs).1 ⊆ xs := by
  obtain ⟨dead, e, -⟩ := cut_append xs
  intro a ha
  rw [e]
  exact List.mem_append_left _ ha

/-! ### States -/

theorem states_getElem? (ss : List Segment) (k : Nat) :
    (states ss)[k]? = (ss[k]?).map fun s => s.state ((ss[k + 1]?).map (·.id)) := by
  induction ss generalizing k with
  | nil => rfl
  | cons s ss ih =>
      cases k with
      | zero => simp [states, List.head?_eq_getElem?]
      | succ k => simpa [states] using ih k

theorem ids_states (ss : List Segment) : (states ss).map (·.id) = ss.map (·.id) := by
  induction ss with
  | nil => rfl
  | cons s ss ih => rw [states, List.map_cons, ih, List.map_cons]; rfl

theorem states_ne_nil {ss : List Segment} (h : ss ≠ []) : states ss ≠ [] := by
  cases ss with
  | nil => exact absurd rfl h
  | cons s ss => exact List.cons_ne_nil _ _

end Dialogue.Segment
