import Dialogue.Proofs.Json.Numbers

/-!
# Numbers are read back

The text of a finite number is a numeral, perhaps behind a minus (`Signed`): a solid text that a
value reader hands over to the number reader.  So if the number is read back from its text
(`ReadsBack`), it is read back wherever the text stands before a delimiter (`takes_signed`).

Not every number is read back: the reader scales digits with a rounding for each power of ten.
-/

namespace Dialogue.Json

open Reader

instance : DecidablePred Solid := fun text => List.decidableBAll (isGap · = false) text

/-! ### Numerals -/

/-- Begins with a digit and holds no blanks. -/
structure Numeral (text : List Char) : Prop where
  digit : ∃ c ∈ text.head?, c.isDigit = true
  solid : Solid text

theorem isGap_of_isDigit {c : Char} (h : c.isDigit = true) : isGap c = false := by
  cases hc : isGap c with
  | false => rfl
  | true =>
      simp only [isGap, Bool.or_eq_true, beq_iff_eq] at hc
      rcases hc with ((rfl | rfl) | rfl) | rfl <;> cases h

theorem isDigit_of_mem_digitsOf {n : Nat} {c : Char} (h : c ∈ Binary64.digitsOf n) :
    c.isDigit = true :=
  Nat.isDigit_of_mem_toDigits (by decide) (by decide) h

theorem solid_append {front back : List Char} :
    Solid (front ++ back) ↔ Solid front ∧ Solid back := List.forall_mem_append

theorem solid_cons {c : Char} {text : List Char} :
    Solid (c :: text) ↔ isGap c = false ∧ Solid text := List.forall_mem_cons

theorem solid_digitsOf (n : Nat) : Solid (Binary64.digitsOf n) :=
  fun _ hc => isGap_of_isDigit (isDigit_of_mem_digitsOf hc)

theorem solid_zeros (n : Nat) : Solid (List.replicate n '0') := by
  intro c hc
  rw [List.eq_of_mem_replicate hc]
  decide

theorem numeral_digitsOf (n : Nat) : Numeral (Binary64.digitsOf n) := by
  have hne : Binary64.digitsOf n ≠ [] := Nat.toDigits_ne_nil
  exact ⟨⟨_, List.head?_eq_some_head hne, isDigit_of_mem_digitsOf (List.head_mem hne)⟩,
    solid_digitsOf n⟩

namespace Numeral

variable {ds : List Char} (h : Numeral ds)
include h

theorem append {text : List Char} (ht : Solid text) : Numeral (ds ++ text) := by
  obtain ⟨⟨c, hc, hd⟩, hs⟩ := h
  exact ⟨⟨c, by rw [List.head?_append, hc]; rfl, hd⟩, solid_append.mpr ⟨hs, ht⟩⟩

theorem take {n : Nat} (hn : n ≠ 0) : Numeral (ds.take n) := by
  obtain ⟨⟨c, hc, hd⟩, hs⟩ := h
  exact ⟨⟨c, by rw [List.head?_take, if_neg hn]; exact hc, hd⟩,
    fun d hmem => hs d (List.mem_of_mem_take hmem)⟩

theorem solid_drop (n : Nat) : Solid (ds.drop n) :=
  fun d hmem => h.solid d (List.mem_of_mem_drop hmem)

theorem plain (point : Int) : Numeral (Binary64.plain ds point) := by
  unfold Binary64.plain
  split
  · refine ⟨⟨'0', rfl, rfl⟩, ?_⟩
    simp only [List.cons_append, solid_cons, solid_append]
    exact ⟨by decide, by decide, solid_zeros _, h.solid⟩
  · rename_i hp
    split
    · rw [List.append_assoc]
      exact h.append (solid_append.mpr ⟨solid_zeros _, by decide⟩)
    · exact (h.take (by omega)).append (solid_cons.mpr ⟨by decide, h.solid_drop _⟩)

theorem scientific (layout : Binary64.Layout) (exponent : Int) :
    Numeral (Binary64.scientific layout ds exponent) := by
  unfold Binary64.scientific
  dsimp only
  have hfraction : Solid (if ds.tail.isEmpty then [] else '.' :: ds.tail) := by
    split
    · nofun
    · exact solid_cons.mpr ⟨by decide, fun d hmem => h.solid d (List.mem_of_mem_tail hmem)⟩
  have hmark :
      Solid (if exponent < 0 then ['-'] else if layout.signedExponent then ['+'] else []) := by
    repeat' split
    all_goals decide
  simp only [List.append_assoc, List.cons_append]
  refine (h.take Nat.one_ne_zero).append (solid_append.mpr ⟨hfraction, solid_cons.mpr ⟨by decide, ?_⟩⟩)
  exact solid_append.mpr ⟨hmark, solid_digitsOf _⟩

end Numeral

theorem numeral_layout (layout : Binary64.Layout) (d : Binary64.Decimal) :
    Numeral (d.layout layout) := by
  unfold Binary64.Decimal.layout
  dsimp only
  split
  · exact (numeral_digitsOf _).plain _
  · exact (numeral_digitsOf _).scientific _ _

/-- A numeral, perhaps with a minus. -/
def Signed (text : List Char) : Prop :=
  Numeral text ∨ ∃ digits, text = '-' :: digits ∧ Numeral digits

theorem signed_intText (n : Int) : Signed (intText n) := by
  unfold intText
  split
  · exact .inr ⟨_, rfl, numeral_digitsOf _⟩
  · exact .inl (numeral_digitsOf _)

theorem signed_floatText {x : Binary64} (h : x.isFinite = true) : Signed (floatText x) := by
  unfold floatText
  rw [if_pos h]
  unfold Binary64.text
  have hzero : Numeral ['0', '.', '0'] := ⟨⟨'0', rfl, rfl⟩, by decide⟩
  split
  · split
    · exact .inr ⟨_, rfl, hzero⟩
    · exact .inl hzero
  · dsimp only
    split
    · exact .inr ⟨_, rfl, numeral_layout _ _⟩
    · exact .inl (numeral_layout _ _)

/-! ### Numbers that are read back -/

/-- The text of the value, by itself, is read as the value. -/
def ReadsBack (v : Json) : Prop := parse v.compact = .ok v

/-- The number that is read from the text of a number, if it is one. -/
def reread? (x : Binary64) : Option Binary64 :=
  match parse (compact (.float x)) with
  | .ok (.float y) => some y
  | _ => none

theorem reread?_eq_some {x : Binary64} : reread? x = some x ↔ ReadsBack (.float x) := by
  unfold reread? ReadsBack
  constructor
  · intro h
    split at h
    · rename_i hp
      rw [hp, Option.some.inj h]
    · cases h
  · intro h
    rw [h]

instance (x : Binary64) : Decidable (ReadsBack (.float x)) := decidable_of_iff _ reread?_eq_some

section Value

variable {gap text rest : List Char} {w : Json} {list object : Reader Json}

theorem valueWith_minus (hg : Gap gap) (p : Place) :
    valueWith list object ⟨gap ++ '-' :: text, p⟩ = number true ⟨text, (p.past gap).after '-'⟩ :=
  (takes_next? hg (by decide) text).run_bind _ p

theorem valueWith_digit (hg : Gap gap) {c : Char} (hc : c.isDigit = true) (p : Place) :
    valueWith list object ⟨gap ++ c :: text, p⟩ = number false ⟨c :: text, p.past gap⟩ := by
  refine ((takes_next? hg (isGap_of_isDigit hc) text).run_bind _ p).trans (congrFun ?_ _)
  split
  case h_9 e =>
    cases e
    rw [if_pos hc]
  all_goals (rename_i e; cases e)
  all_goals cases hc

/-- Only behind blanks does a text end. -/
theorem gap_of_pastGap {p : Place} (h : (Cursor.pastGap p text).rest = []) : Gap text := by
  induction text generalizing p with
  | nil => exact gap_nil
  | cons c text ih =>
      rw [Cursor.pastGap] at h
      split at h
      · rename_i hc
        exact List.forall_mem_cons.mpr ⟨hc, ih h⟩
      · cases h

theorem gap_of_endText {s s' : Cursor} {u : Unit} (h : endText s = .ok u s') : Gap s.rest := by
  unfold endText at h
  obtain ⟨head?, c, hnext, hend⟩ := exists_of_bind h
  have hhead : next? s = .ok (Cursor.pastGap s.place s.rest).rest.head?
      (Cursor.pastGap s.place s.rest) := rfl
  obtain ⟨rfl, rfl⟩ := EStateM.Result.ok.inj (hhead.symm.trans hnext)
  cases he : (Cursor.pastGap s.place s.rest).rest.head? with
  | none => exact gap_of_pastGap (List.head?_eq_none_iff.mp he)
  | some c =>
      rw [he] at hend
      cases hend

/-- A text that stands for a value is read as the value, up to blanks. -/
theorem exists_of_parse {s : String} {v : Json} (h : parse s = .ok v) :
    ∃ c, value deepest ⟨s.toList, ⟨1, 0⟩⟩ = .ok v c ∧ Gap c.rest := by
  unfold parse readAll at h
  split at h
  · rename_i a s' hr
    cases h
    obtain ⟨a, c, hv, he⟩ := exists_of_bind hr
    obtain ⟨u, c', hend, hp⟩ := exists_of_bind he
    cases hp
    exact ⟨c, hv, gap_of_endText hend⟩
  · cases h

/-- **A number that is read back from its text is read from it anywhere before a delimiter.** -/
theorem takes_signed (ht : Signed text) (h : parse (.ofList text) = .ok w) (hg : Gap gap)
    (hd : Delimited rest) : Takes (valueWith list object) (gap ++ text) rest w := by
  obtain ⟨s, hv, hs⟩ := exists_of_parse h
  rw [String.toList_ofList, deepest, value] at hv
  rcases ht with ⟨⟨c, hc, hdigit⟩, hsolid⟩ | ⟨digits, rfl, -, hsolid⟩
  · obtain ⟨tail, rfl⟩ := List.head?_eq_some_iff.mp hc
    rw [← List.nil_append (c :: tail), valueWith_digit gap_nil hdigit] at hv
    have hnumber := (decided_number false hsolid).takes hv hs hd
    intro p
    rw [List.append_assoc, List.cons_append, valueWith_digit hg hdigit]
    refine (hnumber _).trans ?_
    rw [Place.past, Place.past, Place.past, List.foldl_append]
  · rw [← List.nil_append ('-' :: digits), valueWith_minus gap_nil] at hv
    have hnumber := (decided_number true hsolid).takes hv hs hd
    intro p
    rw [List.append_assoc, List.cons_append, valueWith_minus hg]
    refine (hnumber _).trans ?_
    rw [Place.past, Place.past, Place.past, List.foldl_append]
    rfl

end Value

theorem isFinite_of_readsBack {x : Binary64} (h : ReadsBack (.float x)) : x.isFinite = true := by
  cases hx : x.isFinite with
  | true => rfl
  | false =>
      have hnull : compact (.float x) = "null" := by
        simp only [compact, chars, atomText, floatText, hx, Bool.false_eq_true, if_false]
      rw [ReadsBack, hnull, show parse "null" = .ok .null from rfl] at h
      cases h

end Dialogue.Json
