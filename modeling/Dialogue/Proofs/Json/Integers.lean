import Dialogue.Proofs.Json.Values

/-!
# Whole numbers are read back

The digits of a number are held exactly as long as the number is below `2 ^ 64`, so a whole number
of the words' range is read back from its text (`readsBack_int`).  And no other whole number is
ever read: one that is out of the range is read as a floating number (`yields_value`).  So what has
been read from a text once can be written and read again, its whole numbers included.
-/

namespace Dialogue.Json

open Reader

/-! ### The digits of a number -/

/-- A whole number that one of the machine's words holds, with a sign or without. -/
def IsWord (n : Int) : Prop := -(pow2 63 : Int) ≤ n ∧ n < pow2 64

theorem le_ofDigitChars (n : Nat) (ds : List Char) : n ≤ Nat.ofDigitChars 10 ds n := by
  induction ds generalizing n with
  | nil => exact Nat.le_refl n
  | cons c ds ih =>
      rw [Nat.ofDigitChars_cons]
      exact Nat.le_trans (by omega) (ih _)

/-- Digits of a number below the bound are all held. -/
theorem held_eq {n : Nat} {ds : List Char} (h : Nat.ofDigitChars 10 ds n < pow2 64) :
    held n ds = (Nat.ofDigitChars 10 ds n, 0) := by
  induction ds generalizing n with
  | nil => rfl
  | cons c ds ih =>
      rw [Nat.ofDigitChars_cons] at h ⊢
      have hfirst : 10 * n + (c.toNat - '0'.toNat) < pow2 64 :=
        Nat.lt_of_le_of_lt (le_ofDigitChars _ ds) h
      simp only [held, hfirst, if_true]
      exact ih h

theorem held_fst_lt {n : Nat} (hn : n < pow2 64) (ds : List Char) : (held n ds).1 < pow2 64 := by
  induction ds generalizing n with
  | nil => exact hn
  | cons c ds ih =>
      simp only [held]
      split
      · rename_i h
        exact ih h
      · exact hn

theorem held_digitsOf {n : Nat} (h : n < pow2 64) : held 0 (Binary64.digitsOf n) = (n, 0) := by
  have hvalue : Nat.ofDigitChars 10 (Binary64.digitsOf n) 0 = n :=
    Nat.ofDigitChars_toDigits (by decide) (by decide)
  rw [held_eq (by rwa [hvalue]), hvalue]

theorem digitChar_ne_zero : ∀ n < 10, n ≠ 0 → n.digitChar ≠ '0' := by decide

/-- Only the digits of zero begin with a zero. -/
theorem exists_digitsOf {n : Nat} (h : n ≠ 0) :
    ∃ c ds, Binary64.digitsOf n = c :: ds ∧ c ≠ '0' := by
  unfold Binary64.digitsOf
  induction n using Nat.strongRecOn with
  | ind n ih =>
      rw [Nat.toDigits_eq_if (by decide)]
      split
      · rename_i hn
        exact ⟨n.digitChar, [], rfl, digitChar_ne_zero n hn h⟩
      · obtain ⟨c, ds, hds, hc⟩ := ih (n / 10) (by omega) (by omega)
        exact ⟨c, ds ++ [(n % 10).digitChar], by rw [hds]; rfl, hc⟩

/-! ### Whole numbers are read -/

theorem takes_wholeDigits (n : Nat) :
    Takes wholeDigits (Binary64.digitsOf n) [] (Binary64.digitsOf n) := by
  by_cases h : n = 0
  · subst h
    show Takes wholeDigits ['0'] [] ['0']
    refine .step (.skip (takes_stop nofun fun next hn => ?_))
    cases next with
    | none => rfl
    | some c => simp [hn c rfl]
  · obtain ⟨c, ds, hds, hc⟩ := exists_digitsOf h
    have hdigits : ∀ d ∈ c :: ds, d.isDigit = true := fun d hd =>
      isDigit_of_mem_digitsOf (hds ▸ hd)
    rw [hds]
    refine .step ?_
    split
    · contradiction
    · rename_i e
      exact absurd (Option.some.inj e) hc
    · rename_i e
      cases e
      rw [if_pos (hdigits c List.mem_cons_self)]
      exact takes_allDigits hdigits nofun

/-- The digits of a number are read as the number, or behind a minus as its negative. -/
theorem takes_number {n : Nat} (h : n < pow2 64) {negative : Bool} {v : Json}
    (hwhole : whole negative n = pure v) :
    Takes (number negative) (Binary64.digitsOf n) [] v := by
  refine (takes_wholeDigits n).done ?_
  rw [held_digitsOf h]
  refine (takes_peek? []).ahead ((takes_peek? []).ahead ?_)
  rw [if_pos rfl, hwhole]
  exact .pure v []

/-- **A whole number of the words' range is read back from its text.** -/
theorem readsBack_int {n : Int} (h : IsWord n) : ReadsBack (.int n) := by
  obtain ⟨hlow, hhigh⟩ := h
  have hbound : n.natAbs < pow2 64 := by
    have : pow2 63 < pow2 64 := by decide
    omega
  suffices hv : Takes (value deepest) (intText n) [] (.int n) by
    have hread := hv.readAll gap_nil
    rwa [List.append_nil] at hread
  intro p
  rw [deepest, value, intText]
  split
  · rename_i hneg
    have hwhole : whole true n.natAbs = pure (.int n) := by
      have hzero : n.natAbs ≠ 0 := by omega
      have hle : n.natAbs ≤ pow2 63 := by omega
      have hn : -(n.natAbs : Int) = n := by omega
      simp only [whole, hzero, hle, hn, Bool.not_true, Bool.false_eq_true, if_false, if_true]
    rw [← List.nil_append ('-' :: _ ++ []), List.cons_append, valueWith_minus gap_nil]
    exact takes_number hbound hwhole _
  · rename_i hneg
    have hwhole : whole false n.natAbs = pure (.int n) := by
      have hn : (n.natAbs : Int) = n := by omega
      simp only [whole, hn, Bool.not_false, if_true]
    obtain ⟨⟨c, hc, hdigit⟩, -⟩ := numeral_digitsOf n.natAbs
    obtain ⟨tail, htail⟩ := List.head?_eq_some_iff.mp hc
    have hnumber := takes_number hbound hwhole
    rw [htail] at hnumber ⊢
    rw [← List.nil_append (c :: tail ++ []), List.cons_append, valueWith_digit gap_nil hdigit]
    exact hnumber _

/-! ### What a reader may answer -/

namespace Reader

variable {α β : Type}

/-- Whatever the reader answers satisfies `P`. -/
def Yields (r : Reader α) (P : α → Prop) : Prop := ∀ s a s', r s = .ok a s' → P a

namespace Yields

variable {P : α → Prop} {Q : β → Prop}

theorem pure {a : α} (h : P a) : Yields (pure a) P := by
  intro s b s' hr
  cases hr
  exact h

theorem throw (fault : Fault) : Yields (throw fault : Reader α) P := nofun

theorem failHere (cause : Cause) : Yields (failHere cause : Reader α) P := nofun

theorem failNext (cause : Cause) : Yields (failNext cause : Reader α) P := nofun

theorem failUnplaced (cause : Cause) : Yields (failUnplaced cause : Reader α) P := nofun

theorem any (r : Reader α) : Yields r fun _ => True := fun _ _ _ _ => trivial

theorem bind {r : Reader α} {f : α → Reader β} (h : Yields r P) (h' : ∀ a, P a → Yields (f a) Q) :
    Yields (r >>= f) Q := by
  intro s b s' hr
  obtain ⟨a, mid, ha, hb⟩ := exists_of_bind hr
  exact h' a (h s a mid ha) mid b s' hb

/-- What the first reader answers does not matter. -/
theorem behind {r : Reader α} {f : α → Reader β} (h : ∀ a, Yields (f a) Q) : Yields (r >>= f) Q :=
  (any r).bind fun a _ => h a

/-- Where a reader is at fault it does not answer, whatever is made of the fault. -/
theorem caught {r : Reader α} {f : Fault → Reader α} (h : Yields r P)
    (hf : ∀ fault, Yields (f fault) P) : Yields (tryCatch r f) P := by
  intro s a s' hr
  change EStateM.tryCatch r f s = _ at hr
  unfold EStateM.tryCatch at hr
  split at hr
  · exact hf _ _ a s' hr
  · exact h s a s' hr

theorem placed {r : Reader α} (h : Yields r P) : Yields (placed r) P :=
  h.caught fun fault => by
    split
    · exact throw _
    · exact failHere _

theorem closing {inside : Reader α} (h : Yields inside P) (close : Reader Unit) :
    Yields (closing close inside) P :=
  (h.caught fun fault => behind fun _ => throw fault).bind fun _ ha => behind fun _ => pure ha

theorem items {item : Reader α} (h : Yields item P) (first : Bool) (fuel : Nat) :
    Yields (items item first fuel) fun as => ∀ a ∈ as, P a := by
  induction fuel generalizing first with
  | zero => exact pure nofun
  | succ fuel ih =>
      refine behind fun more => ?_
      split
      · exact h.bind fun a ha => (ih false).bind fun as has =>
          pure (List.forall_mem_cons.mpr ⟨ha, has⟩)
      · exact pure nofun

theorem allItems {item : Reader α} (h : Yields item P) (first : Bool) :
    Yields (allItems item first) fun as => ∀ a ∈ as, P a :=
  behind fun _ => h.items first _

/-- What every key keeps, the whole object keeps. -/
theorem fields {σ : Type} {I : σ → Prop} {step : σ → String → Reader σ}
    (hstep : ∀ s name, I s → Yields (step s name) I) (first : Bool) (fuel : Nat) {s : σ}
    (hs : I s) : Yields (fields step first fuel s) I := by
  induction fuel generalizing first s with
  | zero => exact pure hs
  | succ fuel ih =>
      refine behind fun more => ?_
      split
      · exact behind fun name => (hstep s name hs).bind fun s' hs' => ih false hs'
      · exact pure hs

theorem allFields {σ : Type} {I : σ → Prop} {step : σ → String → Reader σ}
    (hstep : ∀ s name, I s → Yields (step s name) I) {s : σ} (hs : I s) :
    Yields (allFields step s) I :=
  behind fun _ => fields hstep true _ hs

theorem readAll {r : Reader α} (h : Yields r P) {text : String} {a : α}
    (ha : readAll r text = .ok a) : P a := by
  unfold Reader.readAll at ha
  split at ha
  · rename_i hr
    cases ha
    obtain ⟨b, mid, hb, hend⟩ := exists_of_bind hr
    obtain ⟨u, last, -, hp⟩ := exists_of_bind hend
    cases hp
    exact h _ _ mid hb
  · cases ha

end Yields

/-! ### The whole numbers that are read -/

/-- If the value is a whole number, a word holds it. -/
def IsMeasured : Json → Prop
  | .int n => IsWord n
  | _ => True

theorem yields_floating (negative : Bool) (digits : Nat) (power : Int) :
    Yields (floating negative digits power) IsMeasured := by
  unfold floating
  dsimp only
  split
  · exact .pure trivial
  · exact .failHere _

theorem yields_whole (negative : Bool) {n : Nat} (h : n < pow2 64) :
    Yields (whole negative n) IsMeasured := by
  unfold whole
  split
  · exact .pure ⟨by omega, by omega⟩
  split
  · exact .pure trivial
  split
  · exact .pure ⟨by omega, by omega⟩
  · exact yields_floating true n 0

theorem yields_scaled (negative : Bool) (digits : Nat) (power : Int) {plain : Reader Json}
    (h : Yields plain IsMeasured) : Yields (scaled negative digits power plain) IsMeasured := by
  refine .behind fun next => ?_
  split
  · exact .behind fun exponent => yields_floating _ _ _
  · exact .behind fun exponent => yields_floating _ _ _
  · exact h

theorem yields_fractional (negative : Bool) (n left : Nat) :
    Yields (fractional negative n left) IsMeasured := by
  refine .behind fun _ => .behind fun fraction => ?_
  generalize held n fraction = both
  obtain ⟨m, dropped⟩ := both
  have hrest : ∀ power, Yields (scaled negative m power (floating negative m power)) IsMeasured :=
    fun power => yields_scaled negative m power (yields_floating negative m power)
  dsimp only
  split
  · refine .behind fun next => ?_
    split
    · exact .behind fun _ => hrest _
    · exact .behind fun _ => hrest _
  · exact hrest _

theorem yields_number (negative : Bool) : Yields (number negative) IsMeasured := by
  refine .behind fun digits => .behind fun next => ?_
  split
  · exact yields_fractional _ _ _
  · refine yields_scaled _ _ _ ?_
    split
    · exact yields_whole _ (held_fst_lt (by decide) digits)
    · exact yields_floating _ _ _

/-- **A whole number that is read is one that a word holds.** -/
theorem yields_value (room : Nat) : Yields (value room) IsMeasured := by
  have hwith : ∀ {list object : Reader Json}, Yields list IsMeasured → Yields object IsMeasured →
      Yields (valueWith list object) IsMeasured := by
    intro list object hlist hobject
    refine .behind fun next => ?_
    split
    · exact .failHere _
    iterate 3 exact .behind fun _ => .behind fun _ => .pure trivial
    · exact .behind fun _ => yields_number true
    · exact .behind fun text => .pure trivial
    · exact hlist
    · exact hobject
    · split
      · exact yields_number false
      · exact .failNext _
  cases room with
  | zero => exact hwith (.failNext _) (.failNext _)
  | succ room =>
      exact hwith (.behind fun _ => .behind fun items => .pure trivial)
        (.behind fun _ => .behind fun fields => .pure trivial)

end Reader

end Dialogue.Json
