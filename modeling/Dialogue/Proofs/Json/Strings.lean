import Dialogue.Proofs.Json.Reading

/-!
# Strings are read back

A string is written character by character, some of them escaped, and each escape is read as the
character it stands for (`takes_char`).  So the text of a string is read as that string, whatever
it holds and whatever is behind it (`takes_string`).
-/

namespace Dialogue.Json.Reader

variable {rest : List Char}

/-! ### Escapes -/

/-- A control character is written by the hexadecimal digits of its number. -/
theorem hexValues?_hexDigits :
    ∀ n < 32, hexValues? ['0', '0', hexDigit (n / 16), hexDigit (n % 16)] = some n := by
  decide

theorem utf8Size_hexDigit : ∀ n < 16, (hexDigit n).utf8Size = 1 := by
  decide

theorem takes_fourHexDigits {n : Nat} (h : n < 32) (rest : List Char) :
    Takes fourHexDigits ['0', '0', hexDigit (n / 16), hexDigit (n % 16)] rest n := by
  have hhigh := utf8Size_hexDigit (n / 16) (by omega)
  have hlow := utf8Size_hexDigit (n % 16) (by omega)
  refine .get fun p q => ?_
  split
  · rename_i hshort
    simp only [List.cons_append, List.nil_append, List.take_succ_cons, List.take_zero,
      List.foldl_cons, List.foldl_nil, hhigh, hlow] at hshort
    exact absurd hshort (by decide)
  · simp only [List.cons_append, List.nil_append, List.take_succ_cons, List.take_zero,
      hexValues?_hexDigits n h]
    rfl

/-- A control character is no surrogate, so its four digits are all of it. -/
theorem takes_unicodeEscape {c : Char} (h : c.toNat < 32) (rest : List Char) :
    Takes unicodeEscape ['0', '0', hexDigit (c.toNat / 16), hexDigit (c.toNat % 16)] rest c := by
  refine (takes_fourHexDigits h rest).done ?_
  have hlow : ¬ 0xDC00 ≤ c.toNat := by omega
  have hhigh : c.toNat < 0xD800 := by omega
  simp only [hlow, hhigh, decide_false, decide_true, Bool.false_and, Bool.true_or,
    Bool.false_eq_true, if_false, if_true, Char.ofNat_toNat]
  exact .pure c rest

theorem takes_simpleEscape {c d : Char} (hu : c ≠ 'u') (h : simpleEscape? c = some d)
    (rest : List Char) : Takes escape [c] rest d := by
  refine .step ?_
  split
  · contradiction
  · rename_i e
    exact absurd (Option.some.inj e) hu
  · rename_i e
    cases e
    rw [h]
    exact .skip (.pure d rest)

/-! ### Characters of a string -/

section Characters

variable {text cs : List Char} {fuel : Nat}

/-- A character that stands for itself. -/
theorem takes_plainChar {c : Char} (hq : c ≠ '"') (hb : c ≠ '\\') (hc : ¬ c.toNat < 0x20)
    (h : Takes (stringChars fuel) text rest cs) :
    Takes (stringChars (fuel + 1)) (c :: text) rest (c :: cs) := by
  refine .step ?_
  split
  · contradiction
  · rename_i e
    exact absurd (Option.some.inj e) hq
  · rename_i e
    exact absurd (Option.some.inj e) hb
  · rename_i e
    cases e
    rw [if_neg hc]
    exact .skip (h.done (.pure _ rest))

theorem takes_escaped {c : Char} {code : List Char} (he : Takes escape code (text ++ rest) c)
    (h : Takes (stringChars fuel) text rest cs) :
    Takes (stringChars (fuel + 1)) ('\\' :: code ++ text) rest (c :: cs) :=
  .step (.skip (he.bind (h.done (.pure _ rest))))

/-- **A character is read as it was written**, escaped or not. -/
theorem takes_char (c : Char) (h : Takes (stringChars fuel) text rest cs) :
    Takes (stringChars (fuel + 1)) (escapedChar c ++ text) rest (c :: cs) := by
  unfold escapedChar
  split
  case h_8 hq hb _ _ _ _ _ =>
    split
    · rename_i hc
      exact takes_escaped (.step (.skip (takes_unicodeEscape hc _))) h
    · rename_i hc
      exact takes_plainChar hq hb hc h
  all_goals exact takes_escaped (takes_simpleEscape (by decide) rfl _) h

end Characters

/-! ### Strings -/

theorem takes_stringChars (cs rest : List Char) {fuel : Nat} (hf : cs.length < fuel) :
    Takes (stringChars fuel) (cs.flatMap escapedChar ++ ['"']) rest cs := by
  induction cs generalizing fuel with
  | nil =>
      obtain ⟨fuel, rfl⟩ := Nat.exists_eq_add_of_lt hf
      exact .step (.skip (.pure [] rest))
  | cons c cs ih =>
      obtain ⟨fuel, rfl⟩ := Nat.exists_eq_add_of_lt hf
      rw [List.flatMap_cons, List.append_assoc]
      exact takes_char c (ih (by simp only [List.length_cons]; omega))

/-- Every character is written, so the length of the text bounds the loop. -/
theorem length_le_flatMap_escapedChar (cs : List Char) :
    cs.length ≤ (cs.flatMap escapedChar).length := by
  induction cs with
  | nil => exact Nat.le_refl _
  | cons c cs ih =>
      have hc : 0 < (escapedChar c).length := by
        unfold escapedChar
        repeat' split
        all_goals exact Nat.succ_pos _
      simp only [List.flatMap_cons, List.length_append, List.length_cons]
      omega

theorem takes_string (s : String) (rest : List Char) : Takes string (stringText s) rest s := by
  refine .skip (.get fun p => ?_)
  have hf : s.toList.length < (s.toList.flatMap escapedChar ++ ['"'] ++ rest).length + 1 := by
    have := length_le_flatMap_escapedChar s.toList
    simp only [List.length_append, List.length_cons]
    omega
  refine (takes_stringChars s.toList rest hf).done ?_
  rw [String.ofList_toList]
  exact .pure s rest

end Dialogue.Json.Reader
