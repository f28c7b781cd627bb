import Dialogue.Json.Reader

/-!
# What a reader takes

A reader that succeeds has taken some text and left the rest.  `Takes r text rest a` says so of a
reader and a text with `rest` behind it: wherever the text stands, `r` takes it, answers `a` and
leaves `rest`.  What is behind the text belongs to the statement, for readers look one character
ahead.

The relation is closed under the ways in which readers are put together (`Takes.bind`,
`Takes.placed`, `Takes.closing`), and this module has a rule for each of the small readers that
blanks, words, commas, colons and brackets are read with.
-/

namespace Dialogue.Json

/-- The place after some characters. -/
def Place.past (p : Place) (text : List Char) : Place := text.foldl Place.after p

namespace Reader

variable {α β : Type} {text rest : List Char} {a : α} {b : β}

/-- The reader takes `text`, with `rest` behind it, and answers `a`. -/
def Takes (r : Reader α) (text rest : List Char) (a : α) : Prop :=
  ∀ p : Place, r ⟨text ++ rest, p⟩ = .ok a ⟨rest, p.past text⟩

namespace Takes

theorem pure (a : α) (rest : List Char) : Takes (pure a) [] rest a := fun _ => rfl

theorem run_bind {r : Reader α} (h : Takes r text rest a) (f : α → Reader β) (p : Place) :
    (r >>= f) ⟨text ++ rest, p⟩ = f a ⟨rest, p.past text⟩ := by
  show EStateM.bind r f _ = _
  rw [EStateM.bind, h p]

theorem bind {r : Reader α} {f : α → Reader β} {first second : List Char}
    (h : Takes r first (second ++ rest) a) (h' : Takes (f a) second rest b) :
    Takes (r >>= f) (first ++ second) rest b := by
  intro p
  have hp : p.past (first ++ second) = (p.past first).past second := List.foldl_append
  rw [List.append_assoc, h.run_bind f p, h' _, hp]

/-- The first reader only looks ahead. -/
theorem ahead {r : Reader α} {f : α → Reader β} (h : Takes r [] (text ++ rest) a)
    (h' : Takes (f a) text rest b) : Takes (r >>= f) text rest b :=
  h.bind h'

/-- The second reader takes nothing. -/
theorem done {r : Reader α} {f : α → Reader β} (h : Takes r text rest a)
    (h' : Takes (f a) [] rest b) : Takes (r >>= f) text rest b := by
  have h2 : Takes (r >>= f) (text ++ []) rest b := h.bind h'
  rwa [List.append_nil] at h2

/-- Nothing hangs on how many characters are left. -/
theorem get {f : Cursor → Reader α} (h : ∀ p, Takes (f ⟨text ++ rest, p⟩) text rest a) :
    Takes (MonadState.get >>= f) text rest a :=
  fun p => h p p

theorem placed {r : Reader α} (h : Takes r text rest a) : Takes (placed r) text rest a := by
  intro p
  show EStateM.tryCatch r _ _ = _
  delta EStateM.tryCatch
  simp only [h p]

theorem closing {close : Reader Unit} {inside : Reader α} {bracket : List Char}
    (h : Takes inside text (bracket ++ rest) a) (hc : Takes close bracket rest ()) :
    Takes (closing close inside) (text ++ bracket) rest a := by
  refine Takes.bind (a := a) (fun p => ?_) (hc.done (.pure a rest))
  show EStateM.tryCatch inside _ _ = _
  delta EStateM.tryCatch
  simp only [h p]

end Takes

/-! ### Characters -/

theorem takes_peek? (rest : List Char) : Takes peek? [] rest rest.head? := fun _ => rfl

theorem takes_skip (c : Char) (rest : List Char) : Takes skip [c] rest () := fun _ => rfl

/-- The next character is known, and taken. -/
theorem Takes.step {f : Option Char → Reader α} {c : Char}
    (h : Takes (f (some c)) (c :: text) rest a) : Takes (peek? >>= f) (c :: text) rest a :=
  (takes_peek? _).ahead h

theorem Takes.skip {f : Unit → Reader α} {c : Char} (h : Takes (f ()) text rest a) :
    Takes (skip >>= f) (c :: text) rest a :=
  (takes_skip c _).bind h

theorem takes_word (text rest : List Char) : Takes (word text) text rest () := by
  induction text with
  | nil => exact .pure () rest
  | cons c cs ih =>
      refine .step ?_
      simp only [if_true]
      exact .skip ih

/-! ### Blanks -/

/-- Blanks and line breaks only. -/
def Gap (text : List Char) : Prop := ∀ c ∈ text, isGap c = true

theorem gap_nil : Gap [] := nofun

theorem pastGap_append {gap : List Char} (hg : Gap gap) {c : Char} (hc : isGap c = false)
    (rest : List Char) (p : Place) :
    Cursor.pastGap p (gap ++ c :: rest) = ⟨c :: rest, p.past gap⟩ := by
  induction gap generalizing p with
  | nil => simp [Cursor.pastGap, hc, Place.past]
  | cons d gap ih =>
      have hd : isGap d = true := hg d List.mem_cons_self
      have hgap : Gap gap := fun e he => hg e (List.mem_cons_of_mem d he)
      simp only [List.cons_append, Cursor.pastGap, hd, if_true, ih hgap]
      rfl

theorem takes_next? {gap : List Char} (hg : Gap gap) {c : Char} (hc : isGap c = false)
    (rest : List Char) : Takes next? gap (c :: rest) (some c) := by
  refine Takes.done (a := ()) (fun p => ?_) (takes_peek? _)
  exact congrArg (EStateM.Result.ok ()) (pastGap_append hg hc rest p)

/-- The next character behind a gap is known, and taken. -/
theorem Takes.next {f : Option Char → Reader α} {gap : List Char} {c : Char} (hg : Gap gap)
    (hc : isGap c = false) (h : Takes (f (some c)) (c :: text) rest a) :
    Takes (next? >>= f) (gap ++ c :: text) rest a :=
  (takes_next? hg hc _).bind h

/-- The next character behind a gap is looked at and stays. -/
theorem Takes.nextAhead {f : Option Char → Reader α} {gap : List Char} {c : Char} (hg : Gap gap)
    (hc : isGap c = false) (h : Takes (f (some c)) [] (c :: rest) a) :
    Takes (next? >>= f) gap (c :: rest) a :=
  (takes_next? hg hc _).done h

theorem pastGap_gap {gap : List Char} (hg : Gap gap) (p : Place) :
    Cursor.pastGap p gap = ⟨[], p.past gap⟩ := by
  induction gap generalizing p with
  | nil => rfl
  | cons d gap ih =>
      have hd : isGap d = true := hg d List.mem_cons_self
      have hgap : Gap gap := fun e he => hg e (List.mem_cons_of_mem d he)
      simp only [Cursor.pastGap, hd, if_true, ih hgap]
      rfl

theorem takes_endText {gap : List Char} (hg : Gap gap) : Takes endText gap [] () := by
  have hnext : Takes next? gap [] none := by
    refine Takes.done (a := ()) (fun p => ?_) (takes_peek? [])
    rw [List.append_nil]
    exact congrArg (EStateM.Result.ok ()) (pastGap_gap hg p)
  exact hnext.done (.pure () [])

/-- What is taken up to some last blanks is read of the whole text. -/
theorem Takes.readAll {r : Reader α} {gap : List Char} (h : Takes r text gap a) (hg : Gap gap) :
    readAll r (.ofList (text ++ gap)) = .ok a := by
  have hall : Takes (do let a ← r; endText; return a) (text ++ gap) [] a := by
    refine Takes.bind (a := a) ?_ ((takes_endText hg).done (.pure a []))
    rw [List.append_nil]
    exact h
  have hrun := hall ⟨1, 0⟩
  rw [List.append_nil] at hrun
  unfold Reader.readAll
  rw [String.toList_ofList, hrun]

/-! ### Commas, colons and brackets -/

section Brackets

variable {gap : List Char}

theorem takes_colon (rest : List Char) : Takes colon [':'] rest () :=
  .next gap_nil (by decide) (takes_skip ':' rest)

theorem takes_endList (hg : Gap gap) (rest : List Char) : Takes endList (gap ++ [']']) rest () :=
  .next hg (by decide) (takes_skip ']' rest)

theorem takes_endObject (hg : Gap gap) (rest : List Char) :
    Takes endObject (gap ++ ['\x7d']) rest () :=
  .next hg (by decide) (takes_skip '\x7d' rest)

/-- What a value, a bracket or a comma can begin with. -/
def Begins (c : Char) : Prop := isGap c = false ∧ c ≠ ']' ∧ c ≠ '\x7d'

theorem takes_hasItem_first (hg : Gap gap) {c : Char} (hc : Begins c) (rest : List Char) :
    Takes (hasItem true) gap (c :: rest) true := by
  refine .nextAhead hg hc.1 ?_
  split
  · contradiction
  · rename_i h
    exact absurd (Option.some.inj h) hc.2.1
  · exact .pure true _

theorem takes_hasItem_next (hg : Gap gap) {c : Char} (hc : Begins c) (rest : List Char) :
    Takes (hasItem false) (',' :: gap) (c :: rest) true := by
  refine .next gap_nil (by decide) (.skip (.nextAhead hg hc.1 ?_))
  split
  · rename_i h
    exact absurd (Option.some.inj h) hc.2.1
  · exact .pure true _
  · contradiction

theorem takes_hasItem_end (hg : Gap gap) (first : Bool) (rest : List Char) :
    Takes (hasItem first) gap (']' :: rest) false :=
  .nextAhead hg (by decide) (.pure false _)

theorem takes_hasKey_first (hg : Gap gap) (rest : List Char) :
    Takes (hasKey true) gap ('"' :: rest) true :=
  .nextAhead hg (by decide) (.pure true _)

theorem takes_hasKey_next (hg : Gap gap) (rest : List Char) :
    Takes (hasKey false) (',' :: gap) ('"' :: rest) true :=
  .next gap_nil (by decide) (.skip (.nextAhead hg (by decide) (.pure true _)))

theorem takes_hasKey_end (hg : Gap gap) (first : Bool) (rest : List Char) :
    Takes (hasKey first) gap ('\x7d' :: rest) false :=
  .nextAhead hg (by decide) (.pure false _)

end Brackets

end Reader

end Dialogue.Json
