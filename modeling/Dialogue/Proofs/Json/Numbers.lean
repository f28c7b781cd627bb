import Dialogue.Proofs.Json.Reading

/-!
# Numbers are read to a delimiter

A number is read up to the first character that it cannot go on with, so what is behind it must
not be such a character (`Delimited`).  Nothing else hangs on what is behind: either the whole
text is taken before every delimiter, or its end is missed (`Decided`, `decided_number`).
-/

namespace Dialogue.Json.Reader

variable {α β : Type} {text rest : List Char} {a : α}

/-! ### Texts that are not taken -/

/-- The reader is at fault on the text. -/
def Fails (r : Reader α) (text : List Char) : Prop := ∀ p a s, r ⟨text, p⟩ ≠ .ok a s

/-- The reader does not come to the end of the text. -/
def Misses (r : Reader α) (text : List Char) : Prop :=
  ∀ p a s, r ⟨text, p⟩ = .ok a s → ¬ Gap s.rest

/-- No character of the text is a blank. -/
def Solid (text : List Char) : Prop := ∀ c ∈ text, isGap c = false

theorem fails_failHere (cause : Cause) : Fails (failHere cause : Reader α) text := nofun

theorem fails_failNext (cause : Cause) : Fails (failNext cause : Reader α) text := nofun

/-- What two readers answer together, the first has answered before. -/
theorem exists_of_bind {r : Reader α} {f : α → Reader β} {s s' : Cursor} {b : β}
    (h : (r >>= f) s = .ok b s') : ∃ a mid, r s = .ok a mid ∧ f a mid = .ok b s' := by
  change EStateM.bind r f s = _ at h
  rw [EStateM.bind] at h
  split at h
  · exact ⟨_, _, ‹_›, h⟩
  · cases h

namespace Fails

theorem misses {r : Reader α} (h : Fails r text) : Misses r text :=
  fun p a s hr => absurd hr (h p a s)

theorem first {r : Reader α} {f : α → Reader β} (h : Fails r text) : Fails (r >>= f) text := by
  intro p b s hs
  obtain ⟨a, mid, hr, -⟩ := exists_of_bind hs
  exact h p a mid hr

theorem behind {r : Reader α} {f : α → Reader β} {front : List Char} (h : Takes r front text a)
    (h' : Fails (f a) text) : Fails (r >>= f) (front ++ text) := by
  intro p
  rw [h.run_bind f p]
  exact h' _

theorem step {f : Option Char → Reader α} (h : Fails (f text.head?) text) :
    Fails (peek? >>= f) text :=
  behind (takes_peek? text) h

theorem skip {f : Unit → Reader α} {c : Char} (h : Fails (f ()) text) :
    Fails (skip >>= f) (c :: text) :=
  behind (takes_skip c text) h

theorem get {f : Cursor → Reader α} (h : ∀ p, Fails (f ⟨text, p⟩) text) :
    Fails (MonadState.get >>= f) text :=
  fun p => h p p

end Fails

theorem Misses.behind {r : Reader α} {f : α → Reader β} {front : List Char}
    (h : Takes r front text a) (h' : Misses (f a) text) : Misses (r >>= f) (front ++ text) := by
  intro p
  rw [h.run_bind f p]
  exact h' _

/-- A reader that stops in front of anything but a blank misses the end. -/
theorem Takes.misses {r : Reader α} {c : Char} (h : Takes r text (c :: rest) a)
    (hc : isGap c = false) : Misses r (text ++ c :: rest) := by
  intro p b s hs hg
  rw [h p] at hs
  cases hs
  rw [hg c List.mem_cons_self] at hc
  cases hc

/-- A reader that takes nothing: it answers wherever it is, or fails wherever it is. -/
def Settled (r : Reader α) : Prop := (∃ a, ∀ rest, Takes r [] rest a) ∨ ∀ text, Fails r text

theorem Settled.misses {r : Reader α} (h : Settled r) {c : Char} (hc : isGap c = false) :
    Misses r (c :: rest) := by
  rcases h with ⟨a, h⟩ | h
  · exact (h (c :: rest)).misses hc
  · exact (h _).misses

/-! ### Delimiters -/

/-- No digit comes next. -/
def NoDigit (rest : List Char) : Prop := ∀ c ∈ rest.head?, c.isDigit = false

theorem NoDigit.append {front back : List Char} (hf : NoDigit front) (hb : NoDigit back) :
    NoDigit (front ++ back) := by
  cases front with
  | nil => exact hb
  | cons c front =>
      intro d hd
      exact hf d hd

/-- Nothing comes next that a number could go on with. -/
def Delimited (rest : List Char) : Prop :=
  ∀ c ∈ rest.head?, c.isDigit = false ∧ c ≠ '.' ∧ c ≠ 'e' ∧ c ≠ 'E'

theorem delimited_nil : Delimited [] := nofun

theorem Delimited.noDigit (h : Delimited rest) : NoDigit rest := fun c hc => (h c hc).1

/-- Whether the whole text is taken, and as what, does not hang on the delimiter behind it. -/
def Decided (r : Reader α) (text : List Char) : Prop :=
  (∃ a, ∀ rest, Delimited rest → Takes r text rest a) ∨ Misses r text

namespace Decided

/-- A text that is taken by itself is taken before every delimiter. -/
theorem takes {r : Reader α} (h : Decided r text) {p : Place} {s : Cursor}
    (hr : r ⟨text, p⟩ = .ok a s) (hs : Gap s.rest) (hd : Delimited rest) :
    Takes r text rest a := by
  rcases h with ⟨b, h⟩ | h
  · have hb := h [] delimited_nil p
    rw [List.append_nil, hr] at hb
    cases hb
    exact h rest hd
  · exact absurd hs (h p a s hr)

/-- What the reader takes ends before the first character that is no digit. -/
theorem of_takes {r : Reader α} {front back : List Char}
    (h : ∀ rest, NoDigit rest → Takes r front rest a) (hb : NoDigit back) (hs : Solid back) :
    Decided r (front ++ back) := by
  cases back with
  | nil => exact .inl ⟨a, fun rest hr => by rw [List.append_nil]; exact h rest hr.noDigit⟩
  | cons c back => exact .inr ((h _ hb).misses (hs c List.mem_cons_self))

theorem bind {r : Reader α} {f : α → Reader β} {front : List Char}
    (h : ∀ rest, Delimited rest → Takes r front (text ++ rest) a) (h' : Decided (f a) text) :
    Decided (r >>= f) (front ++ text) := by
  rcases h' with ⟨b, h'⟩ | h'
  · exact .inl ⟨b, fun rest hr => (h rest hr).bind (h' rest hr)⟩
  · have := h [] delimited_nil
    rw [List.append_nil] at this
    exact .inr (.behind this h')

theorem step {f : Option Char → Reader β} {c : Char} (h : Decided (f (some c)) (c :: text)) :
    Decided (peek? >>= f) (c :: text) :=
  bind (fun rest _ => takes_peek? (c :: text ++ rest)) h

theorem skip {f : Unit → Reader β} {c : Char} (h : Decided (f ()) text) :
    Decided (skip >>= f) (c :: text) :=
  bind (fun _ _ => takes_skip c _) h

/-- The second reader does not move. -/
theorem bind_settled {r : Reader α} {f : α → Reader β} (h : Decided r text)
    (hf : ∀ a, Settled (f a)) : Decided (r >>= f) text := by
  rcases h with ⟨a, h⟩ | h
  · rcases hf a with ⟨b, hb⟩ | hb
    · exact .inl ⟨b, fun rest hr => (h rest hr).done (hb rest)⟩
    · have := Fails.behind (h [] delimited_nil) (hb [])
      rw [List.append_nil] at this
      exact .inr this.misses
  · refine .inr fun p b s hs => ?_
    obtain ⟨a, mid, hr, he⟩ := exists_of_bind hs
    rcases hf a with ⟨b', hb⟩ | hb
    · have hmid : f a mid = .ok b' mid := hb mid.rest mid.place
      rw [hmid] at he
      cases he
      exact h p a s hr
    · exact absurd he (hb mid.rest mid.place b s)

end Decided

/-! ### Digits -/

theorem exists_digits (text : List Char) :
    ∃ ds back, text = ds ++ back ∧ (∀ c ∈ ds, c.isDigit = true) ∧ NoDigit back := by
  refine ⟨text.takeWhile Char.isDigit, text.dropWhile Char.isDigit,
    List.takeWhile_append_dropWhile.symm, fun c hc => ?_, fun c hc => ?_⟩
  · exact List.all_eq_true.mp List.all_takeWhile c hc
  · have := List.head?_dropWhile_not Char.isDigit text
    rw [hc] at this
    exact this

/-- A reader that goes on with digits only stops here. -/
theorem takes_stop {f : Option Char → Reader α} (hr : NoDigit rest)
    (hf : ∀ next : Option Char, (∀ c ∈ next, c.isDigit = false) → f next = pure a) :
    Takes (peek? >>= f) [] rest a := by
  refine (takes_peek? rest).ahead ?_
  rw [hf rest.head? hr]
  exact .pure a rest

section Digits

variable {ds : List Char} (hd : ∀ c ∈ ds, c.isDigit = true)
include hd

theorem takes_digits (hr : NoDigit rest) {fuel : Nat} (hf : ds.length ≤ fuel) :
    Takes (digits fuel) ds rest ds := by
  induction ds generalizing fuel with
  | nil =>
      cases fuel with
      | zero => exact .pure [] rest
      | succ fuel =>
          refine takes_stop hr fun next hn => ?_
          cases next with
          | none => rfl
          | some c => simp [hn c rfl]
  | cons c ds ih =>
      obtain ⟨hc, hds⟩ := List.forall_mem_cons.mp hd
      obtain ⟨fuel, rfl⟩ := Nat.exists_eq_add_of_lt hf
      refine .step ?_
      simp only [hc, if_true]
      exact .skip ((ih hds (by omega)).done (.pure _ rest))

theorem takes_allDigits (hr : NoDigit rest) : Takes allDigits ds rest ds :=
  .get fun _ => takes_digits hd hr (by simp)

/-- Whether digits are a whole part hangs on them alone. -/
theorem wholeDigits_takes_or_fails :
    (∀ rest, NoDigit rest → Takes wholeDigits ds rest ds) ∨
      ∀ rest, NoDigit rest → Fails wholeDigits (ds ++ rest) := by
  rcases ds with _ | ⟨c, ds⟩
  · refine .inr fun rest hr => .step ?_
    rcases rest with _ | ⟨c, rest⟩
    · exact fails_failHere _
    · have hc : c.isDigit = false := hr c rfl
      have h0 : c ≠ '0' := fun e => by rw [e] at hc; cases hc
      simp only [List.nil_append, List.head?_cons, hc, Bool.false_eq_true, if_false]
      exact fails_failNext _
  · obtain ⟨hc, hds⟩ := List.forall_mem_cons.mp hd
    by_cases h0 : c = '0'
    · subst h0
      rcases ds with _ | ⟨d, ds⟩
      · refine .inl fun rest hr => .step (.skip (takes_stop hr fun next hn => ?_))
        cases next with
        | none => rfl
        | some c => simp [hn c rfl]
      · refine .inr fun rest _ => .step (.skip (.step ?_))
        show Fails (if d.isDigit then failNext .invalidNumber else pure ['0']) _
        rw [if_pos (hds d List.mem_cons_self)]
        exact fails_failNext _
    · refine .inl fun rest hr => .step ?_
      split
      · contradiction
      · rename_i e
        exact absurd (Option.some.inj e) h0
      · rename_i e
        cases e
        rw [hc]
        exact takes_allDigits hd hr

/-- Whether digits are an exponent hangs on them alone, and not on how many turns are allowed. -/
theorem exponentDigits_takes_or_fails (tooLarge : Bool) (n : Nat) :
    (∃ k, ∀ rest fuel, NoDigit rest → ds.length ≤ fuel →
      Takes (exponentDigits tooLarge fuel n) ds rest k) ∨
    ∀ rest fuel, ds.length ≤ fuel → Fails (exponentDigits tooLarge fuel n) (ds ++ rest) := by
  induction ds generalizing n with
  | nil =>
      refine .inl ⟨n, fun rest fuel hr _ => ?_⟩
      cases fuel with
      | zero => exact .pure n rest
      | succ fuel =>
          refine takes_stop hr fun next hn => ?_
          cases next with
          | none => rfl
          | some c => simp [hn c rfl]
  | cons c ds ih =>
      obtain ⟨hc, hds⟩ := List.forall_mem_cons.mp hd
      let m := 10 * n + (c.toNat - '0'.toNat)
      by_cases hl : tooLarge && largestExponent < m
      · refine .inr fun rest fuel hf => ?_
        obtain ⟨fuel, rfl⟩ := Nat.exists_eq_add_of_lt hf
        refine .step ?_
        simp only [List.cons_append, List.head?_cons, hc, if_true]
        refine .skip ?_
        rw [if_pos hl]
        exact .first (fails_failHere _)
      · rcases ih hds (min m (largestExponent + 1)) with ⟨k, h⟩ | h
        · refine .inl ⟨k, fun rest fuel hr hf => ?_⟩
          obtain ⟨fuel, rfl⟩ := Nat.exists_eq_add_of_lt hf
          refine .step ?_
          simp only [hc, if_true]
          refine .skip ?_
          rw [if_neg hl]
          exact h rest _ hr (by omega)
        · refine .inr fun rest fuel hf => ?_
          obtain ⟨fuel, rfl⟩ := Nat.exists_eq_add_of_lt hf
          refine .step ?_
          simp only [List.cons_append, List.head?_cons, hc, if_true]
          refine .skip ?_
          rw [if_neg hl]
          exact h rest _ (by omega)

end Digits

/-! ### Numbers -/

theorem settled_floating (negative : Bool) (digits : Nat) (power : Int) :
    Settled (floating negative digits power) := by
  unfold floating
  dsimp only
  split
  · exact .inl ⟨_, .pure _⟩
  · exact .inr fun _ => fails_failHere _

theorem settled_whole (negative : Bool) (n : Nat) : Settled (whole negative n) := by
  unfold whole
  repeat' split
  · exact .inl ⟨_, .pure _⟩
  · exact .inl ⟨_, .pure _⟩
  · exact .inl ⟨_, .pure _⟩
  · exact settled_floating true n 0

theorem decided_exponentValue (isZero negative : Bool) (ht : Solid text) :
    Decided (exponentValue isZero negative) text := by
  obtain ⟨ds, back, rfl, hd, hb⟩ := exists_digits text
  have hback : Solid back := fun c hc => ht c (List.mem_append_right ds hc)
  cases ds with
  | nil =>
      refine .inr (Fails.misses (.step ?_))
      cases back with
      | nil => exact fails_failHere _
      | cons c back =>
          have hc : c.isDigit = false := hb c rfl
          simp only [List.nil_append, List.head?_cons, hc, Bool.false_eq_true, if_false]
          exact fails_failNext _
  | cons c ds =>
      have hc : c.isDigit = true := hd c List.mem_cons_self
      rcases exponentDigits_takes_or_fails hd (!isZero && !negative) 0 with ⟨k, h⟩ | h
      · refine .of_takes (a := if negative then -(k : Int) else k) (fun rest hr => .step ?_) hb hback
        simp only [hc, if_true]
        exact .get fun p => (h rest _ hr (by simp)).done (.pure _ rest)
      · refine .inr (Fails.misses (.step ?_))
        simp only [List.cons_append, List.head?_cons, hc, if_true]
        exact .get fun p => (h back _ (by simp)).first

theorem decided_exponent (isZero : Bool) (c : Char) (ht : Solid text) :
    Decided (exponent isZero) (c :: text) := by
  refine .skip ?_
  cases text with
  | nil =>
      -- behind nothing there is no sign and no digit
      have hsign : Takes exponentSign [] [] false := fun _ => rfl
      exact .inr (Fails.misses (.behind hsign (.step (fails_failHere _))))
  | cons c text =>
      have htail : Solid text := fun d hd => ht d (List.mem_cons_of_mem c hd)
      by_cases hplus : c = '+'
      · subst hplus
        have hsign : ∀ rest, Takes exponentSign ['+'] rest false :=
          fun rest => .step (.skip (.pure false rest))
        exact .bind (fun rest _ => hsign _) (decided_exponentValue isZero false htail)
      · by_cases hminus : c = '-'
        · subst hminus
          have hsign : ∀ rest, Takes exponentSign ['-'] rest true :=
            fun rest => .step (.skip (.pure true rest))
          exact .bind (fun rest _ => hsign _) (decided_exponentValue isZero true htail)
        · have hsign : ∀ rest, Takes exponentSign [] (c :: rest) false := ?_
          · exact .bind (fun rest _ => hsign (text ++ rest))
              (decided_exponentValue isZero false ht)
          refine fun rest => (takes_peek? _).ahead ?_
          split
          · rename_i e
            exact absurd (Option.some.inj e) hplus
          · rename_i e
            exact absurd (Option.some.inj e) hminus
          · exact .pure false _

theorem decided_scaled (negative : Bool) (n : Nat) (power : Int) {plain : Reader Json}
    (hp : Settled plain) (ht : Solid text) : Decided (scaled negative n power plain) text := by
  cases text with
  | nil =>
      rcases hp with ⟨v, hv⟩ | hf
      · refine .inl ⟨v, fun rest hr => (takes_peek? rest).ahead ?_⟩
        split
        · rename_i e
          exact absurd rfl (hr _ e).2.2.1
        · rename_i e
          exact absurd rfl (hr _ e).2.2.2
        · exact hv rest
      · exact .inr (Fails.misses (.step (hf [])))
  | cons c tail =>
      have hexp : Decided (do floating negative n ((← exponent (n == 0)) + power)) (c :: tail) :=
        (decided_exponent _ c fun d hd => ht d (List.mem_cons_of_mem c hd)).bind_settled
          fun k => settled_floating negative n (k + power)
      refine .step ?_
      split
      · exact hexp
      · exact hexp
      · exact .inr (hp.misses (ht c List.mem_cons_self))

theorem decided_fractional (negative : Bool) (n left : Nat) (ht : Solid text) :
    Decided (fractional negative n left) ('.' :: text) := by
  obtain ⟨ds, back, rfl, hd, hb⟩ := exists_digits text
  have hback : Solid back := fun c hc => ht c (List.mem_append_right ds hc)
  refine .skip (.bind (fun rest hr => takes_allDigits hd (hb.append hr.noDigit)) ?_)
  cases ds with
  | nil =>
      refine .inr (Fails.misses (.step ?_))
      cases back with
      | nil => exact .first (fails_failHere _)
      | cons c back => exact .first (fails_failNext _)
  | cons d ds => exact decided_scaled negative _ _ (settled_floating _ _ _) hback

/-- **How a text is read as a number does not hang on the delimiter behind it.** -/
theorem decided_number (negative : Bool) (ht : Solid text) : Decided (number negative) text := by
  obtain ⟨ds, back, rfl, hd, hb⟩ := exists_digits text
  have hback : Solid back := fun c hc => ht c (List.mem_append_right ds hc)
  rcases wholeDigits_takes_or_fails hd with h | h
  · refine .bind (fun rest hr => h _ (hb.append hr.noDigit)) ?_
    generalize held 0 ds = both
    obtain ⟨n, left⟩ := both
    have hplain : Settled (if left = 0 then whole negative n else floating negative n left) := by
      split
      · exact settled_whole _ _
      · exact settled_floating _ _ _
    have hscaled := decided_scaled negative n left hplain hback
    cases back with
    | nil =>
        rcases hscaled with ⟨v, hv⟩ | hm
        · refine .inl ⟨v, fun rest hr => (takes_peek? rest).ahead ?_⟩
          split
          · rename_i e
            exact absurd rfl (hr _ e).2.1
          · exact hv rest hr
        · exact .inr (Misses.behind (takes_peek? []) hm)
    | cons c back =>
        refine .step ?_
        split
        · rename_i e
          cases e
          exact decided_fractional negative n left fun c hc => hback c (List.mem_cons_of_mem _ hc)
        · exact hscaled
  · exact .inr (Fails.misses (h back hb).first)

end Dialogue.Json.Reader
