import Dialogue.Proofs.Json.Numerals
import Dialogue.Proofs.Json.Strings
import Mathlib.Data.List.Forall2

/-!
# Values are read back

A value may be laid out in many ways that differ in blanks only (`Spacing.Blank`).  However it is
laid out, wherever it stands before a delimiter, a reader of its items or fields reads all of them
(`takes_array`, `takes_object`), and the reader of values reads the value itself (`takes_value`):
if its numbers are read back (`Legible`) and its brackets fit (`depth`).
-/

namespace Dialogue.Json

open Reader

/-! ### Depth and numbers of a value -/

mutual

/-- How many brackets stand inside each other. -/
def depth : Json → Nat
  | .array items => depthOfItems items + 1
  | .object fields => depthOfFields fields + 1
  | _ => 0

def depthOfItems : List Json → Nat
  | [] => 0
  | item :: items => max item.depth (depthOfItems items)

def depthOfFields : List (String × Json) → Nat
  | [] => 0
  | (_, value) :: fields => max value.depth (depthOfFields fields)

end

mutual

/-- Every number of the value is read back from its text. -/
def Legible : Json → Prop
  | .int n => ReadsBack (.int n)
  | .float x => ReadsBack (.float x)
  | .array items => LegibleItems items
  | .object fields => LegibleFields fields
  | _ => True

def LegibleItems : List Json → Prop
  | [] => True
  | item :: items => item.Legible ∧ LegibleItems items

def LegibleFields : List (String × Json) → Prop
  | [] => True
  | (_, value) :: fields => value.Legible ∧ LegibleFields fields

end

theorem depthOfItems_le {items : List Json} {n : Nat} :
    depthOfItems items ≤ n ↔ ∀ v ∈ items, v.depth ≤ n := by
  induction items with
  | nil => simp [depthOfItems]
  | cons item items ih => rw [depthOfItems, Nat.max_le, ih, List.forall_mem_cons]

theorem depthOfFields_le {fields : List (String × Json)} {n : Nat} :
    depthOfFields fields ≤ n ↔ ∀ f ∈ fields, f.2.depth ≤ n := by
  induction fields with
  | nil => simp [depthOfFields]
  | cons f fields ih => rw [depthOfFields, Nat.max_le, ih, List.forall_mem_cons]

@[simp] theorem depth_null : depth .null = 0 := rfl
@[simp] theorem depth_bool (b : Bool) : depth (.bool b) = 0 := rfl
@[simp] theorem depth_int (n : Int) : depth (.int n) = 0 := rfl
@[simp] theorem depth_float (x : Binary64) : depth (.float x) = 0 := rfl
@[simp] theorem depth_string (s : String) : depth (.string s) = 0 := rfl

@[simp] theorem depth_array_le {items : List Json} {n : Nat} :
    (array items).depth ≤ n + 1 ↔ ∀ v ∈ items, v.depth ≤ n := by
  rw [depth, Nat.add_le_add_iff_right, depthOfItems_le]

@[simp] theorem depth_object_le {fields : List (String × Json)} {n : Nat} :
    (object fields).depth ≤ n + 1 ↔ ∀ f ∈ fields, f.2.depth ≤ n := by
  rw [depth, Nat.add_le_add_iff_right, depthOfFields_le]

@[simp] theorem legible_null : Legible .null := trivial
@[simp] theorem legible_bool (b : Bool) : Legible (.bool b) := trivial
@[simp] theorem legible_string (s : String) : Legible (.string s) := trivial
@[simp] theorem legible_float {x : Binary64} : Legible (.float x) ↔ ReadsBack (.float x) := .rfl

@[simp] theorem legible_array {items : List Json} : Legible (.array items) ↔ ∀ v ∈ items, v.Legible := by
  rw [Legible]
  induction items with
  | nil => simp [LegibleItems]
  | cons item items ih => simp [LegibleItems, ih]

@[simp] theorem legible_object {fields : List (String × Json)} :
    Legible (.object fields) ↔ ∀ f ∈ fields, f.2.Legible := by
  rw [Legible]
  induction fields with
  | nil => simp [LegibleFields]
  | cons f fields ih => simp [LegibleFields, ih]

theorem depth_lt_of_mem_array {items : List Json} {v : Json} (h : v ∈ items) :
    v.depth < (array items).depth :=
  Nat.lt_succ_of_le (depthOfItems_le.mp (Nat.le_refl _) v h)

theorem depth_lt_of_mem_object {fields : List (String × Json)} {f : String × Json}
    (h : f ∈ fields) : f.2.depth < (object fields).depth :=
  Nat.lt_succ_of_le (depthOfFields_le.mp (Nat.le_refl _) f h)

/-! ### What a value's text begins with, and what stands behind it -/

theorem begins_of_isDigit {c : Char} (h : c.isDigit = true) : Begins c := by
  refine ⟨isGap_of_isDigit h, ?_, ?_⟩
  · rintro rfl
    cases h
  · rintro rfl
    cases h

theorem Signed.exists_begins {text : List Char} (h : Signed text) :
    ∃ c cs, text = c :: cs ∧ Begins c := by
  rcases h with ⟨⟨c, hc, hdigit⟩, -⟩ | ⟨digits, rfl, -⟩
  · obtain ⟨cs, rfl⟩ := List.head?_eq_some_iff.mp hc
    exact ⟨c, cs, rfl, begins_of_isDigit hdigit⟩
  · exact ⟨'-', digits, rfl, by unfold Begins; decide⟩

theorem exists_begins (v : Json) (s : Spacing) (level : Nat) :
    ∃ c cs, v.chars s level = c :: cs ∧ Begins c := by
  unfold Begins
  cases v with
  | null => exact ⟨_, _, rfl, by decide⟩
  | bool b => cases b <;> exact ⟨_, _, rfl, by decide⟩
  | int n => exact (signed_intText n).exists_begins
  | float x =>
      cases hx : x.isFinite with
      | true => exact (signed_floatText hx).exists_begins
      | false =>
          refine ⟨'n', ['u', 'l', 'l'], ?_, by decide⟩
          simp only [chars, atomText, floatText, hx, Bool.false_eq_true, if_false]
  | string text => exact ⟨_, _, rfl, by decide⟩
  | array items => cases items <;> exact ⟨_, _, rfl, by decide⟩
  | object fields => cases fields <;> exact ⟨_, _, rfl, by decide⟩

theorem delimited_cons {c : Char} {rest : List Char}
    (h : c.isDigit = false ∧ c ≠ '.' ∧ c ≠ 'e' ∧ c ≠ 'E') : Delimited (c :: rest) := by
  intro d hd
  cases hd
  exact h

/-- Blanks delimit, and where there are none, what is behind them does. -/
theorem Reader.Gap.delimited {gap rest : List Char} (hg : Gap gap) (h : Delimited rest) :
    Delimited (gap ++ rest) := by
  cases gap with
  | nil => exact h
  | cons c gap =>
      have hc : isGap c = true := hg c List.mem_cons_self
      simp only [isGap, Bool.or_eq_true, beq_iff_eq] at hc
      rcases hc with ((rfl | rfl) | rfl) | rfl <;> exact delimited_cons (by decide)

/-! ### Layouts -/

/-- Only blanks stand between the parts of a value. -/
structure Spacing.Blank (s : Spacing) : Prop where
  line : ∀ level, Gap (s.line level)
  value : Gap s.value

theorem Spacing.blank_tight : tight.Blank := ⟨fun _ => gap_nil, gap_nil⟩

theorem Spacing.blank_lined : lined.Blank := by
  refine ⟨fun level c hc => ?_, fun c hc => ?_⟩
  · rcases List.mem_cons.mp hc with rfl | hc
    · rfl
    · rw [List.eq_of_mem_replicate hc]
      rfl
  · rw [List.mem_singleton.mp hc]
    rfl

/-- What stands between the brackets of a list. -/
def insideItems (s : Spacing) (level : Nat) : List Json → List Char
  | [] => []
  | item :: items =>
    s.line (level + 1) ++ item.chars s (level + 1) ++ moreItems s (level + 1) items ++ s.line level

/-- What stands between the brackets of an object. -/
def insideFields (s : Spacing) (level : Nat) : List (String × Json) → List Char
  | [] => []
  | (name, value) :: fields =>
    s.line (level + 1) ++ stringText name ++ ':' :: s.value ++ value.chars s (level + 1)
      ++ moreFields s (level + 1) fields ++ s.line level

theorem chars_array (s : Spacing) (level : Nat) (items : List Json) :
    (array items).chars s level = '[' :: (insideItems s level items ++ [']']) := by
  cases items with
  | nil => rfl
  | cons item items => simp [chars, insideItems]

theorem chars_object (s : Spacing) (level : Nat) (fields : List (String × Json)) :
    (object fields).chars s level = '\x7b' :: (insideFields s level fields ++ ['\x7d']) := by
  cases fields with
  | nil => rfl
  | cons f fields => simp [chars, insideFields]

theorem length_le_moreItems (s : Spacing) (level : Nat) (items : List Json) :
    items.length ≤ (moreItems s level items).length := by
  induction items with
  | nil => exact Nat.le_refl 0
  | cons item items ih =>
      simp only [moreItems, List.length_cons, List.length_append]
      omega

theorem length_le_moreFields (s : Spacing) (level : Nat) (fields : List (String × Json)) :
    fields.length ≤ (moreFields s level fields).length := by
  induction fields with
  | nil => exact Nat.le_refl 0
  | cons f fields ih =>
      simp only [moreFields, List.length_cons, List.length_append]
      omega

namespace Reader

variable {α σ : Type}

/-- However the value is laid out, the reader takes its text before every delimiter, and a gap in
front of it, and answers `a`. -/
def TakesValue (r : Reader α) (v : Json) (a : α) : Prop :=
  ∀ s : Spacing, s.Blank → ∀ level gap rest, Gap gap → Delimited rest →
    Takes r (gap ++ v.chars s level) rest a

/-! ### Lists -/

section Items

variable {item : Reader α} {items : List Json} {as : List α} {s : Spacing}

theorem delimited_moreItems (hs : s.Blank) (level inner : Nat) (items : List Json)
    (rest : List Char) :
    Delimited (moreItems s inner items ++ (s.line level ++ ']' :: rest)) := by
  cases items with
  | nil => exact (hs.line level).delimited (delimited_cons (by decide))
  | cons v items => exact delimited_cons (by decide)

theorem takes_moreItems (h : List.Forall₂ (TakesValue item) items as) (hs : s.Blank)
    (level inner : Nat) (rest : List Char) {fuel : Nat} (hf : items.length < fuel) :
    Takes (Reader.items item false fuel) (moreItems s inner items ++ s.line level)
      (']' :: rest) as := by
  induction h generalizing fuel with
  | nil =>
      obtain ⟨fuel, rfl⟩ := Nat.exists_eq_add_of_lt hf
      exact (takes_hasItem_end (hs.line level) false rest).done (.pure [] _)
  | @cons v a vs as hv hvs ih =>
      obtain ⟨fuel, rfl⟩ := Nat.exists_eq_add_of_lt hf
      obtain ⟨c, cs, hc, hb⟩ := exists_begins v s inner
      have htext : moreItems s inner (v :: vs) ++ s.line level
          = (',' :: s.line inner) ++ (v.chars s inner ++ (moreItems s inner vs ++ s.line level)) := by
        simp [moreItems]
      rw [htext]
      refine Takes.bind (a := true) ?_ ?_
      · rw [hc]
        exact takes_hasItem_next (hs.line inner) hb _
      · refine .bind (hv s hs inner [] _ gap_nil ?_) (.done (ih ?_) (.pure _ _))
        · rw [List.append_assoc]
          exact delimited_moreItems hs level inner vs rest
        · simp only [List.length_cons] at *
          omega

theorem takes_allItems (h : List.Forall₂ (TakesValue item) items as) (hs : s.Blank)
    (level : Nat) (rest : List Char) :
    Takes (allItems item true) (insideItems s level items) (']' :: rest) as := by
  refine .get fun p => ?_
  cases h with
  | nil => exact (takes_hasItem_end gap_nil true rest).done (.pure [] _)
  | @cons v a vs as hv hvs =>
      obtain ⟨c, cs, hc, hb⟩ := exists_begins v s (level + 1)
      have htext : insideItems s level (v :: vs)
          = s.line (level + 1) ++ (v.chars s (level + 1)
            ++ (moreItems s (level + 1) vs ++ s.line level)) := by
        simp [insideItems]
      rw [htext]
      refine Takes.bind (a := true) ?_ ?_
      · rw [hc]
        exact takes_hasItem_first (hs.line (level + 1)) hb _
      · refine .bind (hv s hs (level + 1) [] _ gap_nil ?_)
          (.done (takes_moreItems hvs hs level (level + 1) rest ?_) (.pure _ _))
        · rw [List.append_assoc]
          exact delimited_moreItems hs level (level + 1) vs rest
        · have := length_le_moreItems s (level + 1) vs
          simp only [List.length_append, List.length_cons]
          omega

end Items

/-! ### Objects -/

/-- The reader takes the colon and the value behind a key. -/
def TakesField (r : Reader α) (v : Json) (a : α) : Prop :=
  ∀ s : Spacing, s.Blank → ∀ level rest, Delimited rest →
    Takes r (':' :: (s.value ++ v.chars s level)) rest a

/-- Behind the colon, the value is read. -/
theorem TakesValue.field {β : Type} {r : Reader α} {v : Json} {a : α} (h : TakesValue r v a)
    (f : α → β) : TakesField (do colon; return f (← r)) v (f a) := by
  intro s hs level rest hd
  exact (takes_colon _).bind ((h s hs level s.value rest hs.value hd).done (.pure _ rest))

/-- The fields are taken one after the other, each by a step from one state to the next. -/
inductive TakesFields (step : σ → String → Reader σ) : σ → List (String × Json) → σ → Prop
  | nil (done : σ) : TakesFields step done [] done
  | cons {done next last : σ} {name : String} {v : Json} {fields : List (String × Json)}
      (first : TakesField (step done name) v next) (others : TakesFields step next fields last) :
      TakesFields step done ((name, v) :: fields) last

/-- Fields whose values are read are collected, the last one first. -/
theorem takesFields_collected {r : Reader α} {fields : List (String × Json)}
    {entries : List (String × α)}
    (h : List.Forall₂ (fun f e => f.1 = e.1 ∧ TakesValue r f.2 e.2) fields entries)
    (done : List (String × α)) :
    TakesFields (fun done name => do colon; return (name, ← r) :: done) done fields
      (entries.reverse ++ done) := by
  induction h generalizing done with
  | nil => exact .nil done
  | @cons f e fields entries hf _ ih =>
      obtain ⟨name, v⟩ := f
      obtain ⟨name', a⟩ := e
      obtain ⟨rfl, hv⟩ := hf
      rw [List.reverse_cons, List.append_assoc]
      exact .cons (hv.field fun a => (name, a) :: done) (ih ((name, a) :: done))

section Fields

variable {step : σ → String → Reader σ} {start last : σ} {fields : List (String × Json)}
  {s : Spacing}

theorem delimited_moreFields (hs : s.Blank) (level inner : Nat) (fields : List (String × Json))
    (rest : List Char) :
    Delimited (moreFields s inner fields ++ (s.line level ++ '\x7d' :: rest)) := by
  cases fields with
  | nil => exact (hs.line level).delimited (delimited_cons (by decide))
  | cons f fields => exact delimited_cons (by decide)

theorem takes_moreFields (h : TakesFields step start fields last) (hs : s.Blank)
    (level inner : Nat) (rest : List Char) {fuel : Nat} (hf : fields.length < fuel) :
    Takes (Reader.fields step false fuel start) (moreFields s inner fields ++ s.line level)
      ('\x7d' :: rest) last := by
  induction h generalizing fuel with
  | nil done =>
      obtain ⟨fuel, rfl⟩ := Nat.exists_eq_add_of_lt hf
      exact (takes_hasKey_end (hs.line level) false rest).done (.pure done _)
  | @cons done next last name v fields first others ih =>
      obtain ⟨fuel, rfl⟩ := Nat.exists_eq_add_of_lt hf
      have htext : moreFields s inner ((name, v) :: fields) ++ s.line level
          = (',' :: s.line inner) ++ (stringText name ++ (':' :: (s.value ++ v.chars s inner)
            ++ (moreFields s inner fields ++ s.line level))) := by
        simp [moreFields]
      rw [htext]
      refine Takes.bind (a := true) (takes_hasKey_next (hs.line inner) _) ?_
      refine .bind (takes_string name _) (.bind (first s hs inner _ ?_) (ih ?_))
      · rw [List.append_assoc]
        exact delimited_moreFields hs level inner fields rest
      · simp only [List.length_cons] at *
        omega

theorem takes_allFields (h : TakesFields step start fields last) (hs : s.Blank) (level : Nat)
    (rest : List Char) :
    Takes (allFields step start) (insideFields s level fields) ('\x7d' :: rest) last := by
  refine .get fun p => ?_
  cases h with
  | nil => exact (takes_hasKey_end gap_nil true rest).done (.pure _ _)
  | @cons _ next _ name v fields first others =>
      have htext : insideFields s level ((name, v) :: fields)
          = s.line (level + 1) ++ (stringText name ++ (':' :: (s.value ++ v.chars s (level + 1))
            ++ (moreFields s (level + 1) fields ++ s.line level))) := by
        simp [insideFields]
      rw [htext]
      refine Takes.bind (a := true) (takes_hasKey_first (hs.line (level + 1)) _) ?_
      refine .bind (takes_string name _)
        (.bind (first s hs (level + 1) _ ?_) (takes_moreFields others hs level (level + 1) rest ?_))
      · rw [List.append_assoc]
        exact delimited_moreFields hs level (level + 1) fields rest
      · have := length_le_moreFields s (level + 1) fields
        simp only [List.length_append, List.length_cons]
        omega

end Fields

/-! ### Any value -/

/-- A value without parts is read whatever the brackets are read with. -/
theorem takes_atom {list object : Reader Json} {v : Json} (hv : v.Legible)
    (hatom : v.depth = 0) : TakesValue (valueWith list object) v v := by
  intro s hs level gap rest hg hd
  cases v with
  | null => exact .next hg (by decide) (.skip ((takes_word _ rest).done (.pure _ rest)))
  | bool b =>
      cases b with
      | true => exact .next hg (by decide) (.skip ((takes_word _ rest).done (.pure _ rest)))
      | false => exact .next hg (by decide) (.skip ((takes_word _ rest).done (.pure _ rest)))
  | int n => exact takes_signed (signed_intText n) hv hg hd
  | float x => exact takes_signed (signed_floatText (isFinite_of_readsBack hv)) hv hg hd
  | string text =>
      exact .next hg (by decide) ((takes_string text rest).done (.pure _ rest))
  | array items => cases hatom
  | object fields => cases hatom

/-- **A value is read back**, with room for its brackets. -/
theorem takes_value {v : Json} {room : Nat} (hv : v.Legible) (hroom : v.depth ≤ room) :
    TakesValue (value room) v v := by
  induction room generalizing v with
  | zero => exact takes_atom hv (Nat.le_zero.mp hroom)
  | succ room ih =>
      by_cases hatom : v.depth = 0
      · exact takes_atom hv hatom
      · intro s hs level gap rest hg hd
        cases v with
        | array items =>
            have hitems : ∀ v ∈ items, TakesValue (value room) v v := fun v hmem =>
              ih (legible_array.mp hv v hmem)
                (depthOfItems_le.mp (Nat.le_of_succ_le_succ hroom) v hmem)
            have hinside := takes_allItems (List.forall₂_same.mpr hitems) hs level rest
            rw [chars_array]
            exact .next hg (by decide)
              (.skip ((hinside.closing (takes_endList gap_nil rest)).done (.pure _ rest)))
        | object fields =>
            have hfields : ∀ f ∈ fields, TakesValue (value room) f.2 f.2 := fun f hmem =>
              ih (legible_object.mp hv f hmem)
                (depthOfFields_le.mp (Nat.le_of_succ_le_succ hroom) f hmem)
            have hall := takesFields_collected
              (List.forall₂_same.mpr fun f hmem => ⟨rfl, hfields f hmem⟩) []
            have hinside := takes_allFields hall hs level rest
            have hanswer : (fields.reverse ++ []).reverse = fields := by
              rw [List.append_nil, List.reverse_reverse]
            rw [chars_object]
            refine .next hg (by decide)
              (.skip ((hinside.closing (takes_endObject gap_nil rest)).done ?_))
            rw [hanswer]
            exact .pure _ rest
        | _ => exact absurd rfl hatom

end Reader

/-- **The text of a value, however it is laid out, stands for the value.** -/
theorem parse_chars {v : Json} (hv : v.Legible) (hd : v.depth ≤ deepest) {s : Spacing}
    (hs : s.Blank) : parse (.ofList (v.chars s 0)) = .ok v := by
  have hall := takes_value hv hd s hs 0 [] [] gap_nil delimited_nil
  have hread := hall.readAll gap_nil
  rwa [List.append_nil] at hread

end Dialogue.Json
