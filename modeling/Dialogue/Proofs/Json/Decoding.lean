import Dialogue.Json.Decoder
import Dialogue.Proofs.Json.Values

/-!
# What a decoder reads

A decoder reads a value as `a` if it does so both from text and from the value (`Decoder.Reads`).
This module has a rule for each way in which decoders are put together: the single values, lists
and maps, records and tagged records.

A record reads the fields it is given in their order, each into the draft (`Record.Fills`).  A
field that is put behind the others of a record leaves what they do as it is, so what a record
makes of its fields (`Record.Gives`) is found slot by slot.
-/

namespace Dialogue.Json

open Reader

variable {α β σ : Type}

/-- The decoder reads the value as `a`, from its text, with room for its brackets, and from the
value. -/
structure Decoder.Reads (d : Decoder α) (v : Json) (a : α) : Prop where
  text : ∀ room, v.depth ≤ room → TakesValue (d.fromText room) v a
  value : d.fromValue v = .ok a

namespace Decoder

/-- A text is decoded, also with blanks behind it. -/
theorem Reads.decode {d : Decoder α} {v : Json} {a : α} (h : d.Reads v a)
    (hd : v.depth ≤ deepest) {s : Spacing} (hs : s.Blank) {gap : List Char} (hg : Gap gap) :
    d.decode (.ofList (v.chars s 0 ++ gap)) = .ok a := by
  have hgap : Delimited gap := by
    have := hg.delimited delimited_nil
    rwa [List.append_nil] at this
  exact (h.text deepest hd s hs 0 [] gap gap_nil hgap).readAll hg

/-! ### Single values -/

theorem reads_viaValue {f : Json → Except Cause α} {v : Json} {a : α} (hv : v.Legible)
    (h : f v = .ok a) : (viaValue f).Reads v a := by
  refine ⟨fun room hd s hs level gap rest hg hr => ?_, h⟩
  refine (takes_value hv hd s hs level gap rest hg hr).done ?_
  rw [h]
  exact .pure a rest

theorem reads_string (expected text : String) : (string expected).Reads (.string text) text := by
  refine ⟨fun room _ s hs level gap rest hg _ => .placed ?_, rfl⟩
  exact .next hg (by decide) (takes_string text rest)

/-- The first character of the value's text shows that it is not `null`. -/
def IsPresent (v : Json) : Prop :=
  v ≠ .null ∧ ∀ s level, ∃ c text, v.chars s level = c :: text ∧ isGap c = false ∧ c ≠ 'n'

theorem isPresent_string (text : String) : IsPresent (.string text) :=
  ⟨nofun, fun _ _ => ⟨_, _, rfl, by decide, by decide⟩⟩

theorem isPresent_object (fields : List (String × Json)) : IsPresent (.object fields) :=
  ⟨nofun, fun s level => ⟨_, _, chars_object s level fields, by decide, by decide⟩⟩

theorem isPresent_natural (n : Nat) : IsPresent (.int n) := by
  refine ⟨nofun, fun s level => ?_⟩
  obtain ⟨⟨c, hc, hdigit⟩, -⟩ := numeral_digitsOf n
  obtain ⟨text, htext⟩ := List.head?_eq_some_iff.mp hc
  refine ⟨c, text, htext, isGap_of_isDigit hdigit, ?_⟩
  rintro rfl
  cases hdigit

theorem reads_optional_some {d : Decoder α} {v : Json} {a : α} (hv : IsPresent v)
    (h : d.Reads v a) : d.optional.Reads v (some a) := by
  refine ⟨fun room hd s hs level gap rest hg hr => ?_, ?_⟩
  · obtain ⟨c, text, hc, hgap, hn⟩ := hv.2 s level
    have htext := h.text room hd s hs level [] rest gap_nil hr
    rw [List.nil_append, hc] at htext
    rw [hc]
    refine .next hg hgap ?_
    split
    · rename_i e
      exact absurd (Option.some.inj e) hn
    · exact htext.done (.pure (some a) rest)
  · have hvalue : d.optional.fromValue v = some <$> d.fromValue v := by
      cases v with
      | null => exact absurd rfl hv.1
      | _ => rfl
    rw [hvalue, h.value]
    rfl

theorem reads_optional_none (d : Decoder α) : d.optional.Reads .null none := by
  refine ⟨fun room _ s hs level gap rest hg _ => ?_, rfl⟩
  exact .next hg (by decide) (.skip ((takes_word _ rest).done (.pure none rest)))

theorem reads_identifier {names : List (String × α)} {text : String} {a : α}
    (h : names.lookup text = some a) : (identifier names).Reads (.string text) a := by
  have hnamed : named names text = .ok a := by rw [named, h]
  refine ⟨fun room hd s hs level gap rest hg hr => .placed ?_, hnamed⟩
  refine ((reads_string _ text).text room hd s hs level gap rest hg hr).done ?_
  rw [hnamed]
  exact .pure a rest

theorem reads_name {names : List (String × α)} {text : String} {a : α}
    (h : names.lookup text = some a) : (name names).Reads (.string text) a := by
  have hident := reads_identifier h
  refine ⟨fun room hd s hs level gap rest hg hr => ?_, hident.value⟩
  exact .next hg (by decide) (hident.text room hd s hs level [] rest gap_nil hr)

/-! ### Lists and maps -/

theorem mapM_eq_ok {γ : Type} {f : γ → Except Cause α} {vs : List γ} {as : List α}
    (h : List.Forall₂ (fun v a => f v = .ok a) vs as) : vs.mapM f = .ok as := by
  induction h with
  | nil => rfl
  | cons hv _ ih =>
      rw [List.mapM_cons, hv, ih]
      rfl

theorem reads_list {d : Decoder α} {vs : List Json} {as : List α}
    (h : List.Forall₂ d.Reads vs as) : (list d).Reads (.array vs) as := by
  refine ⟨fun room hd s hs level gap rest hg hr => .placed ?_,
    mapM_eq_ok (h.imp fun v a hv => hv.value)⟩
  obtain ⟨more, rfl⟩ := Nat.exists_eq_add_of_lt hd
  have hdepth := depthOfItems_le.mp (Nat.le_add_right (depthOfItems vs) more)
  have hitems := ((List.forall₂_and_left _ _).mpr ⟨hdepth, h⟩).imp
    fun v a hv => hv.2.text (depthOfItems vs + more) hv.1
  rw [chars_array]
  refine .next hg (by decide) ?_
  exact .skip ((takes_allItems hitems hs level _).closing (takes_endList gap_nil rest))

theorem reads_entries {d : Decoder α} (expected : String) {fields : List (String × Json)}
    {es : List (String × α)}
    (h : List.Forall₂ (fun f e => f.1 = e.1 ∧ d.Reads f.2 e.2) fields es) :
    (entries expected d).Reads (.object fields) es := by
  refine ⟨fun room hd s hs level gap rest hg hr => .placed ?_, mapM_eq_ok (h.imp ?_)⟩
  · obtain ⟨more, rfl⟩ := Nat.exists_eq_add_of_lt hd
    have hdepth := depthOfFields_le.mp (Nat.le_add_right (depthOfFields fields) more)
    have hfields := ((List.forall₂_and_left _ _).mpr ⟨hdepth, h⟩).imp
      fun f e hf => And.intro hf.2.1 (hf.2.2.text (depthOfFields fields + more) hf.1)
    have hall := takes_allFields (takesFields_collected hfields []) hs level rest
    have hanswer : (es.reverse ++ []).reverse = es := by
      rw [List.append_nil, List.reverse_reverse]
    rw [chars_object]
    refine .next hg (by decide) (.skip ((hall.closing (takes_endObject gap_nil rest)).done ?_))
    rw [hanswer]
    exact .pure es rest
  · rintro ⟨name, v⟩ ⟨name', a⟩ ⟨rfl, hv⟩
    simp only [hv.value]
    rfl

/-! ### Records -/

/-- The values of a field, as what they do to a draft. -/
def Field.decoder (f : Field σ) : Decoder (σ → σ) := ⟨f.fromText, f.fromValue⟩

theorem Field.reads_last {slot : Slot β} {v : Json} {b : β} (h : slot.decoder.Reads v b) :
    (Field.decoder (slot.last (σ := σ))).Reads v fun s => (s.1, some b) := by
  refine ⟨fun room hd s hs level gap rest hg hr => ?_, ?_⟩
  · exact (h.text room hd s hs level gap rest hg hr).done (.pure _ rest)
  · simp only [Field.decoder, Slot.last, h.value]
    rfl

theorem Field.reads_followed {f : Field σ} {v : Json} {set : σ → σ} (h : f.decoder.Reads v set) :
    (Field.decoder (f.followed (β := β))).Reads v (Prod.map set id) := by
  refine ⟨fun room hd s hs level gap rest hg hr => ?_, ?_⟩
  · exact (h.text room hd s hs level gap rest hg hr).done (.pure _ rest)
  · have hvalue : f.fromValue v = .ok set := h.value
    simp only [Field.decoder, Field.followed, hvalue]
    rfl

/-- Each of the fields is one of `fs` and new to the draft, and their values make the draft into
another. -/
inductive Fills (fs : List (Field σ)) : σ → List (String × Json) → σ → Prop
  | nil (s : σ) : Fills fs s [] s
  | cons {s s' : σ} {f : Field σ} {set : σ → σ} {name : String} {v : Json}
      {fields : List (String × Json)} (known : fs.find? (·.name == name) = some f)
      (new : f.given s = false) (read : f.decoder.Reads v set)
      (others : Fills fs (set s) fields s') : Fills fs s ((name, v) :: fields) s'

namespace Fills

variable {fs : List (Field σ)} {s s' : σ} {fields : List (String × Json)}

theorem append {s'' : σ} {more : List (String × Json)} (h : Fills fs s fields s')
    (h' : Fills fs s' more s'') : Fills fs s (fields ++ more) s'' := by
  induction h with
  | nil => exact h'
  | cons known new read _ ih => exact .cons known new read (ih h')

/-- A field behind the others leaves what they do as it is. -/
theorem followed (h : Fills fs s fields s') (last : Field (σ × β)) (b : β) :
    Fills (fs.map Field.followed ++ [last]) (s, b) fields (s', b) := by
  induction h with
  | nil s => exact .nil (s, b)
  | @cons s s' f set name v fields known new read _ ih =>
      have hmap : (fs.map Field.followed).find? (·.name == name)
          = some (f.followed (β := β)) := by
        rw [List.find?_map]
        exact congrArg (Option.map Field.followed) known
      refine .cons ?_ new (Field.reads_followed read) ih
      rw [List.find?_append, hmap]
      rfl

variable {r : Record α σ}

theorem takesFields (h : Fills r.fields s fields s') {room : Nat}
    (hd : ∀ f ∈ fields, f.2.depth ≤ room) : TakesFields (r.readField room) s fields s' := by
  induction h with
  | nil s => exact .nil s
  | @cons s s' f set name v fields known new read _ ih =>
      obtain ⟨hv, hfields⟩ := List.forall_mem_cons.mp hd
      refine .cons ?_ (ih hfields)
      unfold Record.readField
      rw [known]
      simp only [new, Bool.false_eq_true, if_false]
      exact (read.text room hv).field fun set => set s

theorem foldlM_putField (h : Fills r.fields s fields s') :
    fields.foldlM r.putField s = .ok s' := by
  induction h with
  | nil s => rfl
  | @cons s s' f set name v fields known new read _ ih =>
      have hvalue : f.fromValue v = .ok set := read.value
      have hput : r.putField s (name, v) = .ok (set s) := by
        simp only [Record.putField, known, new, hvalue, Bool.false_eq_true, if_false]
        rfl
      rw [List.foldlM_cons, hput]
      exact ih

end Fills

/-- What the record makes of the fields of an object. -/
def Record.Gives (r : Record α σ) (fields : List (String × Json)) (a : α) : Prop :=
  ∃ s, Fills r.fields r.blank fields s ∧ r.finish s = .ok a

theorem Record.gives_empty (expected : String) : (Record.empty expected).Gives [] () :=
  ⟨(), .nil (), rfl⟩

namespace Record.Gives

variable {r : Record α σ} {fields : List (String × Json)} {a : α}

theorem map (h : r.Gives fields a) (f : α → β) : (r.map f).Gives fields (f a) := by
  obtain ⟨s, hs, ha⟩ := h
  refine ⟨s, hs, ?_⟩
  show f <$> r.finish s = _
  rw [ha]
  rfl

/-- The field that is put behind the others is given, last. -/
theorem and {s : Slot β} {v : Json} {b : β} (h : r.Gives fields a)
    (hb : s.decoder.Reads v b) (hnew : s.name ∉ r.fields.map (·.name)) :
    (r.and s).Gives (fields ++ [(s.name, v)]) (a, b) := by
  obtain ⟨t, ht, ha⟩ := h
  have hlast : (r.and s).fields.find? (·.name == s.name) = some s.last := by
    have hmap : (r.fields.map (Field.followed (β := Option β))).find? (·.name == s.name)
        = none := by
      rw [List.find?_eq_none]
      intro g hg hname
      obtain ⟨f, hf, rfl⟩ := List.mem_map.mp hg
      exact hnew (List.mem_map.mpr ⟨f, hf, beq_iff_eq.mp hname⟩)
    show (r.fields.map Field.followed ++ [s.last]).find? _ = _
    rw [List.find?_append, hmap]
    simp [Slot.last]
  have hfills : Fills (r.and s).fields (t, none) [(s.name, v)] (t, some b) :=
    .cons hlast rfl (Field.reads_last hb) (.nil _)
  refine ⟨(t, some b), (ht.followed s.last none).append hfills, ?_⟩
  show (do let a ← r.finish t; return (a, ← s.resolve (some b))) = _
  rw [ha]
  rfl

/-- The field that is put behind the others is missing. -/
theorem and_absent {s : Slot β} {b : β} (h : r.Gives fields a) (hb : s.absent = some b) :
    (r.and s).Gives fields (a, b) := by
  obtain ⟨t, ht, ha⟩ := h
  refine ⟨(t, none), ht.followed s.last none, ?_⟩
  have hresolve : s.resolve none = .ok b := by
    unfold Slot.resolve
    rw [Option.none_or, hb]
  show (do let a ← r.finish t; return (a, ← s.resolve none)) = _
  rw [ha, hresolve]
  rfl

theorem fromFields (h : r.Gives fields a) : r.fromFields fields = .ok a := by
  obtain ⟨s, hs, ha⟩ := h
  unfold Record.fromFields
  rw [hs.foldlM_putField]
  exact ha

theorem reads (h : r.Gives fields a) : r.decoder.Reads (.object fields) a := by
  refine ⟨fun room hd s hs level gap rest hg hr => .placed ?_, h.fromFields⟩
  obtain ⟨more, rfl⟩ := Nat.exists_eq_add_of_lt hd
  obtain ⟨draft, hfills, ha⟩ := h
  have hdepth := depthOfFields_le.mp (Nat.le_add_right (depthOfFields fields) more)
  have hall := takes_allFields (hfills.takesFields hdepth) hs level rest
  have hdone : Takes (r.done draft) [] ('\x7d' :: rest) a := by
    unfold Record.done
    rw [ha]
    exact .pure a _
  rw [chars_object]
  exact .next hg (by decide) (.skip ((hall.done hdone).closing (takes_endObject gap_nil rest)))

end Record.Gives

/-! ### Tagged records -/

theorem Record.Gives.ofPayload {r : Record α σ} {fields : List (String × Json)} {a : α}
    (h : r.Gives fields a) : r.ofPayload (.fields fields) = .ok a :=
  h.fromFields

/-- The value is an object with one of the variants as its tag, and this variant makes `a` of the
other fields. -/
inductive Tells (variants : List (String × (Payload → Except Cause α))) : Json → α → Prop
  | intro {tag : String} {fields : List (String × Json)} {shape : Payload → Except Cause α} {a : α}
      (known : variants.lookup tag = some shape) (beside : ∀ f ∈ fields, f.1 ≠ tagName)
      (made : shape (.fields fields) = .ok a) :
      Tells variants (.object ((tagName, .string tag) :: fields)) a

section Tagged

variable {fields : List (String × Json)}

/-- What stands beside the tag is collected in its order. -/
theorem foldlM_putField_payload {γ : Type} (variant : Json → Except Cause γ)
    (hfields : ∀ f ∈ fields, f.1 ≠ tagName) (t : Tagged γ) :
    fields.foldlM (Tagged.putField variant) t
      = .ok { t with payload := fields.reverse ++ t.payload } := by
  induction fields generalizing t with
  | nil => rfl
  | cons f fields ih =>
      obtain ⟨hf, hothers⟩ := List.forall_mem_cons.mp hfields
      have hput : Tagged.putField variant t f = .ok { t with payload := f :: t.payload } := by
        simp only [Tagged.putField, hf, if_false]
        rfl
      rw [List.foldlM_cons, hput]
      refine (ih hothers _).trans ?_
      rw [List.reverse_cons, List.append_assoc]
      rfl

theorem Tells.taggedValue {variants : List (String × (Payload → Except Cause α))} {v : Json}
    {a : α} (h : Tells variants v a)
    {variant : Json → Except Cause (Payload → Except Cause α)}
    (hvariant : ∀ tag, variant (.string tag) = named variants tag) (type : String) :
    taggedValue type variant v = .ok a := by
  obtain @⟨tag, fields, shape, a, known, beside, made⟩ := h
  have htag : Tagged.putField variant {} (tagName, .string tag) = .ok { tag := some shape } := by
    simp only [Tagged.putField, if_true, hvariant, named, known]
    rfl
  have hall : ((tagName, Json.string tag) :: fields).foldlM (Tagged.putField variant) {}
      = .ok { tag := some shape, payload := fields.reverse } := by
    rw [List.foldlM_cons, htag]
    refine (foldlM_putField_payload variant beside _).trans ?_
    rw [List.append_nil]
  have hdone : Tagged.done { tag := some shape, payload := fields.reverse }
      = .ok (shape, .fields fields) := by
    simp only [Tagged.done, List.reverse_reverse]
  unfold Decoder.taggedValue
  simp only [hall]
  change (Tagged.done { tag := some shape, payload := fields.reverse }).bind
    (fun both => both.1 both.2) = _
  rw [hdone]
  exact made

theorem takesFields_payload {γ : Type} (names : List (String × γ)) {room : Nat}
    (hfields : ∀ f ∈ fields, f.1 ≠ tagName ∧ f.2.Legible ∧ f.2.depth ≤ room) (t : Tagged γ) :
    TakesFields (Tagged.readField names room) t fields
      { t with payload := fields.reverse ++ t.payload } := by
  induction fields generalizing t with
  | nil => exact .nil t
  | cons f fields ih =>
      obtain ⟨⟨hname, hv, hd⟩, hothers⟩ := List.forall_mem_cons.mp hfields
      have hfirst : TakesField (Tagged.readField names room t f.1) f.2
          { t with payload := (f.1, f.2) :: t.payload } := by
        unfold Tagged.readField
        rw [if_neg hname]
        exact (takes_value hv hd).field fun v => { t with payload := (f.1, v) :: t.payload }
      rw [List.reverse_cons, List.append_assoc]
      exact .cons hfirst (ih hothers _)

theorem reads_tagged {variants : List (String × (Payload → Except Cause α))} {v : Json} {a : α}
    (h : Tells variants v a) (hv : v.Legible) (type : String) :
    (tagged type variants).Reads v a := by
  refine ⟨fun room hd s hs level gap rest hg hr => ?_, h.taggedValue (fun _ => rfl) type⟩
  obtain @⟨tag, fields, shape, a, known, beside, made⟩ := h
  obtain ⟨more, rfl⟩ := Nat.exists_eq_add_of_lt hd
  set room := depthOfFields ((tagName, Json.string tag) :: fields) + more
  have hfields : ∀ f ∈ fields, f.1 ≠ tagName ∧ f.2.Legible ∧ f.2.depth ≤ room := fun f hf =>
    have hmem := List.mem_cons_of_mem (tagName, Json.string tag) hf
    ⟨beside f hf, legible_object.mp hv f hmem,
      depthOfFields_le.mp (Nat.le_add_right _ more) f hmem⟩
  have htag : TakesField (Tagged.readField variants room {} tagName) (.string tag)
      { tag := some shape } := by
    unfold Tagged.readField
    rw [if_pos rfl]
    exact ((reads_identifier known).text room (Nat.zero_le _)).field
      fun shape : Payload → Except Cause α => ({ tag := some shape } : Tagged _)
  have hpayload := takesFields_payload variants hfields { tag := some shape }
  have hall := takes_allFields (.cons htag hpayload) hs level rest
  have hdone : Tagged.done { tag := some shape, payload := fields.reverse ++ [] }
      = .ok (shape, .fields fields) := by
    simp only [Tagged.done, List.append_nil, List.reverse_reverse]
  rw [chars_object]
  refine .done (a := (shape, Payload.fields fields)) (.placed (.next hg (by decide) (.skip ?_))) ?_
  · refine .closing (hall.done ?_) (takes_endObject gap_nil rest)
    rw [hdone]
    exact .pure _ _
  · simp only [made]
    exact .pure a rest

theorem reads_collected {variants : List (String × (Payload → Except Cause α))} {v : Json} {a : α}
    (h : Tells variants v a) (hv : v.Legible) (type : String) :
    (collected type variants).Reads v a :=
  reads_viaValue hv (h.taggedValue (fun _ => rfl) type)

end Tagged

end Decoder

end Dialogue.Json
