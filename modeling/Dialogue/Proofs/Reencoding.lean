import Dialogue.Golden.Run
import Dialogue.Proofs.Json.Integers
import Dialogue.Proofs.Loading
import Dialogue.Proofs.RoundTrip

/-!
# Manifests and golden cases survive re-encoding

What a text has been read as can be written, in any layout, and is read from that text again: the
manifest of a project, and a golden case (`read_again`).  Fields are left out by three rules, and
each has its default on the other side: an empty list, an option that holds nothing, and none.

Every manifest is read from what it is encoded as, and every golden case whose numbers of states
are held by a word.  Those of a case that has been read are (`GoldenCase.isHeld_of_decode`), for a
decoder answers with no other numbers (`Decoder.Answers`).
-/

namespace Dialogue.Json

open Reader

/-- The text of a value in some layout, perhaps with blanks behind it. -/
def HasText (v : Json) (text : String) : Prop :=
  ∃ s : Spacing, s.Blank ∧ ∃ gap, Gap gap ∧ text = .ofList (v.chars s 0 ++ gap)

theorem hasText_compact (v : Json) : v.HasText v.compact :=
  ⟨.tight, Spacing.blank_tight, [], gap_nil, by rw [List.append_nil]; rfl⟩

theorem hasText_pretty (v : Json) : v.HasText v.pretty :=
  ⟨.lined, Spacing.blank_lined, [], gap_nil, by rw [List.append_nil]; rfl⟩

namespace Decoder

variable {α β σ : Type} {P : α → Prop} {Q : β → Prop}

theorem Reads.decode_text {d : Decoder α} {v : Json} {a : α} (h : d.Reads v a)
    (hd : v.depth ≤ deepest) {text : String} (ht : v.HasText text) : d.decode text = .ok a := by
  obtain ⟨s, hs, gap, hg, rfl⟩ := ht
  exact h.decode hd hs hg

theorem reads_natural (expected : String) {n : Nat} (h : n < pow2 64) :
    (natural expected).Reads (.int n) n := by
  have hword : IsWord n := ⟨by omega, by omega⟩
  have hvalue : naturalOf expected (.int n) = .ok n := by
    rw [naturalOf, if_pos (Int.natCast_nonneg n), Int.toNat_natCast]
  refine ⟨fun room _ s hs level gap rest hg hr => .placed ?_, hvalue⟩
  have hread := takes_value (v := .int n) (readsBack_int hword) (Nat.le_refl 0)
    s hs level [] rest gap_nil hr
  obtain ⟨⟨c, hc, hdigit⟩, -⟩ := numeral_digitsOf n
  obtain ⟨text, htext⟩ := List.head?_eq_some_iff.mp hc
  have hchars : (Json.int n).chars s level = c :: text := htext
  rw [List.nil_append, hchars] at hread
  rw [hchars]
  refine .next hg (isGap_of_isDigit hdigit) ?_
  split
  · contradiction
  · rename_i e
    cases e
    cases hdigit
  · rename_i e
    cases e
    cases hdigit
  · refine hread.done ?_
    rw [hvalue]
    exact .pure n rest

/-! ### What a decoder may answer -/

/-- Whatever the decoder makes of a text satisfies `P`. -/
def Answers (d : Decoder α) (P : α → Prop) : Prop := ∀ room, Yields (d.fromText room) P

theorem Answers.any (d : Decoder α) : d.Answers fun _ => True := fun _ => .any _

theorem Answers.decode {d : Decoder α} (h : d.Answers P) {text : String} {a : α}
    (ha : d.decode text = .ok a) : P a :=
  (h deepest).readAll ha

theorem yields_mismatch (expected : String) : Yields (mismatch expected) P := by
  refine .behind fun next => ?_
  split
  · exact .failUnplaced _
  · exact .failUnplaced _
  · exact .behind fun v => .failUnplaced _

theorem answers_natural (expected : String) : (natural expected).Answers (· < pow2 64) := by
  refine fun room => .placed (.behind fun next => ?_)
  split
  · exact .failHere _
  · exact yields_mismatch _
  · exact yields_mismatch _
  · refine (yields_value 0).bind fun v hv => ?_
    split
    · rename_i n hn
      refine .pure ?_
      unfold naturalOf at hn
      split at hn
      · split at hn
        · cases hn
          have := hv.2
          omega
        · cases hn
      · cases hn
    · exact .failUnplaced _

theorem answers_optional {d : Decoder α} (h : d.Answers P) :
    d.optional.Answers fun given => ∀ a ∈ given, P a := by
  refine fun room => .behind fun next => ?_
  split
  · exact .behind fun _ => .behind fun _ => .pure nofun
  · refine (h room).bind fun a ha => .pure ?_
    rintro b ⟨⟩
    exact ha

theorem answers_list {d : Decoder α} (h : d.Answers P) :
    (list d).Answers fun as => ∀ a ∈ as, P a := by
  refine fun room => .placed (.behind fun next => ?_)
  split
  · exact .failHere _
  · exact .failNext _
  · exact .behind fun _ => ((h _).allItems true).closing endList
  · exact yields_mismatch _

/-- Some property of drafts holds before anything is read, is kept by every field, and is enough
for what is made of a draft in the end. -/
def Record.Answers (r : Record α σ) (P : α → Prop) : Prop :=
  ∃ I : σ → Prop, I r.blank ∧
    (∀ f ∈ r.fields, ∀ room, Yields (f.fromText room) fun set => ∀ s, I s → I (set s)) ∧
    ∀ s a, I s → r.finish s = .ok a → P a

namespace Record.Answers

variable {r : Record α σ}

theorem empty (expected : String) : (Record.empty expected).Answers fun _ => True :=
  ⟨fun _ => True, trivial, nofun, fun _ _ _ _ => trivial⟩

theorem map {R : β → Prop} (h : r.Answers P) (f : α → β) (hf : ∀ a, P a → R (f a)) :
    (r.map f).Answers R := by
  obtain ⟨I, hblank, hfields, hfinish⟩ := h
  refine ⟨I, hblank, hfields, fun s b hs hb => ?_⟩
  obtain ⟨a, ha, rfl⟩ := map_eq_ok_iff.mp hb
  exact hf a (hfinish s a hs ha)

theorem and (h : r.Answers P) (slot : Slot β) (hb : slot.decoder.Answers Q)
    (habsent : ∀ b ∈ slot.absent, Q b) : (r.and slot).Answers fun both => P both.1 ∧ Q both.2 := by
  obtain ⟨I, hblank, hfields, hfinish⟩ := h
  refine ⟨fun s => I s.1 ∧ ∀ b ∈ s.2, Q b, ⟨hblank, nofun⟩, ?_, ?_⟩
  · intro f hf room
    rcases List.mem_append.mp hf with hf | hf
    · obtain ⟨g, hg, rfl⟩ := List.mem_map.mp hf
      exact (hfields g hg room).bind fun set hset => .pure fun s hs => ⟨hset s.1 hs.1, hs.2⟩
    · obtain rfl := List.mem_singleton.mp hf
      refine (hb room).bind fun b hb => .pure fun s hs => ⟨hs.1, ?_⟩
      rintro c ⟨⟩
      exact hb
  · intro s both hs hboth
    obtain ⟨a, ha, hboth⟩ := bind_eq_ok_iff.mp hboth
    obtain ⟨b, hb, hboth⟩ := bind_eq_ok_iff.mp hboth
    cases hboth
    refine ⟨hfinish _ a hs.1 ha, ?_⟩
    unfold Slot.resolve at hb
    split at hb
    · rename_i c hc
      cases hb
      rcases Option.or_eq_some_iff.mp hc with hgiven | ⟨-, hdefault⟩
      · exact hs.2 b hgiven
      · exact habsent b hdefault
    · cases hb

theorem readItems {I : σ → Prop} {room : Nat} {fs : List (Field σ)}
    (h : ∀ f ∈ fs, Yields (f.fromText room) fun set => ∀ s, I s → I (set s)) (index : Nat) {s : σ}
    (hs : I s) : Yields (r.readItems room index fs s) I := by
  induction fs generalizing index s with
  | nil => exact .pure hs
  | cons f fs ih =>
      obtain ⟨hf, hfs⟩ := List.forall_mem_cons.mp h
      refine .behind fun more => ?_
      split
      · exact hf.bind fun set hset => ih hfs _ (hset s hs)
      split
      · exact ih hfs _ hs
      · exact .failUnplaced _

theorem readField {I : σ → Prop} {room : Nat}
    (h : ∀ f ∈ r.fields, Yields (f.fromText room) fun set => ∀ s, I s → I (set s)) {s : σ}
    (hs : I s) (key : String) : Yields (r.readField room s key) I := by
  unfold Record.readField
  split
  · exact .behind fun _ => .behind fun _ => .pure hs
  · rename_i f hf
    split
    · exact .failUnplaced _
    · exact .behind fun _ =>
        (h f (List.mem_of_find?_eq_some hf)).bind fun set hset => .pure (hset s hs)

/-- An object and a list of the fields' values end in the same way. -/
theorem decoder (h : r.Answers P) : r.decoder.Answers P := by
  obtain ⟨I, hblank, hfields, hfinish⟩ := h
  have hdone : ∀ s, I s → Yields (r.done s) P := by
    intro s hs
    unfold Record.done
    split
    · rename_i a ha
      exact .pure (hfinish s a hs ha)
    · exact .failUnplaced _
  refine fun room => .placed (.behind fun next => ?_)
  split
  · exact .failHere _
  · exact .failNext _
  · exact .failNext _
  · exact .behind fun _ => .closing
      ((readItems (fun f hf => hfields f hf _) 0 hblank).bind hdone) endList
  · exact .behind fun _ => .closing
      ((Yields.allFields (fun s key hs => readField (fun f hf => hfields f hf _) hs key)
        hblank).bind hdone) endObject
  · exact yields_mismatch _

end Record.Answers

end Decoder

end Dialogue.Json

namespace Dialogue

open Json Json.Decoder

/-! ### Lists and options of texts -/

theorem reads_texts (texts : List String) : (list string).Reads (.ofTexts texts) texts :=
  reads_encoded fun text _ => reads_string _ text

theorem depth_ofTexts (texts : List String) (n : Nat) : (Json.ofTexts texts).depth ≤ n + 1 := by
  simp [Json.ofTexts]

theorem reads_text? (text : Option String) : (optional string).Reads (.ofText? text) text := by
  cases text with
  | none => exact reads_optional_none _
  | some s => exact reads_optional_some (isPresent_string s) (reads_string _ s)

/-! ### Fields that are left out -/

section LeftOut

variable {α β σ : Type} {r : Record α σ} {fields : List (String × Json)} {a : α}

/-- An empty list is left out, and is what a missing list is read as. -/
theorem Json.Decoder.Record.Gives.and_texts (h : r.Gives fields a) (name : String)
    (texts : List String) (hnew : name ∉ r.fields.map (·.name)) :
    (r.and (.defaulted name (.list .string) [])).Gives (fields ++ Manifest.listField name texts)
      (a, texts) := by
  unfold Manifest.listField
  split
  · rename_i hempty
    rw [List.isEmpty_iff.mp hempty, List.append_nil]
    exact h.and_absent rfl
  · exact h.and (reads_texts texts) hnew

/-- What there is none of is left out. -/
theorem Json.Decoder.Record.Gives.and_given {d : Json.Decoder β} {e : β → Json}
    (h : r.Gives fields a) (name : String) (given : Option β)
    (hreads : ∀ b ∈ given, IsPresent (e b) ∧ d.Reads (e b) b)
    (hnew : name ∉ r.fields.map (·.name)) :
    (r.and (.defaulted name (.optional d) none)).Gives
      (fields ++ given.toList.map fun b => (name, e b)) (a, given) := by
  cases given with
  | none =>
      rw [Option.toList_none, List.map_nil, List.append_nil]
      exact h.and_absent rfl
  | some b =>
      obtain ⟨hpresent, hb⟩ := hreads b rfl
      exact h.and (reads_optional_some hpresent hb) hnew

end LeftOut

/-! ### Manifests -/

theorem ScriptGroup.reads (g : ScriptGroup) : decoder.Reads g.encode g := by
  have hnamed := gives_texts "struct ScriptGroup" (show "slug" ≠ "name" by decide) g.slug g.name
  have h : record.Gives [("slug", .string g.slug), ("name", .string g.name),
      ("source_files", .ofTexts g.sourceFiles)] g :=
    (hnamed.and (reads_texts g.sourceFiles) (by decide)).map _
  exact h.reads

namespace Manifest

theorem reads (m : Manifest) : decoder.Reads m.encode m := by
  have hnamed := gives_texts "struct ProjectManifest" (show "slug" ≠ "name" by decide) m.slug
    m.name
  have hdescribed := hnamed.and (s := .defaulted "description" .string "")
    (reads_string _ m.description) (by decide)
  have hversioned := hdescribed.and_given (d := .string) (e := .string) "version" m.version
    (fun v _ => ⟨isPresent_string v, reads_string _ v⟩) (by decide)
  have hlisted := (hversioned.and_texts "authors" m.authors (by decide)).and_texts "build_order"
    m.buildOrder (by decide)
  have hgroups : (list ScriptGroup.decoder).Reads (.array (m.scriptGroups.map (·.encode)))
      m.scriptGroups := reads_encoded fun g _ => g.reads
  have h : record.Gives _ m := (hlisted.and hgroups (by decide)).map _
  exact h.reads

theorem depth_of_mem_listField {name : String} {texts : List String} {f : String × Json}
    (h : f ∈ listField name texts) : f.2.depth ≤ 3 := by
  unfold listField at h
  split at h
  · cases h
  · obtain rfl := List.mem_singleton.mp h
    exact depth_ofTexts texts 2

/-- Brackets stand around the manifest, its groups, each of them and its files. -/
theorem depth_encode (m : Manifest) : m.encode.depth ≤ 4 := by
  refine depth_object_le.mpr fun f hf => ?_
  simp only [List.mem_append, List.mem_map, List.mem_singleton] at hf
  obtain (((hf | ⟨v, -, rfl⟩) | hf) | hf) | rfl := hf
  · have hplain : ∀ f ∈ [("slug", Json.string m.slug), ("name", .string m.name),
        ("description", .string m.description)], f.2.depth ≤ 3 := by simp
    exact hplain f hf
  · exact Nat.zero_le _
  · exact depth_of_mem_listField hf
  · exact depth_of_mem_listField hf
  · simp [ScriptGroup.encode, Json.ofTexts]

theorem parse_of_validate {m : Manifest} (h : m.validate = .ok ()) {text : String}
    (ht : m.encode.HasText text) : parse text = .ok m := by
  unfold parse
  rw [m.reads.decode_text (Nat.le_trans m.depth_encode (by decide)) ht]
  show (do m.validate; return m : Except ManifestFault Manifest) = .ok m
  rw [h]
  rfl

end Manifest

/-! ### Golden cases -/

theorem GroupStatus.reads (s : GroupStatus) : (name names).Reads (.string s.text) s :=
  reads_name (by cases s <;> rfl)

theorem FailureKind.reads (k : FailureKind) : (name names).Reads (.string k.text) k :=
  reads_name (by cases k <;> rfl)

theorem Mode.reads (mode : Mode) : (name names).Reads (.string mode.text) mode :=
  reads_name (by cases mode <;> rfl)

namespace ObservedGroup

/-- A word holds the number of states. -/
def IsHeld (g : ObservedGroup) : Prop := ∀ n ∈ g.states, n < pow2 64

theorem reads {g : ObservedGroup} (h : g.IsHeld) : decoder.Reads g.encode g := by
  have hslug := gives_text "struct ExpectedGroup" "slug" g.slug
  have hstatus := hslug.and (s := .required "status" (.name GroupStatus.names))
    g.status.reads (by decide)
  have hstates := hstatus.and_given (e := fun n : Nat => .int n) "states" g.states
    (fun n hn => ⟨isPresent_natural n, reads_natural "usize" (h n hn)⟩) (by decide)
  have hgives : record.Gives _ g := hstates.map _
  exact hgives.reads

theorem answers : decoder.Answers IsHeld := by
  have h := (((Record.Answers.empty "struct ExpectedGroup").and
    (.required "slug" .string) (.any _) nofun).and
    (.required "status" (.name GroupStatus.names)) (.any _) nofun).and
    (.defaulted "states" (.optional (.natural "usize")) none)
    (answers_optional (answers_natural "usize")) (by rintro _ ⟨⟩; exact nofun)
  exact (h.map _ fun both hboth => hboth.2).decoder

end ObservedGroup

theorem ObservedError.reads (e : ObservedError) : decoder.Reads e.encode e := by
  have h : record.Gives [("code", .string e.code), ("kind", .string e.kind.text)] e :=
    ((gives_text _ "code" e.code).and e.kind.reads (by decide)).map _
  exact h.reads

namespace GoldenCase

/-- Words hold the numbers of states that are expected. -/
def IsHeld (c : GoldenCase) : Prop := ∀ g ∈ c.expectedGroups, g.IsHeld

theorem reads {c : GoldenCase} (h : c.IsHeld) : decoder.Reads c.encode c := by
  have hmode := (gives_text "struct TestCase" "schemaVersion" c.schemaVersion).and
    (s := .defaulted "mode" (.name Mode.names) .persist) c.mode.reads (by decide)
  have hgroup := hmode.and (s := .defaulted "group" (.optional .string) none)
    (reads_text? c.group) (by decide)
  have hgroups := hgroup.and (s := .defaulted "expectedGroups" (.list ObservedGroup.decoder) [])
    (reads_encoded fun g hg => ObservedGroup.reads (h g hg)) (by decide)
  have herror : (optional ObservedError.decoder).Reads
      ((c.expectedError.map ObservedError.encode).getD .null) c.expectedError := by
    cases c.expectedError with
    | none => exact reads_optional_none _
    | some e => exact reads_optional_some (isPresent_object _) e.reads
  have hlogs := (hgroups.and
    (s := .defaulted "expectedError" (.optional ObservedError.decoder) none) herror
    (by decide)).and (s := .defaulted "expectedLogs" (.list .string) [])
    (reads_texts c.expectedLogs) (by decide)
  have hgives : record.Gives _ c := hlogs.map _
  exact hgives.reads

/-- Brackets stand around the case, its groups and each of them. -/
theorem depth_encode (c : GoldenCase) : c.encode.depth ≤ 3 := by
  have hgroup : ∀ g : ObservedGroup, g.encode.depth ≤ 1 := by
    intro g
    cases hs : g.states <;> simp [ObservedGroup.encode, hs]
  have herror : ((c.expectedError.map ObservedError.encode).getD .null).depth ≤ 2 := by
    cases c.expectedError <;> simp [ObservedError.encode]
  have hname : (Json.ofText? c.group).depth ≤ 2 := by
    cases c.group <;> simp [Json.ofText?]
  simp [encode, hgroup, herror, hname, depth_ofTexts]

/-- Whatever a text is read as, words hold its numbers. -/
theorem isHeld_of_decode {text : String} {c : GoldenCase} (h : decoder.decode text = .ok c) :
    c.IsHeld := by
  have hgroups := (((Record.Answers.empty "struct TestCase").and
    (.required "schemaVersion" .string) (.any _) nofun).and
    (.defaulted "mode" (.name Mode.names) .persist) (.any _) fun _ _ => trivial).and
    (.defaulted "group" (.optional .string) none) (.any _) (fun _ _ => trivial)
  have hanswers := ((hgroups.and
    (.defaulted "expectedGroups" (.list ObservedGroup.decoder) [])
    (answers_list ObservedGroup.answers) (by rintro _ ⟨⟩; exact nofun)).and
    (.defaulted "expectedError" (.optional ObservedError.decoder) none) (.any _)
    fun _ _ => trivial).and (.defaulted "expectedLogs" (.list .string) []) (.any _)
    fun _ _ => trivial
  have hdecoder : decoder.Answers IsHeld :=
    (hanswers.map _ fun both hboth => hboth.1.1.2).decoder
  exact hdecoder.decode h

theorem decode_encode {c : GoldenCase} (h : c.IsHeld) {text : String}
    (ht : c.encode.HasText text) : decoder.decode text = .ok c :=
  (reads h).decode_text (Nat.le_trans c.depth_encode (by decide)) ht

end GoldenCase

/-- **What has been read can be written and read again.**  Whatever text a manifest has been read
from, any text of the manifest is read as the same manifest, with the same groups whatever the
default source file is; and whatever text a golden case has been decoded from, any text of the
case is decoded as the same case.  So nothing changes when they are written a second time. -/
theorem read_again :
    (∀ text m, Manifest.parse text = .ok m → ∀ again, m.encode.HasText again →
      Manifest.parse again = .ok m ∧
        (∀ source, (·.groups source) <$> Manifest.parse again = .ok (m.groups source)) ∧
        (·.encode.compact) <$> Manifest.parse again = .ok m.encode.compact ∧
        (·.encode.pretty) <$> Manifest.parse again = .ok m.encode.pretty) ∧
      ∀ text c, GoldenCase.decoder.decode text = .ok c → ∀ again, c.encode.HasText again →
        GoldenCase.decoder.decode again = .ok c ∧
          (·.encode.compact) <$> GoldenCase.decoder.decode again = .ok c.encode.compact ∧
          (·.encode.pretty) <$> GoldenCase.decoder.decode again = .ok c.encode.pretty := by
  constructor
  · intro text m h again hagain
    have hm := Manifest.parse_of_validate (Manifest.validate_of_parse h) hagain
    rw [hm]
    exact ⟨rfl, fun _ => rfl, rfl, rfl⟩
  · intro text c h again hagain
    have hc := GoldenCase.decode_encode (GoldenCase.isHeld_of_decode h) hagain
    rw [hc]
    exact ⟨rfl, rfl, rfl⟩

/-- A manifest and a group as lists of their fields, the last of which are missing. -/
def listedManifest : String :=
  "[\"demo\",\"Demo\",\"\",null,[\"Ann\"],[],[[\"inn\",\"Inn\"]]]"

/-- A case with its fields in another order, an unknown one among them, and most of them missing. -/
def sparseCase : String :=
  "\x7b\"expectedGroups\":[\x7b\"status\":\"success\",\"states\":2,\"slug\":\"inn\"\x7d,"
    ++ "[\"attic\",\"empty\"]],\"note\":[1.5],\"schemaVersion\":\"mt-tool-case.v1\"\x7d"

theorem read_again_sparse :
    Manifest.parse listedManifest = .ok
        { slug := "demo", name := "Demo", authors := ["Ann"], scriptGroups := [⟨"inn", "Inn", []⟩] }
      ∧ GoldenCase.decoder.decode sparseCase = .ok
        { schemaVersion := GoldenCase.schema,
          expectedGroups := [⟨"inn", .success, some 2⟩, ⟨"attic", .empty, none⟩] }
      ∧ (∀ m, Manifest.parse listedManifest = .ok m → Manifest.parse m.encode.pretty = .ok m)
      ∧ ∀ c, GoldenCase.decoder.decode sparseCase = .ok c →
        GoldenCase.decoder.decode c.encode.compact = .ok c := by
  refine ⟨by decide +kernel, by decide +kernel, fun m hm => ?_, fun c hc => ?_⟩
  · exact (read_again.1 listedManifest m hm m.encode.pretty (Json.hasText_pretty _)).1
  · exact (read_again.2 sparseCase c hc c.encode.compact (Json.hasText_compact _)).1

end Dialogue
