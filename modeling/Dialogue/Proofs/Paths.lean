import Dialogue.Project

/-!
# Paths below a folder

A name (`IsName`) is text that is one step down: not empty, no dots alone, no slash in it.  A
base that is not empty and does not end in a slash (`IsBase`) keeps its steps when a name is
joined to it, and the name is the step after them (`steps_join`).  Names with slashes between them
are as many steps (`steps_join_intercalate`).  Slugs are names, and so are the names of artifacts.
-/

namespace Dialogue.Path

/-! ### Parts -/

/-- Pieces between separators hold none. -/
theorem not_mem_of_mem_splitOn {c : Char} {text piece : List Char}
    (h : piece ∈ text.splitOn c) : c ∉ piece := by
  induction text generalizing piece with
  | nil =>
      rw [List.mem_singleton.mp h]
      exact List.not_mem_nil
  | cons d rest ih =>
      rw [List.splitOn_cons_eq_if_modifyHead] at h
      split at h
      · obtain rfl | h := List.mem_cons.mp h
        · exact List.not_mem_nil
        · exact ih h
      · rename_i hd
        cases hs : rest.splitOn c with
        | nil => exact absurd hs (List.splitOn_ne_nil _ _)
        | cons first others =>
            rw [hs] at h
            obtain rfl | h := List.mem_cons.mp h
            · have hdc : c ≠ d := fun e => hd (by simp [e])
              exact List.not_mem_cons_of_ne_of_not_mem hdc (ih (hs ▸ List.mem_cons_self))
            · exact ih (hs ▸ List.mem_cons_of_mem _ h)

theorem parts_eq_splitOn (cs : List Char) : parts cs = cs.splitOn '/' := by
  induction cs with
  | nil => simp [parts]
  | cons c rest ih =>
      rw [List.splitOn_cons_eq_if_modifyHead, parts, ih]
      by_cases hc : c = '/'
      · simp [hc]
      · cases hs : rest.splitOn '/' with
        | nil => exact absurd hs (List.splitOn_ne_nil _ _)
        | cons part more => simp [hc]

theorem parts_ne_nil (cs : List Char) : parts cs ≠ [] := by
  rw [parts_eq_splitOn]
  exact List.splitOn_ne_nil _ _

theorem parts_append_slash (a b : List Char) : parts (a ++ '/' :: b) = parts a ++ parts b := by
  simp only [parts_eq_splitOn, List.splitOn_append_cons_self]

theorem parts_eq_singleton {cs : List Char} (h : '/' ∉ cs) : parts cs = [cs] := by
  rw [parts_eq_splitOn, List.splitOn_eq_singleton h]

theorem Step.ofPart_eq_down {part : List Char} (hnil : part ≠ []) (hone : part ≠ ['.'])
    (htwo : part ≠ ['.', '.']) : Step.ofPart part = some (.down (String.ofList part)) := by
  simp [Step.ofPart, hnil, hone, htwo]

/-- Between slashes there are steps up and down only. -/
theorem Step.ofPart_cases {part : List Char} {s : Step} (h : ofPart part = some s) :
    s = .up ∨ s = .down (String.ofList part) := by
  unfold ofPart at h
  repeat' split at h
  all_goals cases h
  · exact .inl rfl
  · exact .inr rfl

/-! ### Names and bases -/

/-- Text that is one step down. -/
structure IsName (s : String) : Prop where
  noSlash : '/' ∉ s.toList
  isStep : Step.ofPart s.toList = some (.down s)

instance (s : String) : Decidable (IsName s) :=
  decidable_of_iff ('/' ∉ s.toList ∧ Step.ofPart s.toList = some (.down s))
    ⟨fun h => ⟨h.1, h.2⟩, fun h => ⟨h.noSlash, h.isStep⟩⟩

/-- A path that a name can be joined to. -/
structure IsBase (s : String) : Prop where
  nonempty : s.toList ≠ []
  open_ : s.toList.getLast? ≠ some '/'

theorem endsWith_slash_iff (s : String) :
    s.endsWith "/" = true ↔ s.toList.getLast? = some '/' := by
  rw [String.endsWith_eq_endsWith_toSlice, String.Slice.endsWith_string_iff]
  simp only [String.copy_toSlice]
  constructor
  · rintro ⟨front, h⟩
    rw [← h]
    simp
  · intro h
    obtain ⟨front, h⟩ := List.getLast?_eq_some_iff.mp h
    exact ⟨front, h.symm⟩

theorem IsName.ne_nil {s : String} (h : IsName s) : s.toList ≠ [] := by
  intro hs
  have := h.isStep
  rw [hs] at this
  cases this

theorem IsName.ne_dot {s : String} (h : IsName s) : s.toList ≠ ['.'] := by
  intro hs
  have := h.isStep
  rw [hs] at this
  cases this

theorem IsName.ne_root {s : String} (h : IsName s) : s ≠ "/" := by
  rintro rfl
  exact absurd h.noSlash (by decide)

theorem IsName.ne_up {s : String} (h : IsName s) : s ≠ ".." := by
  rintro rfl
  exact absurd h.isStep (by decide)

theorem IsName.startsWith_append {s : String} (h : IsName s) (rest : String) :
    (s ++ rest).startsWith "/" = false := by
  rw [Bool.eq_false_iff, ne_eq, String.startsWith_string_iff, String.toList_append]
  rintro ⟨more, hs⟩
  obtain ⟨c, cs, hc⟩ := List.exists_cons_of_ne_nil h.ne_nil
  rw [hc] at hs
  have first : '/' = c := (List.cons.inj hs).1
  exact h.noSlash (hc ▸ first ▸ List.mem_cons_self)

theorem IsName.startsWith_slash {s : String} (h : IsName s) : s.startsWith "/" = false := by
  simpa using h.startsWith_append ""

/-- The last character of a name is no slash. -/
theorem IsName.getLast?_append {s : String} (h : IsName s) (front : List Char) :
    (front ++ s.toList).getLast? ≠ some '/' := by
  rw [List.getLast?_append, List.getLast?_eq_some_getLast h.ne_nil, Option.some_or]
  exact fun hl => h.noSlash (Option.some.inj hl ▸ List.getLast_mem h.ne_nil)

theorem IsBase.join_relative {base rest : String} (h : IsBase base)
    (hr : rest.startsWith "/" = false) : join base rest = base ++ "/" ++ rest := by
  have hs : base.endsWith "/" = false :=
    Bool.eq_false_iff.mpr fun he => h.open_ ((endsWith_slash_iff base).mp he)
  have he : base.isEmpty = false := by
    simpa [← String.toList_eq_nil_iff] using h.nonempty
  simp [Path.join, hr, hs, he]

theorem IsBase.toList_join_relative {base rest : String} (h : IsBase base)
    (hr : rest.startsWith "/" = false) :
    (Path.join base rest).toList = base.toList ++ '/' :: rest.toList := by
  rw [h.join_relative hr]
  simp

theorem IsBase.join {base name : String} (h : IsBase base) (hn : IsName name) :
    join base name = base ++ "/" ++ name := h.join_relative hn.startsWith_slash

theorem IsBase.toList_join {base name : String} (h : IsBase base) (hn : IsName name) :
    (Path.join base name).toList = base.toList ++ '/' :: name.toList :=
  h.toList_join_relative hn.startsWith_slash

/-- What is joined to a base is not empty. -/
theorem IsBase.join_ne_nil {base : String} (h : IsBase base) (rest : String) :
    (Path.join base rest).toList ≠ [] := by
  unfold Path.join
  split
  · rename_i hs
    obtain ⟨more, hmore⟩ := String.startsWith_string_iff.mp hs
    rw [← hmore]
    exact List.append_ne_nil_of_left_ne_nil (by decide) more
  · split <;> simp only [String.toList_append] <;> simp [h.nonempty]

/-- Whatever a name is joined to, the result is a base. -/
theorem isBase_join (base : String) {name : String} (hn : IsName name) :
    IsBase (join base name) := by
  obtain ⟨front, h⟩ : ∃ front, (join base name).toList = front ++ name.toList := by
    unfold join
    rw [hn.startsWith_slash]
    split
    · contradiction
    · split
      · exact ⟨base.toList, String.toList_append⟩
      · exact ⟨(base ++ "/").toList, String.toList_append⟩
  refine ⟨?_, ?_⟩
  · rw [h]
    exact fun e => hn.ne_nil (List.append_eq_nil_iff.mp e).2
  · rw [h]
    exact hn.getLast?_append front

/-! ### Steps -/

theorem IsBase.parts_join {base name : String} (h : IsBase base) (hn : IsName name) :
    parts (Path.join base name).toList = parts base.toList ++ [name.toList] := by
  rw [h.toList_join hn, parts_append_slash, parts_eq_singleton hn.noSlash]

/-- What is joined to a base and does not begin with a slash is more steps. -/
theorem steps_join_relative {base rest : String} (h : IsBase base)
    (hr : rest.startsWith "/" = false) :
    steps (join base rest) = steps base ++ (parts rest.toList).filterMap Step.ofPart := by
  obtain ⟨c, cs, hb⟩ := List.exists_cons_of_ne_nil h.nonempty
  have hjoin := h.toList_join_relative hr
  have hparts : parts (join base rest).toList = parts base.toList ++ parts rest.toList := by
    rw [hjoin, parts_append_slash]
  have hs : (join base rest).startsWith "/" = base.startsWith "/" := by
    rw [Bool.eq_iff_iff, String.startsWith_string_iff, String.startsWith_string_iff, hjoin, hb]
    simp
  have hd : (parts (join base rest).toList).head? = (parts base.toList).head? := by
    rw [hparts, List.head?_append, List.head?_eq_some_head (parts_ne_nil _), Option.some_or]
  -- the lead of the steps hangs on the beginning of the path, which is that of the base
  simp only [steps, hs, hd]
  rw [hparts, List.filterMap_append, List.append_assoc]

/-- **A name is one more step.** -/
theorem steps_join {base name : String} (h : IsBase base) (hn : IsName name) :
    steps (join base name) = steps base ++ [.down name] := by
  rw [steps_join_relative h hn.startsWith_slash, parts_eq_singleton hn.noSlash,
    List.filterMap_cons_some hn.isStep, List.filterMap_nil]

/-- A name is one more step also behind a slash. -/
theorem steps_join_of_ne_nil {base name : String} (h : base.toList ≠ []) (hn : IsName name) :
    steps (join base name) = steps base ++ [.down name] := by
  by_cases hslash : base.toList.getLast? = some '/'
  · obtain ⟨front, hfront⟩ := List.getLast?_eq_some_iff.mp hslash
    have hjoin : (join base name).toList = front ++ '/' :: name.toList := by
      have hends : base.endsWith "/" = true := (endsWith_slash_iff base).mpr hslash
      simp [join, hn.startsWith_slash, hends, hfront]
    have hparts : parts (join base name).toList = parts front ++ [name.toList] := by
      rw [hjoin, parts_append_slash, parts_eq_singleton hn.noSlash]
    have hbase : parts base.toList = parts front ++ [[]] := by
      rw [hfront, parts_append_slash]
      rfl
    have hs : (join base name).startsWith "/" = base.startsWith "/" := by
      rw [Bool.eq_iff_iff, String.startsWith_string_iff, String.startsWith_string_iff, hjoin,
        hfront]
      cases front <;> simp
    have hhead : (parts (join base name).toList).head? = (parts base.toList).head? := by
      rw [hparts, hbase, List.head?_append, List.head?_append,
        List.head?_eq_some_head (parts_ne_nil _), Option.some_or, Option.some_or]
    simp only [steps, hs, hhead]
    rw [hparts, hbase, List.filterMap_append, List.filterMap_append,
      List.filterMap_cons_some hn.isStep]
    simp [Step.ofPart]
  · exact steps_join ⟨h, hslash⟩ hn

theorem IsName.steps {name : String} (hn : IsName name) : Path.steps name = [.down name] := by
  simp [Path.steps, hn.startsWith_slash, parts_eq_singleton hn.noSlash, hn.ne_dot, hn.isStep]

/-- **A name is one more step**, whatever it is joined to. -/
theorem steps_join_name (base : String) {name : String} (hn : IsName name) :
    steps (join base name) = steps base ++ [.down name] := by
  by_cases hb : base.toList = []
  · obtain rfl : base = "" := String.toList_eq_nil_iff.mp hb
    have hjoin : join "" name = name := by simp [join, hn.startsWith_slash]
    rw [hjoin, hn.steps]
    rfl
  · exact steps_join_of_ne_nil hb hn

theorem fileName?_join (base : String) {name : String} (hn : IsName name) :
    fileName? (Path.join base name) = some name := by
  simp [fileName?, steps_join_name base hn]

theorem endsInDot_join {base name : String} (h : IsBase base) (hn : IsName name) :
    endsInDot (join base name) = false := by
  have hne : name.toList.isEmpty = false := by simpa using hn.ne_nil
  simp [endsInDot, h.parts_join hn, List.filter_append, hne, hn.ne_dot]

/-- Every step down goes by a name. -/
theorem isName_of_mem_steps {path name : String} (h : Step.down name ∈ steps path) :
    IsName name := by
  unfold steps at h
  obtain h | h := List.mem_append.mp h
  · split at h
    · simp at h
    · split at h <;> simp at h
  · obtain ⟨part, hpart, e⟩ := List.mem_filterMap.mp h
    have slash := not_mem_of_mem_splitOn (parts_eq_splitOn _ ▸ hpart)
    have text : part = name.toList := by
      obtain e' | e' := Step.ofPart_cases e <;> cases e'
      exact String.toList_ofList.symm
    exact ⟨text ▸ slash, text ▸ e⟩

/-- The name at the end of a path is the last step. -/
theorem steps_of_fileName? {path name : String} (h : fileName? path = some name) :
    IsName name ∧ ∃ front, steps path = front ++ [.down name] := by
  unfold fileName? at h
  split at h <;> cases h
  rename_i hlast
  exact ⟨isName_of_mem_steps (List.mem_of_getLast? hlast), List.getLast?_eq_some_iff.mp hlast⟩

/-! ### Names one after the other -/

/-- What stands behind a name is joined to the name before it. -/
theorem join_append_slash (base : String) {name rest : String} (hn : IsName name)
    (hr : rest.startsWith "/" = false) :
    Path.join base (name ++ "/" ++ rest) = Path.join (Path.join base name) rest := by
  rw [(isBase_join base hn).join_relative hr]
  have hname : (name ++ "/" ++ rest).startsWith "/" = false := by
    rw [String.append_assoc]
    exact hn.startsWith_append _
  simp only [Path.join, hn.startsWith_slash, hname, Bool.false_eq_true, if_false]
  split <;> simp only [String.append_assoc]

theorem startsWith_intercalate {names : List String} (hn : ∀ name ∈ names, IsName name) :
    ("/".intercalate names).startsWith "/" = false := by
  match names with
  | [] => rfl
  | [name] =>
      rw [String.intercalate_singleton]
      exact (List.forall_mem_singleton.mp hn).startsWith_slash
  | name :: next :: more =>
      rw [String.intercalate_cons_cons, String.append_assoc]
      exact (hn name List.mem_cons_self).startsWith_append _

/-- **Names are more steps**, whatever they are joined to. -/
theorem steps_join_intercalate (base : String) {names : List String} (hne : names ≠ [])
    (hn : ∀ name ∈ names, IsName name) :
    steps (Path.join base ("/".intercalate names)) = steps base ++ names.map .down := by
  induction names generalizing base with
  | nil => exact absurd rfl hne
  | cons name more ih =>
      obtain ⟨hname, hmore⟩ := List.forall_mem_cons.mp hn
      cases more with
      | nil =>
          rw [String.intercalate_singleton]
          exact steps_join_name base hname
      | cons next more =>
          rw [String.intercalate_cons_cons, join_append_slash base hname (startsWith_intercalate hmore),
            ih _ (List.cons_ne_nil next more) hmore, steps_join_name base hname, List.append_assoc]
          rfl

/-! ### Names of a contained path -/

/-- The name that a step down goes to. -/
def Step.name? : Step → Option String
  | .down name => some name
  | .root | .here | .up => none

/-- The names that a path leads through. -/
def names (path : String) : List String := (steps path).filterMap Step.name?

theorem isName_of_mem_names {path name : String} (h : name ∈ names path) : IsName name := by
  obtain ⟨step, hstep, e⟩ := List.mem_filterMap.mp h
  cases step with
  | down other =>
      cases e
      exact isName_of_mem_steps hstep
  | root | here | up => cases e

theorem map_down_filterMap {steps : List Step} (h : ∀ s ∈ steps, ∃ name, s = .down name) :
    (steps.filterMap Step.name?).map .down = steps := by
  induction steps with
  | nil => rfl
  | cons s rest ih =>
      obtain ⟨⟨name, rfl⟩, hrest⟩ := List.forall_mem_cons.mp h
      simp [Step.name?, ih hrest]

/-- **A contained path goes down from its base, name by name.** -/
theorem IsBase.steps_join_contained {base path : String} (h : IsBase base)
    (hp : isContained path = true) :
    steps (Path.join base path) = steps base ++ (names path).map .down := by
  simp only [isContained, Bool.and_eq_true, Bool.not_eq_true', List.all_eq_true] at hp
  obtain ⟨⟨⟨-, hslash⟩, -⟩, hsteps⟩ := hp
  have hlead : steps path = (if (parts path.toList).head? == some ['.'] then [.here] else [])
      ++ (parts path.toList).filterMap Step.ofPart := by
    simp only [steps, hslash, Bool.false_eq_true, if_false]
  have hdown : ∀ s ∈ (parts path.toList).filterMap Step.ofPart, ∃ name, s = .down name := by
    intro s hs
    have hstep := hsteps s (hlead ▸ List.mem_append_right _ hs)
    obtain ⟨part, -, hpart⟩ := List.mem_filterMap.mp hs
    cases s with
    | down name => exact ⟨name, rfl⟩
    | root | up => cases hstep
    | here => obtain e | e := Step.ofPart_cases hpart <;> cases e
  have hnames : names path = ((parts path.toList).filterMap Step.ofPart).filterMap Step.name? := by
    rw [names, hlead, List.filterMap_append]
    split <;> rfl
  rw [steps_join_relative h hslash, hnames, map_down_filterMap hdown]

theorem relative_of_isContained {path : String} (h : isContained path = true) :
    path ≠ "" ∧ path.startsWith "/" = false := by
  simp only [isContained, Bool.and_eq_true, Bool.not_eq_true'] at h
  obtain ⟨⟨⟨hne, hslash⟩, -⟩, -⟩ := h
  refine ⟨?_, hslash⟩
  rintro rfl
  cases hne

end Dialogue.Path

namespace Dialogue

open Dialogue.Path (IsName)

/-! ### Slugs -/

/-- What is no character of slugs is in none. -/
theorem not_mem_of_isSlug {s : String} (h : isSlug s = true) {c : Char}
    (hc : (isWordChar c || c == '-') = false) : c ∉ s.toList := by
  intro hm
  simp only [isSlug, Bool.and_eq_true, List.all_eq_true] at h
  rw [h.2 c hm] at hc
  cases hc

theorem toList_ne_nil_of_isSlug {s : String} (h : isSlug s = true) : s.toList ≠ [] := by
  simp only [isSlug, Bool.and_eq_true, Bool.not_eq_true'] at h
  simpa using h.1

theorem isName_of_isSlug {s : String} (h : isSlug s = true) : IsName s where
  noSlash := not_mem_of_isSlug h (by decide)
  isStep := by
    have hdot : '.' ∉ s.toList := not_mem_of_isSlug h (by decide)
    have hone : s.toList ≠ ['.'] := fun hs => hdot (hs ▸ by decide)
    have htwo : s.toList ≠ ['.', '.'] := fun hs => hdot (hs ▸ by decide)
    rw [Path.Step.ofPart_eq_down (toList_ne_nil_of_isSlug h) hone htwo, String.ofList_toList]

/-- The name of an artifact. -/
theorem isName_artifact {s : String} (h : isSlug s = true) : IsName (s ++ ".json") where
  noSlash := by
    rw [String.toList_append, List.mem_append, not_or]
    exact ⟨not_mem_of_isSlug h (by decide), by decide⟩
  isStep := by
    have hlong : 2 < (s ++ ".json").toList.length := by
      rw [String.toList_append, List.length_append]
      exact Nat.lt_of_lt_of_le (by decide) (Nat.le_add_left (".json".toList.length) _)
    have hnil : (s ++ ".json").toList ≠ [] := fun hs => by simp [hs] at hlong
    have hone : (s ++ ".json").toList ≠ ['.'] := fun hs => by simp [hs] at hlong
    have htwo : (s ++ ".json").toList ≠ ['.', '.'] := fun hs => by simp [hs] at hlong
    rw [Path.Step.ofPart_eq_down hnil hone htwo, String.ofList_toList]

/-- The names of artifacts are different for different slugs. -/
theorem eq_of_artifact_name {a b : String} (h : a ++ ".json" = b ++ ".json") : a = b := by
  have hl := congrArg String.toList h
  rw [String.toList_append, String.toList_append] at hl
  exact String.toList_inj.mp (List.append_cancel_right hl)

theorem isName_manifestFile : IsName Project.manifestFile := ⟨by decide, by decide⟩

theorem isName_generated : IsName "generated" := ⟨by decide, by decide⟩

end Dialogue
