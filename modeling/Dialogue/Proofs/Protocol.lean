import Dialogue.Command
import Dialogue.Proofs.Closed
import Dialogue.Proofs.Failures
import Dialogue.Proofs.Json.Compact

/-!
# What can be read from the output of a command

A command writes lines, each with a tag in front.  A reader takes the output apart where a line
ends, and selects the lines of a tag (`readLines`, `tagged`); so it gets back the log and the
groups, if it can tell the lines apart (`Faithful`).

Codes and slugs hold no line ends, and what is written as JSON has them escaped.  The entries of
the log are written as they are.  So the output is faithful exactly if no entry of the log holds
a line end, and line ends get into the log by the names of source files and of the entry point
alone (`Command.faithful_output`).
-/

namespace Dialogue

/-! ### Lines -/

/-- The text holds no line end. -/
def OneLine (s : String) : Prop := '\n' ∉ s.toList

instance (s : String) : Decidable (OneLine s) := inferInstanceAs (Decidable (_ ∉ _))

theorem oneLine_append {s t : String} : OneLine (s ++ t) ↔ OneLine s ∧ OneLine t := by
  simp [OneLine]

theorem oneLine_toString (n : Nat) : OneLine (toString n) := by
  intro hm
  rw [Nat.toString_eq_repr, Nat.toList_repr] at hm
  exact absurd (Nat.isDigit_of_mem_toDigits (by decide) (by decide) hm) (by decide)

theorem oneLine_of_isSlug {s : String} (h : isSlug s = true) : OneLine s :=
  not_mem_of_isSlug h (by decide)

/-- The pieces of a text between the places of a character. -/
def pieces (c : Char) (s : String) : List String := (s.toList.splitOn c).map String.ofList

theorem pieces_eq_split (c : Char) (s : String) :
    pieces c s = (s.split c).toList.map (·.copy) :=
  String.toList_split_char.symm

theorem pieces_of_not_mem {c : Char} {s : String} (h : c ∉ s.toList) : pieces c s = [s] := by
  simp [pieces, List.splitOn_eq_singleton h]

theorem pieces_append {c : Char} {s : String} (h : c ∉ s.toList) (t : String) :
    pieces c (s ++ (String.singleton c ++ t)) = s :: pieces c t := by
  simp [pieces, List.splitOn_append_cons_self_of_not_mem h]

/-- The lines of a text in which each line has its end. -/
def readLines (s : String) : List String := (pieces '\n' s).dropLast

theorem oneLine_of_mem_readLines {line s : String} (h : line ∈ readLines s) : OneLine line := by
  obtain ⟨piece, hp, rfl⟩ := List.mem_map.mp (List.dropLast_subset _ h)
  simpa [OneLine] using Path.not_mem_of_mem_splitOn hp

/-- A line that holds line ends is read as several. -/
theorem readLines_unlines (lines : List String) :
    readLines (Command.unlines lines) = lines.flatMap (pieces '\n') := by
  have split : pieces '\n' (Command.unlines lines) = lines.flatMap (pieces '\n') ++ [""] := by
    induction lines with
    | nil => rfl
    | cons line rest ih =>
        have text : (Command.unlines (line :: rest)).toList =
            line.toList ++ '\n' :: (Command.unlines rest).toList := by
          simp [Command.unlines]
        rw [pieces, text, List.splitOn_append_cons_self, List.map_append, List.flatMap_cons,
          List.append_assoc, ← ih]
        rfl
  rw [readLines, split, List.dropLast_concat]

theorem readLines_unlines_of_oneLine {lines : List String} (h : ∀ line ∈ lines, OneLine line) :
    readLines (Command.unlines lines) = lines := by
  rw [readLines_unlines, List.flatMap_congr fun line hline => pieces_of_not_mem (h line hline)]
  exact List.flatMap_singleton' lines

/-! ### Tags -/

/-- What stands behind a tag, if the line has it. -/
def tagText? (tag line : String) : Option String :=
  (line.toList.dropPrefix? (tag ++ ":").toList).map String.ofList

/-- What stands behind a tag in the lines that have it. -/
def tagged (tag : String) (lines : List String) : List String := lines.filterMap (tagText? tag)

theorem tagText?_eq_some {tag line text : String} :
    tagText? tag line = some text ↔ line = tag ++ ":" ++ text := by
  have chars {cs : List Char} : String.ofList cs = text ↔ cs = text.toList :=
    ⟨fun h => h ▸ String.toList_ofList.symm, fun h => h ▸ String.ofList_toList⟩
  simp only [tagText?, Option.map_eq_some_iff, List.dropPrefix?_eq_some_iff, beq_iff_eq, chars,
    ← String.toList_inj, String.toList_append]
  constructor
  · rintro ⟨_, ⟨_, h, rfl⟩, rfl⟩
    exact h
  · exact fun h => ⟨_, ⟨_, h, rfl⟩, rfl⟩

/-- Tags without a colon can be told apart. -/
theorem tag_unique {tag other text text' : String} (h : ':' ∉ tag.toList)
    (h' : ':' ∉ other.toList) (e : tag ++ ":" ++ text = other ++ ":" ++ text') : tag = other := by
  have front {tag text : String} (h : ':' ∉ tag.toList) :
      (tag ++ ":" ++ text).toList.takeWhile (· ≠ ':') = tag.toList := by
    have free : ∀ c ∈ tag.toList, decide (c ≠ ':') = true := fun c hc => by
      simpa using fun e : c = ':' => h (e ▸ hc)
    rw [String.append_assoc, String.toList_append, List.takeWhile_append_of_pos free]
    simp
  exact String.toList_inj.mp ((front h).symm.trans (e ▸ front h'))

theorem tagText?_tagged {tag other : String} (h : ':' ∉ tag.toList) (h' : ':' ∉ other.toList)
    (text : String) :
    tagText? tag (other ++ ":" ++ text) = if other = tag then some text else none := by
  split
  · rename_i e
    exact tagText?_eq_some.mpr (by rw [e])
  · rename_i hne
    refine Option.eq_none_iff_forall_ne_some.mpr fun t ht => hne ?_
    exact tag_unique h' h (tagText?_eq_some.mp ht)

/-! ### Groups -/

/-- A group as a line tells of it: its slug, its status and its number of states. -/
def readGroup? (text : String) : Option (String × GroupStatus × Nat) :=
  match pieces '|' text with
  | [slug, status, states] =>
    (GroupStatus.names.lookup status).map fun status =>
      (slug, status, Nat.ofDigitChars 10 states.toList 0)
  | _ => none

/-- What a line tells of a group. -/
def GroupReport.told (g : GroupReport) : String × GroupStatus × Nat :=
  (g.slug, g.outcome.status, g.outcome.states?.getD 0)

/-- The text of a group behind its tag. -/
def GroupReport.text (g : GroupReport) : String :=
  g.slug ++ ("|" ++ (g.outcome.status.text ++ ("|" ++ toString (g.outcome.states?.getD 0))))

theorem readGroup?_text {g : GroupReport} (h : isSlug g.slug = true) :
    readGroup? g.text = some g.told := by
  have slug : '|' ∉ g.slug.toList := not_mem_of_isSlug h (by decide)
  have status : '|' ∉ g.outcome.status.text.toList := by
    cases g.outcome.status <;> decide +kernel
  have states : '|' ∉ (toString (g.outcome.states?.getD 0)).toList := by
    rw [Nat.toString_eq_repr, Nat.toList_repr]
    intro hm
    exact absurd (Nat.isDigit_of_mem_toDigits (by decide) (by decide) hm) (by decide)
  have split : pieces '|' g.text =
      [g.slug, g.outcome.status.text, toString (g.outcome.states?.getD 0)] :=
    calc pieces '|' g.text
        = g.slug :: pieces '|' (g.outcome.status.text ++
            ("|" ++ toString (g.outcome.states?.getD 0))) := pieces_append slug _
      _ = g.slug :: g.outcome.status.text :: pieces '|' (toString (g.outcome.states?.getD 0)) :=
          congrArg _ (pieces_append status _)
      _ = _ := by rw [pieces_of_not_mem states]
  have named : GroupStatus.names.lookup g.outcome.status.text = some g.outcome.status := by
    cases g.outcome.status <;> decide +kernel
  have number : Nat.ofDigitChars 10 (toString (g.outcome.states?.getD 0)).toList 0 =
      g.outcome.states?.getD 0 := by
    rw [Nat.toString_eq_repr, Nat.toList_repr]
    exact Nat.ofDigitChars_toDigits (by decide) (by decide)
  unfold readGroup?
  rw [split]
  simp only [named, Option.map_some, number, GroupReport.told]

theorem oneLine_text {g : GroupReport} (h : isSlug g.slug = true) : OneLine g.text := by
  have status : OneLine g.outcome.status.text := by
    cases g.outcome.status <;> decide +kernel
  have bar : OneLine "|" := by decide +kernel
  simp only [GroupReport.text, oneLine_append]
  exact ⟨oneLine_of_isSlug h, bar, status, bar, oneLine_toString _⟩

namespace Command

/-! ### What the lines tell -/

/-- The lines of an answer, as tags and what stands behind them. -/
def entries : Except CompileFailure CompileResult → List (String × String)
  | .ok (.report r) =>
    ("RESULT", "OK") :: (r.logs.map ("LOG", ·) ++ (r.groups.map (("GROUP", ·.text)) ++
      [("REPORT_JSON", r.encode.compact)]))
  | .ok (.preview p) =>
    ("RESULT", "OK") :: (p.logs.map ("LOG", ·) ++
      [("STATE_COUNT", toString p.stateCount), ("PREVIEW_JSON", p.encode.compact)])
  | .error f =>
    ("RESULT", "ERROR") :: ("ERROR_CODE", f.failure.code) ::
      ("ERROR_STATUS", toString f.failure.kind.statusCode) ::
      ("ERROR_MSG_JSON", (Json.string f.failure.detail).compact) :: f.logs.map ("LOG", ·)

theorem groupLine_eq (g : GroupReport) : groupLine g = "GROUP" ++ ":" ++ g.text := by
  simp [groupLine, GroupReport.text, String.append_assoc, toString]

theorem lines_eq_entries (result : Except CompileFailure CompileResult) :
    lines result = (entries result).map fun e => e.1 ++ ":" ++ e.2 := by
  rcases result with f | r | p
  · simp [lines, failureLines, entries, logLines, Function.comp_def, toString]
  · simp [lines, reportLines, entries, logLines, Function.comp_def, groupLine_eq]
  · simp [lines, previewLines, entries, logLines, Function.comp_def, toString]

theorem tag_of_mem_entries {result : Except CompileFailure CompileResult} {e : String × String}
    (h : e ∈ entries result) : ':' ∉ e.1.toList ∧ OneLine e.1 := by
  have tags : ∀ tag ∈ ["RESULT", "LOG", "GROUP", "REPORT_JSON", "STATE_COUNT", "PREVIEW_JSON",
      "ERROR_CODE", "ERROR_STATUS", "ERROR_MSG_JSON"], ':' ∉ tag.toList ∧ OneLine tag := by
    decide +kernel
  refine tags e.1 ?_
  rcases result with f | r | p
  · simp only [entries, List.mem_cons, List.mem_map] at h
    rcases h with rfl | rfl | rfl | rfl | ⟨_, -, rfl⟩ <;> simp
  · simp only [entries, List.mem_cons, List.mem_append, List.mem_map, List.not_mem_nil,
      or_false] at h
    rcases h with rfl | ⟨_, -, rfl⟩ | ⟨_, -, rfl⟩ | rfl <;> simp
  · simp only [entries, List.mem_cons, List.mem_append, List.mem_map, List.not_mem_nil,
      or_false] at h
    rcases h with rfl | ⟨_, -, rfl⟩ | rfl | rfl <;> simp

theorem tagged_lines {tag : String} (h : ':' ∉ tag.toList)
    (result : Except CompileFailure CompileResult) :
    tagged tag (lines result) = ((entries result).filter (·.1 = tag)).map (·.2) := by
  rw [lines_eq_entries, tagged, List.filterMap_map, ← List.filterMap_eq_map, List.filterMap_filter]
  refine List.filterMap_congr fun e he => ?_
  rw [Function.comp_apply, tagText?_tagged h (tag_of_mem_entries he).1]
  simp

end Command

/-! ### Answers -/

namespace Answer

/-- What a line tells of each group that is reported; a failure and a machine tell of none. -/
def toldGroups (a : Answer) : List (String × GroupStatus × Nat) :=
  match a.result with
  | .ok (.report r) => r.groups.map (·.told)
  | _ => []

/-- What a reader finds in the output of an answer. -/
structure Faithful (a : Answer) : Prop where
  lines : readLines (Command.output a) = Command.lines a.result
  result : tagged "RESULT" (readLines (Command.output a)) =
    [if a.result.isOk then "OK" else "ERROR"]
  logs : tagged "LOG" (readLines (Command.output a)) = a.logs
  groups : (tagged "GROUP" (readLines (Command.output a))).map readGroup? =
    a.toldGroups.map some
  code : tagged "ERROR_CODE" (readLines (Command.output a)) = (a.failure?.map (·.code)).toList

/-- The code is one line, and the groups have slugs for names. -/
structure Plain (a : Answer) : Prop where
  code : ∀ f, a.result = .error f → OneLine f.failure.code
  slugs : ∀ r, a.result = .ok (.report r) → ∀ g ∈ r.groups, isSlug g.slug = true

variable {a : Answer}

theorem Plain.oneLine_lines (h : a.Plain) (hl : ∀ entry ∈ a.logs, OneLine entry) :
    ∀ line ∈ Command.lines a.result, OneLine line := by
  have entries : ∀ e ∈ Command.entries a.result, OneLine e.2 := by
    intro e he
    unfold logs at hl
    rcases hr : a.result with f | r | p
    · rw [hr] at he hl
      simp only [Command.entries, List.mem_cons, List.mem_map] at he
      rcases he with rfl | rfl | rfl | rfl | ⟨entry, hentry, rfl⟩
      · decide
      · exact h.code f hr
      · exact oneLine_toString _
      · exact Json.newline_not_mem_compact _
      · exact hl entry hentry
    · rw [hr] at he hl
      simp only [Command.entries, List.mem_cons, List.mem_append, List.mem_map, List.not_mem_nil,
        or_false] at he
      rcases he with rfl | ⟨entry, hentry, rfl⟩ | ⟨g, hg, rfl⟩ | rfl
      · decide
      · exact hl entry hentry
      · exact oneLine_text (h.slugs r hr g hg)
      · exact Json.newline_not_mem_compact _
    · rw [hr] at he hl
      simp only [Command.entries, List.mem_cons, List.mem_append, List.mem_map, List.not_mem_nil,
        or_false] at he
      rcases he with rfl | ⟨entry, hentry, rfl⟩ | rfl | rfl
      · decide
      · exact hl entry hentry
      · exact oneLine_toString _
      · exact Json.newline_not_mem_compact _
  intro line hline
  rw [Command.lines_eq_entries] at hline
  obtain ⟨e, he, rfl⟩ := List.mem_map.mp hline
  simp only [oneLine_append]
  exact ⟨⟨(Command.tag_of_mem_entries he).2, by decide⟩, entries e he⟩

/-- **The output is faithful exactly if each entry of the log is one line.** -/
theorem Plain.faithful_iff (h : a.Plain) : a.Faithful ↔ ∀ entry ∈ a.logs, OneLine entry := by
  constructor
  · intro hf entry hentry
    have mem : "LOG" ++ ":" ++ entry ∈ readLines (Command.output a) := by
      have hlog : entry ∈ tagged "LOG" (readLines (Command.output a)) := hf.logs ▸ hentry
      obtain ⟨line, hline, htext⟩ := List.mem_filterMap.mp hlog
      exact tagText?_eq_some.mp htext ▸ hline
    exact (oneLine_append.mp (oneLine_of_mem_readLines mem)).2
  · intro hl
    have lines : readLines (Command.output a) = Command.lines a.result :=
      readLines_unlines_of_oneLine (h.oneLine_lines hl)
    constructor
    case lines => exact lines
    case result =>
      rw [lines, Command.tagged_lines (by decide)]
      rcases a.result with f | r | p
      · simp [Command.entries, List.filter_map, Function.comp_def, Except.isOk, Except.toBool]
      · simp [Command.entries, List.filter_map, Function.comp_def, Except.isOk, Except.toBool]
      · simp [Command.entries, List.filter_map, Function.comp_def, Except.isOk, Except.toBool]
    case logs =>
      rw [lines, Command.tagged_lines (by decide), logs]
      rcases a.result with f | r | p
      · simp [Command.entries, List.filter_map, Function.comp_def]
      · simp [Command.entries, List.filter_map, Function.comp_def, CompileResult.logs]
      · simp [Command.entries, List.filter_map, Function.comp_def, CompileResult.logs]
    case groups =>
      rw [lines, Command.tagged_lines (by decide), toldGroups]
      rcases hr : a.result with f | r | p
      · simp [Command.entries, List.filter_map, Function.comp_def]
      · have told : ∀ g ∈ r.groups, readGroup? g.text = some g.told :=
          fun g hg => readGroup?_text (h.slugs r hr g hg)
        simpa [Command.entries, List.filter_map, Function.comp_def] using told
      · simp [Command.entries, List.filter_map, Function.comp_def]
    case code =>
      rw [lines, Command.tagged_lines (by decide), failure?]
      rcases a.result with f | r | p
      · simp [Command.entries, List.filter_map, Function.comp_def]
      · simp [Command.entries, List.filter_map, Function.comp_def]
      · simp [Command.entries, List.filter_map, Function.comp_def]

end Answer

/-! ### What gets into a log -/

theorem oneLine_of_isWord {name : String} (h : IsWord name) : OneLine name := by
  intro hm
  have word : isWordChar '\n' = true := isWordChar_iff.mpr (h.2 _ hm)
  exact absurd word (by decide)

theorem oneLine_kind (a : Action) : OneLine a.kind := by
  cases a <;> simp [OneLine, Action.kind]

/-- The ids of segments are labels, or that of the start. -/
theorem oneLine_id {actions : List Action} (h : WellFormed actions) {s : Segment}
    (hs : s ∈ Segment.ofActions actions) : OneLine s.id := by
  have hid : s.id ∈ (compileChecked actions).machine.stateIds := by
    rw [stateIds_compileChecked]
    exact List.mem_map_of_mem hs
  have label {name : String} (hn : name ∈ labelNames actions) : OneLine name :=
    oneLine_of_isWord (h.named name (mem_labelNames.mp hn)).1
  rcases stateIds_eq h.nonempty with ⟨-, ids⟩ | ⟨-, ids⟩
  · exact label (ids ▸ hid)
  · obtain hstart | hlabel := List.mem_cons.mp (ids ▸ hid)
    · rw [hstart]
      decide +kernel
    · exact label hlabel

theorem oneLine_warning {actions : List Action} (h : WellFormed actions) :
    ∀ warning ∈ (compileChecked actions).warnings, OneLine warning := by
  intro warning hw
  obtain ⟨s, hs, hwarning⟩ := List.mem_filterMap.mp hw
  unfold Segment.warning? at hwarning
  dsimp only at hwarning
  split at hwarning
  · cases hwarning
  · cases hwarning
    have kind : OneLine (((Segment.cut s.actions).1.getLast?.map Action.kind).getD "") := by
      cases (Segment.cut s.actions).1.getLast? with
      | none => decide
      | some a => exact oneLine_kind a
    simp only [oneLine_append]
    exact ⟨⟨⟨⟨⟨⟨by decide, oneLine_id h hs⟩, by decide⟩, oneLine_toString _⟩, by decide +kernel⟩,
      kind⟩, by decide⟩

namespace GroupRun

variable {options : ScriptOptions} {tree : FileTree} {p : Project} {group : String}

theorem oneLine_logLine {tag text : String} (hg : OneLine group) (ht : OneLine tag)
    (h : OneLine text) : OneLine (logLine group tag text) := by
  simp only [logLine, oneLine_append]
  exact ⟨⟨⟨⟨⟨by decide, hg⟩, by decide⟩, ht⟩, by decide⟩, h⟩

theorem oneLine_fileText {file : String} (he : OneLine options.entryPoint) (hf : OneLine file)
    (run : UnitRun) : OneLine (fileText options file run) := by
  have count : OneLine s!"({run.actions.length} action(s))" := by
    simp only [oneLine_append]
    exact ⟨⟨by decide, oneLine_toString _⟩, by decide⟩
  have reason : ∀ reason, run.outcome.reason? options = some reason → OneLine reason := by
    intro reason hr
    cases ho : run.outcome with
    | completed =>
        rw [ho] at hr
        cases hr
    | skipped =>
        rw [ho] at hr
        cases hr
        decide
    | noEntryPoint =>
        rw [ho] at hr
        cases hr
        simp only [oneLine_append]
        exact ⟨⟨by decide +kernel, he⟩, by decide⟩
  unfold fileText
  dsimp only
  split
  case h_1 hr =>
    simp only [oneLine_append]
    exact ⟨⟨hf, by decide⟩, reason _ (by assumption)⟩
  case h_2 hr _ =>
    simp only [oneLine_append]
    exact ⟨⟨⟨⟨hf, by decide⟩, reason _ (by assumption)⟩, by decide⟩, count⟩
  case h_3 =>
    simp only [oneLine_append]
    exact ⟨⟨hf, by decide⟩, count⟩

theorem oneLine_files (hg : OneLine group) (he : OneLine options.entryPoint)
    {sources : List String} (hs : ∀ file ∈ sources, OneLine file) :
    ∀ entry ∈ (files options tree p group sources).logs, OneLine entry := by
  induction sources with
  | nil => exact nofun
  | cons file rest ih =>
      obtain ⟨hfile, hrest⟩ := List.forall_mem_cons.mp hs
      unfold files
      dsimp only
      split
      · exact nofun
      · rename_i ran _
        have tag : OneLine ran.outcome.tag := by cases ran.outcome <;> decide
        exact List.forall_mem_cons.mpr
          ⟨oneLine_logLine hg tag (oneLine_fileText he hfile ran), ih hrest⟩

theorem oneLine_compileActions (hg : OneLine group) (actions : List Action) :
    ∀ entry ∈ (compileActions p group actions).logs, OneLine entry := by
  unfold compileActions
  split
  · exact nofun
  · split
    · exact nofun
    · rename_i c hc
      obtain ⟨hw, rfl⟩ := compile_eq_ok_iff.mp hc
      intro entry hentry
      obtain ⟨warning, hwarning, rfl⟩ := List.mem_map.mp hentry
      exact oneLine_logLine hg (by decide) (oneLine_warning hw warning hwarning)

theorem oneLine_run {g : ScriptGroup} (hg : OneLine g.slug) (he : OneLine options.entryPoint)
    (hs : ∀ file ∈ g.sourceFiles, OneLine file) :
    ∀ entry ∈ (run options tree p g).logs, OneLine entry := by
  have ran : ∀ entry ∈ (files options tree p g.slug g.sourceFiles).logs, OneLine entry :=
    oneLine_files hg he hs
  unfold run
  dsimp only
  split
  · exact ran
  · exact List.forall_mem_append.mpr ⟨ran, oneLine_compileActions hg _⟩

end GroupRun

namespace Request

variable {config : Config} {p : Project} {tree : FileTree}

/-- The texts that get into a log as they are. -/
structure PlainTexts (config : Config) (groups : List ScriptGroup) : Prop where
  entryPoint : OneLine config.entryPoint
  files : ∀ g ∈ groups, ∀ file ∈ g.sourceFiles, OneLine file

theorem oneLine_compileGroups {kept : Bool} {groups : List ScriptGroup}
    (hslugs : ∀ g ∈ groups, isSlug g.slug = true) (h : PlainTexts config groups) :
    ∀ entry ∈ (compileGroups config p kept tree groups).logs, OneLine entry := by
  induction groups generalizing tree with
  | nil => exact nofun
  | cons g rest ih =>
      have ran : ∀ entry ∈ (GroupRun.run config.scriptOptions tree p g).logs, OneLine entry :=
        GroupRun.oneLine_run (oneLine_of_isSlug (hslugs g List.mem_cons_self)) h.entryPoint
          (h.files g List.mem_cons_self)
      have hrest : PlainTexts config rest :=
        ⟨h.entryPoint, fun g' hg' => h.files g' (List.mem_cons_of_mem _ hg')⟩
      simp only [compileGroups]
      split
      · exact ran
      · exact List.forall_mem_append.mpr
          ⟨ran, ih (fun g' hg' => hslugs g' (List.mem_cons_of_mem _ hg')) hrest⟩

theorem slugs_compileGroups {kept : Bool} {groups : List ScriptGroup} :
    ∀ g ∈ (compileGroups config p kept tree groups).groups, g.slug ∈ groups.map (·.slug) := by
  induction groups generalizing tree with
  | nil => exact nofun
  | cons g rest ih =>
      simp only [compileGroups]
      split
      · exact fun g' hg' => List.mem_singleton.mp hg' ▸ List.mem_cons_self
      · exact List.forall_mem_cons.mpr
          ⟨List.mem_cons_self, fun g' hg' => List.mem_cons_of_mem _ (ih g' hg')⟩

/-- A machine is shown, or refused, with the log of its group. -/
theorem logs_showing (events : List Event) (group : String) (ran : Told (Option Compilation)) :
    (Answer.mk tree events (showing group ran)).logs = ran.logs := by
  unfold Answer.logs showing
  dsimp only
  rcases ran.result with f | _ | c
  · rfl
  · rfl
  · rfl

/-- What a request to a loaded project reports has slugs for names. -/
theorem slugs_compileProject (hw : Manifest.WellNamed p.groups) {r : Request} {report : Report}
    (h : (r.compileProject config p tree).result = .ok (.report report)) :
    ∀ g ∈ report.groups, isSlug g.slug = true := by
  have all {kept : Bool} (h : (compileAll config p r.group kept tree).result =
      .ok (.report report)) : ∀ g ∈ report.groups, isSlug g.slug = true := by
    unfold compileAll at h
    split at h
    · cases h
    · rename_i groups hs
      unfold answerOf at h
      dsimp only at h
      split at h
      · cases h
      · cases h
        intro g hg
        obtain ⟨g', hg', e⟩ := List.mem_map.mp (slugs_compileGroups g hg)
        exact e ▸ (Project.wellNamed_select hw hs).slugs g' hg'
  unfold compileProject at h
  split at h
  · unfold previewGroup showing at h
    split at h
    · cases h
    · dsimp only at h
      split at h <;> cases h
  · exact all h
  · exact all h

/-- Codes and slugs can be written in a line. -/
theorem plain_run (r : Request) (config : Config) (tree : FileTree) :
    (r.run config tree).Plain where
  code f hf := by
    have listed : ∀ x ∈ failures r.mode, OneLine x.2 := by cases r.mode <;> decide +kernel
    exact listed _ (failure_in hf)
  slugs report hr := by
    cases hl : (Project.load config tree r.project).2 with
    | error f =>
        rw [(run_of_load_error hl).2] at hr
        cases hr
    | ok p =>
        rw [(run_of_load_ok hl).2] at hr
        exact slugs_compileProject (Project.loaded_of_load hl).groups hr

theorem oneLine_compileProject (hw : Manifest.WellNamed p.groups)
    (h : PlainTexts config p.groups) (r : Request) :
    ∀ entry ∈ (r.compileProject config p tree).logs, OneLine entry := by
  have all (kept : Bool) : ∀ entry ∈ (compileAll config p r.group kept tree).logs,
      OneLine entry := by
    unfold compileAll
    split
    · exact nofun
    · rename_i groups hs
      rw [logs_answerOf]
      exact oneLine_compileGroups (Project.wellNamed_select hw hs).slugs
        ⟨h.entryPoint, fun g hg => h.files g (Project.select_subset hs hg)⟩
  unfold compileProject
  split
  · unfold previewGroup
    split
    · exact nofun
    · rename_i g hc
      have hg := Project.mem_of_chosen hc
      rw [logs_showing]
      exact GroupRun.oneLine_run (oneLine_of_isSlug (hw.slugs g hg)) h.entryPoint (h.files g hg)
  · exact all true
  · exact all false

theorem oneLine_logs {r : Request} (h : ∀ p, (Project.load config tree r.project).2 = .ok p →
      PlainTexts config p.groups) :
    ∀ entry ∈ (r.run config tree).logs, OneLine entry := by
  unfold Answer.logs
  cases hl : (Project.load config tree r.project).2 with
  | error f =>
      rw [(run_of_load_error hl).2]
      exact nofun
  | ok p =>
      rw [(run_of_load_ok hl).2]
      exact oneLine_compileProject (Project.loaded_of_load hl).groups (h p hl) r

end Request

/-- **What can be read from the output of a command**: all of it exactly if each entry of the log
is one line, and so it is where the names of the entry point and of the source files are. -/
theorem Command.faithful_output (c : Command) (tree : FileTree) :
    ((c.run tree).Faithful ↔ ∀ entry ∈ (c.run tree).logs, OneLine entry) ∧
      ((∀ p, (Project.load c.config tree c.request.project).2 = .ok p →
        Request.PlainTexts c.config p.groups) → (c.run tree).Faithful) := by
  have exactly := (Request.plain_run c.request c.config tree).faithful_iff
  exact ⟨exactly, fun h => exactly.mpr (Request.oneLine_logs h)⟩

theorem faithful_output_threeGroups :
    ∃ c, Command.parse ["check", "--project", "demo"] = .ok c ∧
      (∀ p, (Project.load c.config threeGroups c.request.project).2 = .ok p →
        Request.PlainTexts c.config p.groups) ∧
      (c.run threeGroups).Faithful := by
  refine ⟨{ request := ⟨"demo", .check, none⟩, config := {} }, by with_unfolding_all rfl, ?_⟩
  have files : (Project.load {} threeGroups "demo").2.toOption.all (fun p =>
      ∀ g ∈ p.groups, ∀ file ∈ g.sourceFiles, OneLine file) = true := by decide +kernel
  have texts : ∀ p, (Project.load {} threeGroups "demo").2 = .ok p →
      Request.PlainTexts {} p.groups := by
    intro p hl
    rw [hl] at files
    exact ⟨by decide, of_decide_eq_true files⟩
  exact ⟨texts, (Command.faithful_output _ threeGroups).2 texts⟩

/-- A piece of an entry of the log is read as a line. -/
theorem Answer.mem_readLines_of_logs {a : Answer} {line entry : String} (he : entry ∈ a.logs)
    (h : line ∈ pieces '\n' ("LOG" ++ ":" ++ entry)) : line ∈ readLines (Command.output a) := by
  have written : ("LOG", entry) ∈ Command.entries a.result := by
    unfold logs at he
    rcases hr : a.result with f | r | p
    · rw [hr] at he
      simp only [Command.entries, List.mem_cons, List.mem_map]
      exact .inr (.inr (.inr (.inr ⟨entry, he, rfl⟩)))
    · rw [hr] at he
      exact List.mem_cons_of_mem _ (List.mem_append_left _ (List.mem_map_of_mem he))
    · rw [hr] at he
      exact List.mem_cons_of_mem _ (List.mem_append_left _ (List.mem_map_of_mem he))
  rw [Command.output, readLines_unlines, Command.lines_eq_entries]
  exact List.mem_flatMap.mpr ⟨_, List.mem_map_of_mem written, h⟩

/-- A name with line ends in it writes lines of its own: the run fails, and yet a line tells that it
did not. -/
theorem result_of_broken_entry :
    ∃ c, Command.parse ["check", "--project", "demo", "--entry-point", "x\nRESULT:OK\n"] = .ok c ∧
      (c.run threeGroups).result.isOk = false ∧
      "RESULT:OK" ∈ readLines (Command.output (c.run threeGroups)) ∧
      ¬ (c.run threeGroups).Faithful := by
  refine ⟨{ request := ⟨"demo", .check, none⟩, config := { entryPoint := "x\nRESULT:OK\n" } },
    by with_unfolding_all rfl, ?_⟩
  generalize ha : Command.run _ threeGroups = a
  have failed : a.result.isOk = false := by
    rw [← ha]
    decide +kernel
  have forged : a.logs.any
      (fun entry => "RESULT:OK" ∈ pieces '\n' ("LOG" ++ ":" ++ entry)) = true := by
    rw [← ha]
    decide +kernel
  obtain ⟨entry, he, hp⟩ := List.any_eq_true.mp forged
  have line := Answer.mem_readLines_of_logs he (of_decide_eq_true hp)
  refine ⟨failed, line, fun h => ?_⟩
  -- the line that is forged is a second one with the tag of the result
  have told : "OK" ∈ tagged "RESULT" (readLines (Command.output a)) :=
    List.mem_filterMap.mpr ⟨_, line, tagText?_eq_some.mpr rfl⟩
  rw [h.result, failed] at told
  exact absurd told (by decide)

end Dialogue
