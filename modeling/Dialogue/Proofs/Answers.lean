import Dialogue.Proofs.Footprint

/-!
# What answers tell

The failure, the log and the groups of an answer are there whether the request failed or not.
A request to compile all groups answers what compiling them one after the other comes to
(`run_of_load_ok`), and that is settled by the first group and then the others
(`compileGroups_cons_of_failed`,
`compileGroups_cons_of_finished`).  Of one group, the report and each line of the log carry its slug
(`One`).
-/

namespace Dialogue

open FileTree (ChangesOnly)

/-! ### Reading an answer -/

namespace Answer

/-- Why the request failed, if it did. -/
def failure? (a : Answer) : Option Failure :=
  match a.result with
  | .ok _ => none
  | .error f => some f.failure

def logs (a : Answer) : List String :=
  match a.result with
  | .ok result => result.logs
  | .error f => f.logs

/-- The groups that are reported. -/
def groups (a : Answer) : List GroupReport :=
  match a.result with
  | .ok (.report r) => r.groups
  | .ok (.preview _) => []
  | .error f => f.groups

theorem groups_of_error {a : Answer} {f : CompileFailure} (h : a.result = .error f) :
    a.groups = f.groups := by
  rw [groups, h]

end Answer

namespace Request

section AnswerOf

variable (kept : Bool) (r : GroupsRun)

@[simp]
theorem tree_answerOf : (answerOf kept r).tree = r.tree := rfl

@[simp]
theorem failure?_answerOf : (answerOf kept r).failure? = r.failure? := by
  unfold answerOf Answer.failure?
  cases r.failure? <;> rfl

@[simp]
theorem logs_answerOf : (answerOf kept r).logs = r.logs := by
  unfold answerOf Answer.logs
  cases r.failure? <;> rfl

@[simp]
theorem groups_answerOf : (answerOf kept r).groups = r.groups := by
  unfold answerOf Answer.groups
  cases r.failure? <;> rfl

/-- Compiling groups is never answered by a machine to show. -/
theorem report_answerOf :
    (∃ report, (answerOf kept r).result = .ok (.report report)) ↔ r.failure? = none := by
  unfold answerOf
  cases r.failure? <;> simp

end AnswerOf

/-! ### Carrying out a request -/

theorem run_of_load_error {r : Request} {config : Config} {tree : FileTree} {f : Failure}
    (h : (Project.load config tree r.project).2 = .error f) :
    (r.run config tree).tree = tree ∧ (r.run config tree).result = .error { failure := f } := by
  simp only [run, h, refused, and_self]

theorem run_of_load_ok {r : Request} {config : Config} {tree : FileTree} {p : Project}
    (h : (Project.load config tree r.project).2 = .ok p) :
    (r.run config tree).tree = (r.compileProject config p tree).tree ∧
      (r.run config tree).result = (r.compileProject config p tree).result := by
  simp only [run, h, and_self]

theorem compileProject_of_ne_preview {r : Request} (h : r.mode ≠ .preview) (config : Config)
    (p : Project) (tree : FileTree) :
    r.compileProject config p tree = compileAll config p r.group (r.mode == .persist) tree := by
  unfold compileProject
  cases hm : r.mode with
  | persist | check => rfl
  | preview => exact absurd hm h

end Request

/-! ### One group and then the others -/

/-- What some groups leave behind, and then some others. -/
def GroupsRun.followedBy (r later : GroupsRun) : GroupsRun :=
  { later with
    logs := r.logs ++ later.logs
    events := r.events ++ later.events
    groups := r.groups ++ later.groups }

namespace Request

variable {config : Config} {p : Project} {kept : Bool} {tree : FileTree} {g : ScriptGroup}

theorem compileGroups_cons_of_failed {rest : List ScriptGroup} {f : Failure}
    (h : (compileGroups config p kept tree [g]).failure? = some f) :
    compileGroups config p kept tree (g :: rest) = compileGroups config p kept tree [g] := by
  simp only [compileGroups] at h ⊢
  generalize settle config p kept tree g.slug
    (GroupRun.run config.scriptOptions tree p g).result = settled at h ⊢
  rcases settled with ⟨left, f | ⟨events, outcome⟩⟩
  · rfl
  · cases h

theorem compileGroups_cons_of_finished {rest : List ScriptGroup}
    (h : (compileGroups config p kept tree [g]).failure? = none) :
    compileGroups config p kept tree (g :: rest) =
      (compileGroups config p kept tree [g]).followedBy
        (compileGroups config p kept (compileGroups config p kept tree [g]).tree rest) := by
  simp only [compileGroups] at h ⊢
  generalize settle config p kept tree g.slug
    (GroupRun.run config.scriptOptions tree p g).result = settled at h ⊢
  rcases settled with ⟨left, f | ⟨events, outcome⟩⟩
  · cases h
  · simp [GroupsRun.followedBy]

/-- Checking changes nothing. -/
theorem tree_compileGroups_checked {groups : List ScriptGroup} :
    (compileGroups config p false tree groups).tree = tree := by
  induction groups with
  | nil => rfl
  | cons g rest ih =>
      simp only [compileGroups]
      rcases (GroupRun.run config.scriptOptions tree p g).result with f | _ | c
      · rfl
      · exact ih
      · exact ih

end Request

/-! ### One group -/

section OneGroup

variable {config : Config} {p : Project} {tree : FileTree} {g : ScriptGroup}
  {ran : Told (Option Compilation)}

/-- What a group comes to whose machine is kept, by how it ran. -/
inductive KeptOne (config : Config) (p : Project) (tree : FileTree) (g : ScriptGroup)
    (ran : Told (Option Compilation)) : GroupsRun → Prop
  | fault {f : Failure} (h : ran.result = .error f) :
      KeptOne config p tree g ran
        { tree, logs := ran.logs, events := ran.events, groups := [.failed g.slug f],
          failure? := some f }
  | empty (h : ran.result = .ok none) :
      KeptOne config p tree g ran
        { tree, logs := ran.logs, events := ran.events, groups := [⟨g.slug, .empty⟩] }
  | kept {c : Compilation} {left : FileTree} (h : ran.result = .ok (some c))
      (hk : Artifact.keep config p g.slug c.machine tree = (left, none)) :
      KeptOne config p tree g ran
        { tree := left, logs := ran.logs,
          events := ran.events ++ [Artifact.written (config.artifactPath p.dir g.slug)],
          groups := [⟨g.slug, .success c.machine.states.length⟩] }
  | unkept {c : Compilation} {left : FileTree} {f : Failure} (h : ran.result = .ok (some c))
      (hk : Artifact.keep config p g.slug c.machine tree = (left, some f)) :
      KeptOne config p tree g ran
        { tree := left, logs := ran.logs, events := ran.events, groups := [.failed g.slug f],
          failure? := some f }

theorem Request.keptOne (hr : GroupRun.run config.scriptOptions tree p g = ran) :
    KeptOne config p tree g ran (compileGroups config p true tree [g]) := by
  simp only [compileGroups, hr, settle, if_true]
  rcases h : ran.result with f | _ | c
  · exact .fault h
  · simpa only [List.append_nil] using KeptOne.empty h
  · cases hk : Artifact.keep config p g.slug c.machine tree with
    | mk left fault? =>
        simp only [hk]
        cases fault? with
        | some f => exact .unkept h hk
        | none => simpa only [List.append_nil] using KeptOne.kept h hk

/-- What keeping an artifact leaves in force, compiling groups leaves in force. -/
theorem Request.compileGroups_invariant {I : FileTree → Prop} {groups : List ScriptGroup}
    (hkeep : ∀ g ∈ groups, ∀ (m : Machine) (t : FileTree), I t →
      I (Artifact.keep config p g.slug m t).1)
    (h : I tree) : I (compileGroups config p true tree groups).tree := by
  induction groups generalizing tree with
  | nil => exact h
  | cons g rest ih =>
      obtain ⟨hg, hrest⟩ := List.forall_mem_cons.mp hkeep
      have hfirst : I (compileGroups config p true tree [g]).tree := by
        have hone : KeptOne config p tree g _ (compileGroups config p true tree [g]) := keptOne rfl
        generalize compileGroups config p true tree [g] = one at hone
        cases hone with
        | fault _ => exact h
        | empty _ => exact h
        | @kept c left _ hk | @unkept c left _ _ hk =>
            have := hg c.machine tree h
            rwa [hk] at this
      cases hf : (compileGroups config p true tree [g]).failure? with
      | some f => rwa [compileGroups_cons_of_failed hf]
      | none =>
          rw [compileGroups_cons_of_finished hf]
          exact ih hrest hfirst

end OneGroup

/-- A line of the log that a group has written. -/
def LineOf (group line : String) : Prop := ∃ tag text, line = GroupRun.logLine group tag text

/-- The slug of the group can be read off a line. -/
theorem LineOf.unique {a b line : String} (ha : LineOf a line) (hb : LineOf b line)
    (hsa : isSlug a = true) (hsb : isSlug b = true) : a = b := by
  -- a slug has no closing bracket, so the first one in the line ends it
  have read : ∀ {s : String}, isSlug s = true → LineOf s line →
      line.toList.tail.takeWhile (· != ']') = s.toList := by
    rintro s hs ⟨tag, text, rfl⟩
    have hl : ∃ more, (GroupRun.logLine s tag text).toList.tail = s.toList ++ ']' :: more :=
      ⟨(" " ++ tag ++ " " ++ text).toList, by simp [GroupRun.logLine, toString]⟩
    obtain ⟨more, hl⟩ := hl
    rw [hl, List.takeWhile_append_of_pos]
    · simp
    · intro c hc
      have hne : c ≠ ']' := fun e => not_mem_of_isSlug hs (c := ']') (by decide) (e ▸ hc)
      simpa using hne
  exact String.toList_inj.mp ((read hsa ha).symm.trans (read hsb hb))

/-- What compiling one group comes to. -/
structure One (loc : Location) (group : String) (tree : FileTree) (r : GroupsRun) : Prop where
  changes : ChangesOnly (Kept loc group) tree r.tree
  lines : ∀ line ∈ r.logs, LineOf group line
  finished : r.failure? = none →
    ∃ outcome, outcome.status ≠ .failed ∧ r.groups = [⟨group, outcome⟩]
  failed : ∀ f, r.failure? = some f → r.groups = [.failed group f]

theorem One.count {loc : Location} {group : String} {tree : FileTree} {r : GroupsRun}
    (h : One loc group tree r) : r.groups.length = 1 := by
  cases hf : r.failure? with
  | none =>
      obtain ⟨outcome, -, hg⟩ := h.finished hf
      rw [hg, List.length_singleton]
  | some f => rw [h.failed f hf, List.length_singleton]

namespace GroupRun

theorem lines_files (options : ScriptOptions) (tree : FileTree) (p : Project) (group : String)
    (sources : List String) :
    ∀ line ∈ (files options tree p group sources).logs, LineOf group line := by
  induction sources with
  | nil => exact nofun
  | cons file rest ih =>
      unfold files
      dsimp only
      split
      · exact nofun
      · intro line hl
        rcases List.mem_cons.mp hl with rfl | hl
        · exact ⟨_, _, rfl⟩
        · exact ih line hl

theorem lines_compileActions (p : Project) (group : String) (actions : List Action) :
    ∀ line ∈ (compileActions p group actions).logs, LineOf group line := by
  unfold compileActions
  split
  · exact nofun
  · split
    · exact nofun
    · intro line hl
      obtain ⟨warning, -, rfl⟩ := List.mem_map.mp hl
      exact ⟨_, _, rfl⟩

theorem lines_run (options : ScriptOptions) (tree : FileTree) (p : Project) (g : ScriptGroup) :
    ∀ line ∈ (run options tree p g).logs, LineOf g.slug line := by
  unfold run
  dsimp only
  split
  · exact lines_files options tree p g.slug g.sourceFiles
  · intro line hl
    rcases List.mem_append.mp hl with hl | hl
    · exact lines_files options tree p g.slug g.sourceFiles line hl
    · exact lines_compileActions p g.slug _ line hl

end GroupRun

namespace Request

/-- A group that is settled did not fail. -/
theorem settle_status {config : Config} {p : Project} {kept : Bool} {tree left : FileTree}
    {group : String} {result : Except Failure (Option Compilation)} {events : List Event}
    {outcome : GroupOutcome}
    (h : settle config p kept tree group result = (left, .ok (events, outcome))) :
    outcome.status ≠ .failed := by
  unfold settle at h
  repeat' split at h
  all_goals cases h
  all_goals exact nofun

theorem one_compileGroups {config : Config} {p : Project} {tree : FileTree} {loc : Location}
    {g : ScriptGroup} (hc : config.generatedDir = "generated") (hd : tree.FolderAt p.dir loc)
    (hb : Path.IsBase p.dir) (hs : isSlug g.slug = true) (kept : Bool) :
    One loc g.slug tree (compileGroups config p kept tree [g]) := by
  have hlines := GroupRun.lines_run config.scriptOptions tree p g
  have hchanges := settle_changes hc hd hb hs kept
    (GroupRun.run config.scriptOptions tree p g).result
  simp only [compileGroups]
  cases hset : settle config p kept tree g.slug
      (GroupRun.run config.scriptOptions tree p g).result with
  | mk left settled =>
      rw [hset] at hchanges
      cases settled with
      | error f => exact ⟨hchanges, hlines, nofun, fun f' hf => by cases hf; rfl⟩
      | ok told =>
          obtain ⟨events, outcome⟩ := told
          refine ⟨hchanges, ?_, fun _ => ⟨outcome, settle_status hset, rfl⟩, nofun⟩
          simpa using hlines

/-- **Groups change their artifacts and the folder of artifacts, at most.** -/
theorem changes_compileGroups {config : Config} {p : Project} {tree : FileTree} {loc : Location}
    {groups : List ScriptGroup} (hc : config.generatedDir = "generated")
    (hd : tree.FolderAt p.dir loc) (hb : Path.IsBase p.dir) (hw : Manifest.WellNamed groups) :
    ChangesOnly (fun q => ∃ g ∈ groups, Kept loc g.slug q) tree
      (compileGroups config p true tree groups).tree := by
  -- the folder of the project has to stay for the next group
  refine (compileGroups_invariant (I := fun t => t.FolderAt p.dir loc ∧
    ChangesOnly (fun q => ∃ g ∈ groups, Kept loc g.slug q) tree t) ?_ ⟨hd, .refl _ _⟩).2
  rintro g hg m t ⟨hdir, hchanges⟩
  have hkept := Artifact.keep_changes hc hdir hb (hw.slugs g hg) m
  exact ⟨hdir.mono hkept.folders, hchanges.trans (hkept.mono fun q hq => ⟨g, hg, hq⟩)⟩

end Request

end Dialogue
