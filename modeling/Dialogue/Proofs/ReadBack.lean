import Dialogue.Proofs.Answers
import Dialogue.Proofs.Artifacts
import Dialogue.Proofs.Closed
import Dialogue.Proofs.RoundTrip
import Dialogue.Proofs.Sources

/-!
# What a run leaves to be read

A group that is reported to be compiled has left its artifact, and what comes after it in the same
run does not touch it (`Request.artifact_of_success`).  The artifact is that of the machine its
scripts' actions are compiled to, whose nesting is always within the reader's bound
(`depth_compile`).

It is read back as this machine if the numbers in it are finite.  The compiler does not see to
that: a script can compute a number that is not, and then the artifact holds a `null` that no
reader takes for a flag value (`artifact_of_nan_unreadable`).
-/

namespace Dialogue

/-! ### The nesting of compiled machines -/

theorem Condition.depth_encode (c : Condition) : c.encode.depth ≤ 1 := by
  rw [← Nat.zero_add 1]
  cases c with
  | flag key op value scope => cases value <;> simp [encode, FlagValue.encode]
  | time t => simp [encode]

theorem Action.depth_encode {a : Action} (flat : ∀ condition block, a ≠ .conditional condition block) :
    a.encode.depth ≤ 3 := by
  cases a with
  | conditional condition block => exact absurd rfl (flat condition block)
  | setFlag key value scope => cases value <;> simp [encode, FlagValue.encode]
  | say speaker text voice =>
      cases speaker <;> cases voice <;> simp [encode, Json.ofText?]
  | choice options => simp [encode, ChoiceOption.encode]
  | unlockDialogue events => simp [encode, Json.ofTexts]
  | _ => simp [encode]

theorem Transition.depth_encode (t : Transition) : t.encode.depth ≤ 2 := by
  cases t with
  | conditional condition target => simp [encode, condition.depth_encode]
  | conditionalFinish condition => simp [encode, condition.depth_encode]
  | _ => simp [encode]

/-- Blocks hold no blocks, so brackets stand at most nine deep. -/
theorem depth_compile {xs : List Action} {c : Compilation} (h : compile xs = .ok c) :
    c.machine.encode.depth ≤ 9 := by
  obtain ⟨hw, rfl⟩ := compile_eq_ok_iff.mp h
  have hactions : ∀ s ∈ (compileChecked xs).machine.states, ∀ a ∈ s.body, a.encode.depth ≤ 5 := by
    intro s hs a ha
    cases a with
    | conditional condition block =>
        have hblock : ∀ b ∈ block, b.encode.depth ≤ 3 := fun b hb =>
          Action.depth_encode (hw.flat condition block (.here (body_subset hs ha)) b (.here hb)).2
        have hc := condition.depth_encode
        simpa [Action.encode, Action.encodeAll_eq_map, Nat.le_trans hc] using hblock
    | _ => exact Nat.le_trans (Action.depth_encode nofun) (by decide)
  have hmoves : ∀ s ∈ (compileChecked xs).machine.states, ∀ t ∈ s.transitions,
      t.encode.depth ≤ 5 := fun s _ t _ => Nat.le_trans t.depth_encode (by decide)
  simpa [Machine.encode, State.encode, Action.encodeAll_eq_map] using
    fun s hs => And.intro (hactions s hs) (hmoves s hs)

/-! ### Artifacts of a run -/

/-- A machine is what the actions are compiled to that the files of the group recorded. -/
theorem GroupRun.exists_actions {options : ScriptOptions} {tree : FileTree} {p : Project}
    {g : ScriptGroup} {c : Compilation} (h : (run options tree p g).result = .ok (some c)) :
    ∃ actions, (files options tree p g.slug g.sourceFiles).result = .ok actions ∧
      compile actions = .ok c := by
  unfold run at h
  dsimp only at h
  split at h
  · cases h
  · rename_i actions hf
    refine ⟨actions, hf, ?_⟩
    unfold compileActions at h
    split at h
    · cases h
    · split at h
      · cases h
      · rename_i hc
        cases h
        exact hc

namespace Request

variable {config : Config} {p : Project} {tree : FileTree} {g : ScriptGroup}
  {groups : List ScriptGroup} {slug : String} {content : Content} {n : Nat}

/-- The artifact of one group stays while others are compiled. -/
theorem read_compileGroups (hb : Path.IsBase p.dir) (hslug : isSlug slug = true)
    (hothers : ∀ g ∈ groups, isSlug g.slug = true ∧ slug ≠ g.slug)
    (hr : tree.read (config.artifactPath p.dir slug) = .ok content) :
    (compileGroups config p true tree groups).tree.read (config.artifactPath p.dir slug)
      = .ok content := by
  refine compileGroups_invariant
    (I := fun t => t.read (config.artifactPath p.dir slug) = .ok content) ?_ hr
  intro g hg m t ht
  obtain ⟨hs, hne⟩ := hothers g hg
  exact Artifact.read_keep_of_ne hb hslug hs hne ht

/-- The group with that slug is compiled: to a machine made of the actions that its files
record, when they run on what the groups before it left. -/
inductive Compiles (config : Config) (p : Project) (tree : FileTree) (groups : List ScriptGroup)
    (slug : String) (c : Compilation) : Prop
  | intro (before : List ScriptGroup) (g : ScriptGroup) (after : List ScriptGroup)
      (actions : List Action) (split : groups = before ++ g :: after) (named : g.slug = slug)
      (files : (GroupRun.files config.scriptOptions
        (compileGroups config p true tree before).tree p g.slug g.sourceFiles).result = .ok actions)
      (compiled : compile actions = .ok c)

/-- A group that is reported to be compiled has left its artifact. -/
theorem read_of_success (hb : Path.IsBase p.dir) (hw : Manifest.WellNamed groups)
    (h : ⟨slug, .success n⟩ ∈ (compileGroups config p true tree groups).groups) :
    ∃ c, Compiles config p tree groups slug c ∧ n = c.machine.states.length ∧
      (compileGroups config p true tree groups).tree.read (config.artifactPath p.dir slug)
        = .ok (.text c.machine.artifact) := by
  induction groups generalizing tree with
  | nil => cases h
  | cons g rest ih =>
      have hone : KeptOne config p tree g _ (compileGroups config p true tree [g]) := keptOne rfl
      cases hf : (compileGroups config p true tree [g]).failure? with
      | some f =>
          rw [compileGroups_cons_of_failed hf] at h
          generalize compileGroups config p true tree [g] = one at hone h hf
          cases hone <;> cases hf
          · cases List.mem_singleton.mp h
          · cases List.mem_singleton.mp h
      | none =>
          rw [compileGroups_cons_of_finished hf] at h ⊢
          rcases List.mem_append.mp h with h | h
          · generalize hg : compileGroups config p true tree [g] = one at hone h hf
            cases hone with
            | fault => cases hf
            | unkept => cases hf
            | empty => cases List.mem_singleton.mp h
            | @kept c left hran hk =>
                cases List.mem_singleton.mp h
                obtain ⟨actions, hfiles, hc⟩ := GroupRun.exists_actions hran
                have hothers : ∀ g' ∈ rest, isSlug g'.slug = true ∧ g.slug ≠ g'.slug :=
                  fun g' hg' => ⟨hw.tail.slugs g' hg', hw.ne_of_mem hg'⟩
                exact ⟨c, .intro [] g rest actions rfl rfl hfiles hc, rfl,
                  read_compileGroups hb hw.head hothers (Artifact.read_keep hk)⟩
          · obtain ⟨c, ⟨before, g', after, actions, rfl, hnamed, hfiles, hc⟩, hn, hread⟩ :=
              ih hw.tail h
            refine ⟨c, .intro (g :: before) g' after actions rfl hnamed ?_ hc, hn, hread⟩
            rw [compileGroups_cons_of_finished hf]
            exact hfiles

/-- **The artifact of a group that is reported to be compiled is there after the run**, and is
read back as the machine that the group's scripts make, if every number in it is finite and is
read back. -/
theorem artifact_of_success {config : Config} {tree : FileTree} {project : String}
    {filter : Option String} {slug : String} {n : Nat}
    (h : ⟨slug, .success n⟩ ∈ (run ⟨project, .persist, filter⟩ config tree).groups) :
    ∃ p groups c, (Project.load config tree project).2 = .ok p ∧ p.select filter = .ok groups ∧
      Compiles config p tree groups slug c ∧ n = c.machine.states.length ∧
      (run ⟨project, .persist, filter⟩ config tree).tree.read (config.artifactPath p.dir slug)
        = .ok (.text c.machine.artifact) ∧
      ((∀ x ∈ c.machine.numbers, x.isFinite = true) →
        (∀ x ∈ c.machine.numbers, x.isFinite = true → Json.ReadsBack (.float x)) →
        Machine.decoder.decode c.machine.artifact = .ok c.machine) := by
  cases hl : (Project.load config tree project).2 with
  | error f =>
      rw [Answer.groups_of_error (run_of_load_error (r := ⟨project, .persist, filter⟩) hl).2] at h
      cases h
  | ok p =>
      obtain ⟨ht, hr⟩ := run_of_load_ok (r := ⟨project, .persist, filter⟩) hl
      rw [Answer.groups, hr, ← Answer.groups] at h
      rw [ht]
      simp only [compileProject, compileAll] at h ⊢
      cases hs : p.select filter with
      | error f =>
          rw [hs] at h
          cases h
      | ok groups =>
          have hp := Project.loaded_of_load hl
          rw [hs] at h
          simp only [groups_answerOf, tree_answerOf] at h ⊢
          obtain ⟨c, hc, hn, hread⟩ :=
            read_of_success hp.isBase (Project.wellNamed_select hp.groups hs) h
          refine ⟨p, groups, c, rfl, hs, hc, hn, hread, fun hfinite hnumbers => ?_⟩
          obtain ⟨before, g, after, actions, -, -, -, hcompile⟩ := hc
          have hdepth : c.machine.encode.depth ≤ Json.Reader.deepest :=
            Nat.le_trans (depth_compile hcompile) (by decide)
          exact c.machine.decode_artifact hdepth hfinite hnumbers

end Request

/-- A project whose one script sets a flag to a value. -/
def flagProject (value : String) : FileTree :=
  ⟨[(["projects"], .folder), (["projects", "demo"], .folder),
    (["projects", "demo", "main.rhai"], .file (.text
      ("let x = 0.0; label(\"a\"); set_flag(\"k\", " ++ value ++ ");")))]⟩

/-- The numbers of the one machine that the project is compiled to are finite and read back. -/
def soundNumbers (t : FileTree) : Bool :=
  match (Project.load {} t "demo").2 with
  | .ok p => match p.groups with
    | [g] => match (GroupRun.files (Config.scriptOptions {}) t p g.slug g.sourceFiles).result with
      | .ok actions => match compile actions with
        | .ok c => c.machine.numbers.all fun x => x.isFinite && decide (Json.ReadsBack (.float x))
        | _ => false
      | _ => false
    | _ => false
  | _ => false

theorem artifact_of_success_half :
    ∃ c : Compilation, c.machine.states.length = 1 ∧
      (Request.run ⟨"demo", .persist, none⟩ {} (flagProject "x + 0.5")).tree.read
        "projects/demo/generated/behavior.json" = .ok (.text c.machine.artifact) ∧
      Machine.decoder.decode c.machine.artifact = .ok c.machine := by
  have h : ⟨"behavior", .success 1⟩ ∈
      (Request.run ⟨"demo", .persist, none⟩ {} (flagProject "x + 0.5")).groups := by
    decide +kernel
  have hsound : soundNumbers (flagProject "x + 0.5") = true := by decide +kernel
  obtain ⟨p, groups, c, hl, hs, ⟨before, g, after, actions, rfl, -, hfiles, hc⟩, hn, hread,
    hdecode⟩ := Request.artifact_of_success h
  have hgroups : p.groups = before ++ g :: after := Except.ok.inj hs
  unfold soundNumbers at hsound
  rw [hl] at hsound
  dsimp only at hsound
  split at hsound
  · rename_i only honly
    obtain ⟨rfl, rfl⟩ : before = [] ∧ only = g := by
      rw [honly] at hgroups
      cases before with
      | nil => exact ⟨rfl, (List.cons.inj hgroups).1⟩
      | cons b more => simp at hgroups
    have hfiles' : (GroupRun.files (Config.scriptOptions {}) (flagProject "x + 0.5") p only.slug
        only.sourceFiles).result = .ok actions := hfiles
    rw [hfiles'] at hsound
    dsimp only at hsound
    rw [hc] at hsound
    have hnumbers : ∀ x ∈ c.machine.numbers, x.isFinite = true ∧ Json.ReadsBack (.float x) := by
      simpa using hsound
    have hpath : Config.artifactPath {} p.dir "behavior" =
        "projects/demo/generated/behavior.json" := by
      rw [(Project.loaded_of_load hl).dir]
      decide +kernel
    rw [hpath] at hread
    exact ⟨c, hn.symm, hread,
      hdecode (fun x hx => (hnumbers x hx).1) fun x hx _ => (hnumbers x hx).2⟩
  · cases hsound

/-- The artifact is there and is not decoded. -/
def unreadableArtifact (t : FileTree) : Bool :=
  match t.read "projects/demo/generated/behavior.json" with
  | .ok (.text text) => !(Machine.decoder.decode text).isOk
  | _ => false

/-- The rest of a division by zero is handed to a flag: the group is reported to be compiled, but
its artifact is not decoded. -/
theorem artifact_of_nan_unreadable :
    ⟨"behavior", .success 1⟩ ∈
        (Request.run ⟨"demo", .persist, none⟩ {} (flagProject "1.0 % x")).groups ∧
      ∃ text f, (Request.run ⟨"demo", .persist, none⟩ {} (flagProject "1.0 % x")).tree.read
          "projects/demo/generated/behavior.json" = .ok (.text text) ∧
        Machine.decoder.decode text = .error f := by
  have hfound : unreadableArtifact (Request.run ⟨"demo", .persist, none⟩ {} (flagProject "1.0 % x")).tree =
      true := by decide +kernel
  unfold unreadableArtifact at hfound
  refine ⟨by decide +kernel, ?_⟩
  split at hfound
  · rename_i text hread
    cases hd : Machine.decoder.decode text with
    | ok m => simp [hd, Except.isOk, Except.toBool] at hfound
    | error f => exact ⟨text, f, hread, hd⟩
  · cases hfound

end Dialogue
