import Dialogue.Proofs.FirstFault
import Dialogue.Proofs.History
import Dialogue.Proofs.Observation
import Dialogue.Proofs.Reencoding

/-!
# When a golden case passes

A golden case passes exactly if the run matches it (`GoldenCase.Matches`), and otherwise the first
mismatch is told, in the order of the error, the groups and the lines of the log
(`GoldenCase.assert_outcome`).  The artifacts are compared last, and never tell anything: the run
is made on a copy without artifacts, so a group has one exactly if it was kept
(`GoldenCase.artifact_iff`).  In particular a case that is written down from a run passes.
-/

namespace Dialogue

namespace GoldenCase

/-! ### Matching -/

/-- What is told of the run is what the case expects.  A case that expects an error need not say
what becomes of the groups. -/
structure Matches (c : GoldenCase) (r : GoldenReport) : Prop where
  error : c.expectedError = none ∧ r.error = none ∨
    ∃ e f, c.expectedError = some e ∧ r.error = some f ∧ e.code = f.code ∧ e.kind = f.kind
  groups : c.expectedGroups = r.groups ∨ c.expectedError.isSome ∧ c.expectedGroups = []
  logs : ∀ line ∈ c.expectedLogs, line ∈ r.logs

/-- What is compared. -/
inductive Aspect where
  | error
  | groups
  | line (line : String)

/-- What is compared, in order. -/
def aspects (c : GoldenCase) : List Aspect := .error :: .groups :: c.expectedLogs.map .line

/-- The groups are compared unless an error is expected and no groups are. -/
def ComparesGroups (c : GoldenCase) : Prop := c.expectedError = none ∨ c.expectedGroups ≠ []

/-- What is told of an aspect in which the run does not match the case. -/
inductive Mismatch (c : GoldenCase) (r : GoldenReport) : Aspect → GoldenFault → Prop
  | success {e : ObservedError} (expected : c.expectedError = some e) (found : r.error = none) :
      Mismatch c r .error (.unexpectedSuccess e)
  | failure {f : Failure} (expected : c.expectedError = none) (found : r.error = some f) :
      Mismatch c r .error (.unexpectedFailure f)
  | error {e : ObservedError} {f : Failure} (expected : c.expectedError = some e)
      (found : r.error = some f) (other : ¬ (e.code = f.code ∧ e.kind = f.kind)) :
      Mismatch c r .error (.otherError e (.ofFailure f))
  | count (compared : c.ComparesGroups) (other : c.expectedGroups.length ≠ r.groups.length) :
      Mismatch c r .groups (.otherCount c.expectedGroups.length r.groups)
  | group {index : Nat} {e a : ObservedGroup} (compared : c.ComparesGroups)
      (count : c.expectedGroups.length = r.groups.length)
      (expected : c.expectedGroups[index]? = some e) (found : r.groups[index]? = some a)
      (other : e ≠ a) (least : ∀ i < index, c.expectedGroups[i]? = r.groups[i]?) :
      Mismatch c r .groups (.otherGroup index e a)
  | line {line : String} (missing : line ∉ r.logs) :
      Mismatch c r (.line line) (.missingLog line r.logs)

variable {c : GoldenCase} {r : GoldenReport}

/-- There is one thing to tell of an aspect. -/
theorem Mismatch.unique {aspect : Aspect} {f g : GoldenFault} (hf : c.Mismatch r aspect f)
    (hg : c.Mismatch r aspect g) : f = g := by
  cases hf with
  | success he hn =>
      cases hg with
      | success he' => rw [Option.some.inj (he.symm.trans he')]
      | failure _ hn' => cases hn.symm.trans hn'
      | error _ hn' => cases hn.symm.trans hn'
  | failure he hn =>
      cases hg with
      | success he' => cases he.symm.trans he'
      | failure _ hn' => rw [Option.some.inj (hn.symm.trans hn')]
      | error he' => cases he.symm.trans he'
  | error he hn =>
      cases hg with
      | success _ hn' => cases hn.symm.trans hn'
      | failure he' => cases he.symm.trans he'
      | error he' hn' =>
          rw [Option.some.inj (he.symm.trans he'), Option.some.inj (hn.symm.trans hn')]
  | count _ hcount =>
      cases hg with
      | count => rfl
      | group _ hsame => exact absurd hsame hcount
  | @group i e a _ hsame he ha hne hleast =>
      cases hg with
      | count _ hcount => exact absurd hsame hcount
      | @group j e' a' _ _ he' ha' hne' hleast' =>
          -- below the least index at which groups differ they are the same
          have apart : ∀ {i j : Nat} {e a : ObservedGroup}, c.expectedGroups[i]? = some e →
              r.groups[i]? = some a → e ≠ a →
              (∀ k < j, c.expectedGroups[k]? = r.groups[k]?) → j ≤ i := by
            intro i j e a he ha hne hleast
            by_contra hlt
            have hsame := hleast i (by omega)
            rw [he, ha] at hsame
            exact hne (Option.some.inj hsame)
          obtain rfl : i = j :=
            Nat.le_antisymm (apart he' ha' hne' hleast) (apart he ha hne hleast')
          rw [Option.some.inj (he.symm.trans he'), Option.some.inj (ha.symm.trans ha')]
  | line => cases hg; rfl

/-! ### Matching, aspect by aspect -/

theorem error_matches_iff : (∀ f, ¬ c.Mismatch r .error f) ↔
    (c.expectedError = none ∧ r.error = none ∨
      ∃ e f, c.expectedError = some e ∧ r.error = some f ∧ e.code = f.code ∧ e.kind = f.kind) := by
  constructor
  · intro h
    cases he : c.expectedError with
    | none =>
        cases hn : r.error with
        | none => exact .inl ⟨rfl, rfl⟩
        | some f => exact absurd (.failure he hn) (h _)
    | some e =>
        cases hn : r.error with
        | none => exact absurd (.success he hn) (h _)
        | some f =>
            refine .inr ⟨e, f, rfl, rfl, ?_⟩
            by_contra hother
            exact h _ (.error he hn hother)
  · rintro (⟨he, hn⟩ | ⟨e, f, he, hn, hsame⟩) fault hf
    · cases hf with
      | success he' => cases he.symm.trans he'
      | failure _ hn' => cases hn.symm.trans hn'
      | error he' => cases he.symm.trans he'
    · cases hf with
      | success _ hn' => cases hn.symm.trans hn'
      | failure he' => cases he.symm.trans he'
      | error he' hn' hother =>
          obtain rfl := Option.some.inj (he.symm.trans he')
          obtain rfl := Option.some.inj (hn.symm.trans hn')
          exact hother hsame

theorem not_mismatch_of_eq (h : c.expectedGroups = r.groups) (f : GoldenFault) :
    ¬ c.Mismatch r .groups f := by
  intro hf
  cases hf with
  | count _ hother => exact hother (congrArg List.length h)
  | group _ _ he ha hne =>
      rw [h, ha] at he
      exact hne (Option.some.inj he).symm

theorem not_mismatch_of_not_compared (h : ¬ c.ComparesGroups) (f : GoldenFault) :
    ¬ c.Mismatch r .groups f := by
  intro hf
  cases hf with
  | count hcompared => exact h hcompared
  | group hcompared => exact h hcompared

theorem not_mismatch_of_mem {line : String} (h : line ∈ r.logs) (f : GoldenFault) :
    ¬ c.Mismatch r (.line line) f := by
  intro hf
  cases hf with
  | line hmissing => exact hmissing h

/-! ### Comparing -/

theorem verdict_checkError :
    Verdict (c.Mismatch r) [.error] (checkError c.expectedError r.error) := by
  unfold checkError
  split
  · rename_i he hn
    exact .cons (error_matches_iff.mpr (.inl ⟨he, hn⟩)) .nil
  · rename_i he hn
    exact .cons_error (.success he hn)
  · rename_i he hn
    exact .cons_error (.failure he hn)
  · rename_i e f he hn
    split
    · rename_i hsame
      have hparts := And.intro (congrArg (·.code) hsame) (congrArg (·.kind) hsame)
      exact .cons (error_matches_iff.mpr (.inr ⟨e, f, he, hn, hparts⟩)) .nil
    · rename_i hother
      refine .cons_error (.error he hn fun hsame => hother ?_)
      exact congrArg₂ ObservedError.mk hsame.1 hsame.2

theorem checkPairs_cases (start : Nat) {es as : List ObservedGroup} (h : es.length = as.length) :
    checkPairs start es as = .ok () ∧ es = as ∨
      ∃ i e a, checkPairs start es as = .error (.otherGroup (start + i) e a) ∧
        es[i]? = some e ∧ as[i]? = some a ∧ e ≠ a ∧ ∀ j < i, es[j]? = as[j]? := by
  induction es generalizing start as with
  | nil =>
      cases as with
      | nil => exact .inl ⟨rfl, rfl⟩
      | cons a as => cases h
  | cons e es ih =>
      cases as with
      | nil => cases h
      | cons a as =>
          by_cases heq : e = a
          · subst heq
            have hstep : checkPairs start (e :: es) (e :: as) = checkPairs (start + 1) es as := by
              rw [checkPairs, if_pos rfl]
            rw [hstep]
            obtain ⟨hok, rfl⟩ | ⟨i, e', a', herr, he, ha, hne, hleast⟩ :=
              ih (start + 1) (Nat.succ.inj h)
            · exact .inl ⟨hok, rfl⟩
            · refine .inr ⟨i + 1, e', a', ?_, he, ha, hne, fun j hj => ?_⟩
              · rw [herr, Nat.add_assoc, Nat.add_comm 1]
              · cases j with
                | zero => rfl
                | succ j => exact hleast j (by omega)
          · refine .inr ⟨0, e, a, ?_, rfl, rfl, heq, nofun⟩
            rw [checkPairs, if_neg heq, Nat.add_zero]

instance (c : GoldenCase) : Decidable c.ComparesGroups := inferInstanceAs (Decidable (_ ∨ _))

theorem verdict_checkGroups : Verdict (c.Mismatch r) [.groups]
    (if c.ComparesGroups then checkGroups c.expectedGroups r.groups else .ok ()) := by
  unfold checkGroups
  split
  · rename_i hcompared
    split
    · rename_i hcount
      obtain ⟨hok, hsame⟩ | ⟨i, e, a, herr, he, ha, hne, hleast⟩ := checkPairs_cases 0 hcount
      · rw [hok]
        exact .cons (not_mismatch_of_eq hsame) .nil
      · rw [herr, Nat.zero_add]
        exact .cons_error (.group hcompared hcount he ha hne hleast)
    · rename_i hcount
      exact .cons_error (.count hcompared hcount)
  · rename_i hcompared
    exact .cons (not_mismatch_of_not_compared hcompared) .nil

theorem verdict_checkLogs (lines : List String) :
    Verdict (c.Mismatch r) (lines.map .line) (checkLogs r.logs lines) := by
  induction lines with
  | nil => exact .nil
  | cons line rest ih =>
      rw [checkLogs, List.map_cons]
      split
      · rename_i hmem
        exact .cons (not_mismatch_of_mem hmem) ih
      · rename_i hmissing
        exact .cons_error (.line hmissing)

theorem checkArtifacts_eq_ok {mode : Mode} {artifacts : List String} {groups : List ObservedGroup}
    (h : ∀ g ∈ groups, g.slug ∈ artifacts ↔ mode = .persist ∧ g.status = .success) :
    checkArtifacts mode artifacts groups = .ok () := by
  induction groups with
  | nil => rfl
  | cons g rest ih =>
      obtain ⟨hg, hrest⟩ := List.forall_mem_cons.mp h
      have hsame : artifacts.contains g.slug = (mode == .persist && g.status == .success) := by
        rw [Bool.eq_iff_iff]
        simpa using hg
      rw [checkArtifacts]
      simp only [hsame, if_true]
      exact ih hrest

/-- **The first mismatch is told**, if artifacts are as they are to be. -/
theorem verdict_compare
    (h : ∀ g ∈ r.groups, g.slug ∈ r.artifacts ↔ c.mode = .persist ∧ g.status = .success) :
    Verdict (c.Mismatch r) c.aspects (c.compare r) := by
  have hcompared : (c.expectedError.isNone || !c.expectedGroups.isEmpty) = true ↔
      c.ComparesGroups := by
    simp [ComparesGroups]
  have hsteps : c.compare r = checkError c.expectedError r.error >>= fun _ =>
      (if c.ComparesGroups then checkGroups c.expectedGroups r.groups else .ok ()) >>= fun _ =>
        checkLogs r.logs c.expectedLogs := by
    unfold compare
    simp only [hcompared, checkArtifacts_eq_ok h]
    cases checkError c.expectedError r.error with
    | error f => rfl
    | ok _ =>
        split
        · cases checkGroups c.expectedGroups r.groups with
          | error f => rfl
          | ok _ => cases checkLogs r.logs c.expectedLogs <;> rfl
        · cases checkLogs r.logs c.expectedLogs <;> rfl
  rw [hsteps]
  exact verdict_checkError.append (verdict_checkGroups.append (verdict_checkLogs c.expectedLogs))

theorem eq_of_checkGroups {es as : List ObservedGroup} (h : checkGroups es as = .ok ()) :
    es = as := by
  unfold checkGroups at h
  split at h
  · rename_i hcount
    obtain ⟨-, hsame⟩ | ⟨i, e, a, herr, -⟩ := checkPairs_cases 0 hcount
    · exact hsame
    · cases herr.symm.trans h
  · cases h

theorem groups_match_iff : (∀ f, ¬ c.Mismatch r .groups f) ↔
    (c.expectedGroups = r.groups ∨ c.expectedError.isSome ∧ c.expectedGroups = []) := by
  by_cases hcompared : c.ComparesGroups
  · constructor
    · intro h
      have hok :=
        (verdict_checkGroups (c := c) (r := r)).ok_iff.mpr (List.forall_mem_singleton.mpr h)
      rw [if_pos hcompared] at hok
      exact .inl (eq_of_checkGroups hok)
    · rintro (hsame | ⟨hsome, hnil⟩) f
      · exact not_mismatch_of_eq hsame f
      · obtain hnone | hne := hcompared
        · rw [hnone] at hsome
          cases hsome
        · exact absurd hnil hne
  · obtain ⟨hsome, hnil⟩ := not_or.mp hcompared
    exact ⟨fun _ => .inr ⟨Option.isSome_iff_ne_none.mpr hsome, not_not.mp hnil⟩,
      fun _ => not_mismatch_of_not_compared hcompared⟩

/-- A run without mismatch is one that matches. -/
theorem matches_iff : c.Matches r ↔ Faultless (c.Mismatch r) c.aspects := by
  have hlines : (∀ line ∈ c.expectedLogs, line ∈ r.logs) ↔
      ∀ line ∈ c.expectedLogs, ∀ f, ¬ c.Mismatch r (.line line) f := by
    refine forall₂_congr fun line _ => ⟨not_mismatch_of_mem, fun hnone => ?_⟩
    by_contra hmissing
    exact hnone _ (.line hmissing)
  simp only [Faultless, aspects, List.forall_mem_cons, List.forall_mem_map, ← hlines,
    error_matches_iff, groups_match_iff]
  exact ⟨fun h => ⟨h.error, h.groups, h.logs⟩, fun h => ⟨h.1, h.2.1, h.2.2⟩⟩

end GoldenCase

/-! ### Artifacts of a request -/

/-- No artifact is in the folder of a project. -/
def Bare (t : FileTree) (loc : Location) : Prop :=
  ∀ slug, t.lookup (artifactAt loc slug) = none

namespace Request

open GoldenCase (observe)

variable {config : Config} {r : Request} {p : Project} {t : FileTree} {loc : Location}

theorem groups_observe_answerOf (kept : Bool) (came : GroupsRun) :
    (observe (answerOf kept came).result).groups = came.groups.map .ofReport := by
  unfold answerOf
  cases came.failure? <;> rfl

/-- Groups are observed by their slugs. -/
theorem isSlug_of_observed (hc : config.generatedDir = "generated")
    (hl : (Project.load config t r.project).2 = .ok p) :
    ∀ g ∈ (observe (r.compileProject config p t).result).groups, isSlug g.slug = true := by
  have hp := Project.loaded_of_load hl
  obtain ⟨loc, hd⟩ := hp.folderAt
  intro g hg
  by_cases hm : r.mode = .preview
  · simp only [compileProject, hm, previewGroup] at hg
    cases hchosen : p.chosen r.group with
    | error f =>
        rw [hchosen] at hg
        cases hg
    | ok chosen =>
        have hslug := hp.groups.slugs chosen (Project.mem_of_chosen hchosen)
        rw [hchosen] at hg
        dsimp only [showing] at hg
        split at hg <;>
        · obtain rfl := List.mem_singleton.mp hg
          exact hslug
  · rw [compileProject_of_ne_preview hm, compileAll] at hg
    cases hs : p.select r.group with
    | error f =>
        rw [hs] at hg
        cases hg
    | ok groups =>
        rw [hs] at hg
        dsimp only at hg
        rw [groups_observe_answerOf] at hg
        obtain ⟨report, hreport, rfl⟩ := List.mem_map.mp hg
        exact isSlug_of_reported hc hd hp.isBase (Project.wellNamed_select hp.groups hs) report
          hreport

/-- A path to an artifact leads nowhere where there is none. -/
theorem isFile_of_bare (hc : config.generatedDir = "generated") (hd : t.FolderAt p.dir loc)
    (hb : Path.IsBase p.dir) {slug : String} (hs : isSlug slug = true)
    (hnone : t.lookup (artifactAt loc slug) = none) :
    t.isFile (config.artifactPath p.dir slug) = false := by
  refine Bool.eq_false_iff.mpr fun hfile => ?_
  obtain ⟨content, hread⟩ := FileTree.isFile_iff.mp hfile
  cases hnone.symm.trans (lookup_of_read hc hd hb hs hread)

/-- Of groups that are kept one after the other, those have an artifact that succeed. -/
theorem isFile_compileGroups_iff {groups : List ScriptGroup}
    (hc : config.generatedDir = "generated") (hd : t.FolderAt p.dir loc)
    (hb : Path.IsBase p.dir) (hw : Manifest.WellNamed groups) (hbare : Bare t loc) :
    ∀ g ∈ (compileGroups config p true t groups).groups,
      (compileGroups config p true t groups).tree.isFile (config.artifactPath p.dir g.slug) = true ↔
        g.outcome.status = .success := by
  intro g hg
  obtain ⟨hslugs, honce, -⟩ := reported_once hc hd hb hw
  have hwrites := writesReported_compileGroups hc hd hb hw
  have hleft := hd.mono (changes_compileGroups hc hd hb hw).folders
  constructor
  · intro hfile
    by_contra hother
    -- no other group has its slug, so that its artifact is as it was
    have hnot : ¬ Reports (compileGroups config p true t groups).groups g.slug := by
      rintro ⟨n, hn⟩
      rw [List.inj_on_of_nodup_map honce hg hn rfl] at hother
      exact hother rfl
    have hnone := (hwrites.untouched hnot).trans (hbare g.slug)
    exact Bool.false_ne_true ((isFile_of_bare hc hleft hb (hslugs g hg) hnone).symm.trans hfile)
  · intro hsuccess
    obtain ⟨slug, outcome⟩ := g
    cases outcome with
    | success n =>
        obtain ⟨c, -, -, hread⟩ := read_of_success hb hw hg
        exact FileTree.isFile_iff.mpr ⟨_, hread⟩
    | empty => cases hsuccess
    | failed message => cases hsuccess

/-- **A group has an artifact exactly if it was compiled to be kept**, where none had one. -/
theorem isFile_artifact_iff (hc : config.generatedDir = "generated")
    (hd : t.FolderAt (config.projectDir r.project) loc) (hbare : Bare t loc) :
    ∀ g ∈ (observe (r.run config t).result).groups,
      (r.run config t).tree.isFile
          (config.artifactPath (config.projectDir r.project) g.slug) = true ↔
        r.mode = .persist ∧ g.status = .success := by
  intro g hg
  cases hl : (Project.load config t r.project).2 with
  | error f =>
      rw [(run_of_load_error hl).2] at hg
      cases hg
  | ok p =>
      have hp := Project.loaded_of_load hl
      obtain ⟨ht, hr⟩ := run_of_load_ok (r := r) hl
      rw [← hp.dir] at hd ⊢
      rw [hr] at hg
      by_cases hm : r.mode = .persist
      · simp only [compileProject, hm, compileAll] at hg ht
        rw [ht]
        cases hs : p.select r.group with
        | error f =>
            rw [hs] at hg
            cases hg
        | ok groups =>
            simp only [hs] at hg ⊢
            rw [groups_observe_answerOf] at hg
            obtain ⟨report, hreport, rfl⟩ := List.mem_map.mp hg
            have hw := Project.wellNamed_select hp.groups hs
            rw [and_iff_right hm]
            exact isFile_compileGroups_iff hc hd hp.isBase hw hbare report hreport
      · have hslug := isSlug_of_observed hc hl g hg
        rw [tree_run_of_ne_persist hm, isFile_of_bare hc hd hp.isBase hslug (hbare g.slug)]
        simp [hm]

end Request

/-! ### Runs on a copy -/

/-- The copy of a project holds no artifacts. -/
theorem ProjectCopy.Mirrors.bare {tree left : FileTree} {source target : String} {loc : Location}
    (h : Mirrors tree left source target loc) : Bare left (Path.location target) := by
  intro slug
  have hskipped (entry : Entry) : isSkipped ["generated", slug ++ ".json"] entry = true := rfl
  rw [artifactAt, h.lookup _ (List.cons_ne_nil _ _)]
  simp [hskipped]

namespace GoldenCase

variable {c : GoldenCase} {r : GoldenReport} {tree : FileTree} {project scratch path : String}

/-- **After a run a group has an artifact exactly if artifacts are kept and it succeeded.** -/
theorem artifact_iff (ho : tree.Orderly) (hf : tree.Fresh scratch)
    (h : c.run tree project scratch = .ok r) :
    ∀ g ∈ r.groups, g.slug ∈ r.artifacts ↔ c.mode = .persist ∧ g.status = .success := by
  unfold run at h
  obtain ⟨⟨left, slug⟩, hcopy, h⟩ := bind_eq_ok_iff.mp h
  cases h
  obtain ⟨loc, hmirrors⟩ := ProjectCopy.mirrors_of_run ho hf (mapError_eq_ok_iff.mp hcopy)
  intro g hg
  have hiff := @Request.isFile_artifact_iff { projectsDir := scratch } ⟨slug, c.mode, c.group⟩
    left _ rfl hmirrors.copy hmirrors.bare
  rw [← hiff g hg]
  simp only [List.mem_map, List.mem_filter]
  constructor
  · rintro ⟨g', ⟨-, hfile⟩, hsame⟩
    exact hsame ▸ hfile
  · exact fun hfile => ⟨g, ⟨hg, hfile⟩, rfl⟩

/-- The case that is written down from a run. -/
def recorded (c : GoldenCase) (r : GoldenReport) : GoldenCase where
  schemaVersion := schema
  mode := c.mode
  group := c.group
  expectedGroups := r.groups
  expectedError := r.error.map .ofFailure
  expectedLogs := r.logs

theorem matches_recorded : (c.recorded r).Matches r where
  error := by
    cases hn : r.error with
    | none => exact .inl ⟨by simp [recorded, hn], rfl⟩
    | some f => exact .inr ⟨.ofFailure f, f, by simp [recorded, hn], rfl, rfl, rfl⟩
  groups := .inl rfl
  logs := fun _ h => h

/-- What is made of a file that holds a case which can be run. -/
theorem assert_of_run (hread : read tree path = .ok c) (hrun : c.run tree project scratch = .ok r) :
    assert tree project path scratch = c.compare r := by
  unfold assert
  rw [hread]
  show c.run tree project scratch >>= _ = _
  rw [hrun]
  rfl

theorem read_recorded {text : String} (ht : tree.readText path = .ok text)
    (h : (c.recorded r).encode.HasText text) (hheld : ∀ g ∈ r.groups, g.IsHeld) :
    read tree path = .ok (c.recorded r) := by
  have hdecoded : decoder.decode text = .ok (c.recorded r) :=
    decode_encode (c := c.recorded r) hheld h
  unfold read
  rw [ht]
  show ((decoder.decode text).mapError (GoldenFault.malformed path) >>= _) = _
  rw [hdecoded]
  rfl

/-- What is told is the first mismatch of the run. -/
theorem verdict_assert (ho : tree.Orderly) (hf : tree.Fresh scratch)
    (hread : read tree path = .ok c) (hrun : c.run tree project scratch = .ok r) :
    Verdict (c.Mismatch r) c.aspects (assert tree project path scratch) := by
  rw [assert_of_run hread hrun]
  exact verdict_compare (artifact_iff ho hf hrun)

theorem read_ne_otherArtifact (group : String) (expected : Bool) :
    read tree path ≠ .error (.otherArtifact group expected) := by
  intro h
  obtain h | ⟨text, -, h⟩ := bind_eq_error_iff.mp h
  · obtain ⟨fault, -, ⟨⟩⟩ := mapError_eq_error_iff.mp h
  obtain h | ⟨c, -, h⟩ := bind_eq_error_iff.mp h
  · obtain ⟨fault, -, ⟨⟩⟩ := mapError_eq_error_iff.mp h
  split at h <;> cases h

theorem run_ne_otherArtifact (group : String) (expected : Bool) :
    c.run tree project scratch ≠ .error (.otherArtifact group expected) := by
  intro h
  obtain h | ⟨copy, -, h⟩ := bind_eq_error_iff.mp h
  · obtain ⟨fault, -, ⟨⟩⟩ := mapError_eq_error_iff.mp h
  · cases h

/-- Artifacts are never told of. -/
theorem assert_ne_otherArtifact (ho : tree.Orderly) (hf : tree.Fresh scratch) (group : String)
    (expected : Bool) :
    assert tree project path scratch ≠ .error (.otherArtifact group expected) := by
  intro h
  obtain hread | ⟨c, hread, hrest⟩ := bind_eq_error_iff.mp h
  · exact read_ne_otherArtifact group expected hread
  obtain hrun | ⟨r, hrun, -⟩ := bind_eq_error_iff.mp hrest
  · exact run_ne_otherArtifact group expected hrun
  have hverdict := verdict_assert ho hf hread hrun
  rw [h] at hverdict
  obtain ⟨-, aspect, -, -, -, hmismatch⟩ := hverdict
  cases hmismatch

/-- **A golden case passes exactly if the run matches it, and otherwise the first mismatch is
told**, in the order of the error, the groups and the lines of the log.  Artifacts are never told
of: those there are after a run are those of the groups that succeeded, if they were to be kept.
And a case that is written down from a run passes, whatever the run was for. -/
theorem assert_outcome (ho : tree.Orderly) (hf : tree.Fresh scratch) (project : String) :
    (∀ path (c : GoldenCase) r, read tree path = .ok c → c.run tree project scratch = .ok r →
      (assert tree project path scratch = .ok () ↔ c.Matches r) ∧
      ∀ fault, assert tree project path scratch = .error fault ↔
        FirstFault (c.Mismatch r) c.aspects fault) ∧
    (∀ path group expected,
      assert tree project path scratch ≠ .error (.otherArtifact group expected)) ∧
    ∀ (c : GoldenCase) r, c.run tree project scratch = .ok r →
      (∀ g ∈ r.groups, g.slug ∈ r.artifacts ↔ c.mode = .persist ∧ g.status = .success) ∧
      (∀ path, read tree path = .ok (c.recorded r) →
        assert tree project path scratch = .ok ()) ∧
      ∀ path text, tree.readText path = .ok text → (c.recorded r).encode.HasText text →
        (∀ g ∈ r.groups, g.IsHeld) → assert tree project path scratch = .ok () := by
  have hrecorded : ∀ (c : GoldenCase) r, c.run tree project scratch = .ok r →
      ∀ path, read tree path = .ok (c.recorded r) → assert tree project path scratch = .ok () := by
    intro c r hrun path hread
    -- a run hangs on the mode and the group only
    have hsame : (c.recorded r).run tree project scratch = .ok r := hrun
    exact (verdict_assert ho hf hread hsame).ok_iff.mpr (matches_iff.mp matches_recorded)
  refine ⟨fun path c r hread hrun => ⟨?_, fun fault => ?_⟩,
    fun path => assert_ne_otherArtifact ho hf,
    fun c r hrun => ⟨artifact_iff ho hf hrun, hrecorded c r hrun, ?_⟩⟩
  · exact (verdict_assert ho hf hread hrun).ok_iff.trans matches_iff.symm
  · have hunique : ∀ aspect f g, c.Mismatch r aspect f → c.Mismatch r aspect g → f = g :=
      fun _ _ _ => Mismatch.unique
    exact (verdict_assert ho hf hread hrun).error_iff hunique
  · exact fun path text ht htext hheld => hrecorded c r hrun path (read_recorded ht htext hheld)

/-- A case that is run to keep artifacts, and expects one group with so many states. -/
def statesCase (states : String) : Content :=
  .text ("\x7b\"schemaVersion\":\"mt-tool-case.v1\",\"expectedGroups\":[[\"one\",\"success\"," ++
    states ++ "]]\x7d")

/-- A project with one source file, and two cases beside it. -/
def casedProject : FileTree :=
  ⟨(nestedProject "scenes").entries ++
    [(["right.json"], .file (statesCase "1")), (["wrong.json"], .file (statesCase "2"))]⟩

theorem assert_outcome_casedProject :
    let c : GoldenCase := { schemaVersion := schema, expectedGroups := [⟨"one", .success, some 1⟩] }
    let c' : GoldenCase :=
      { schemaVersion := schema, expectedGroups := [⟨"one", .success, some 2⟩] }
    casedProject.Orderly ∧ casedProject.Fresh "tmp/run" ∧
      read casedProject "right.json" = .ok c ∧ read casedProject "wrong.json" = .ok c' ∧
      ∃ r, c.run casedProject "projects/demo" "tmp/run" = .ok r ∧
        r.groups = [⟨"one", .success, some 1⟩] ∧ "one" ∈ r.artifacts ∧
        c.Matches r ∧ assert casedProject "projects/demo" "right.json" "tmp/run" = .ok () ∧
        assert casedProject "projects/demo" "wrong.json" "tmp/run" =
          .error (.otherGroup 0 ⟨"one", .success, some 2⟩ ⟨"one", .success, some 1⟩) := by
  intro c c'
  have ho : casedProject.Orderly := by decide +kernel
  have hf : casedProject.Fresh "tmp/run" := by decide +kernel
  have hreads : (read casedProject "right.json").toOption = some c ∧
      (read casedProject "wrong.json").toOption = some c' := by
    decide +kernel
  have hruns : (c.run casedProject "projects/demo" "tmp/run").toOption.map
        (fun r => (r.groups, r.error.isNone)) = some ([⟨"one", .success, some 1⟩], true) := by
    decide +kernel
  have hread := toOption_eq_some_iff.mp hreads.1
  have hread' := toOption_eq_some_iff.mp hreads.2
  obtain ⟨r, hran, htold⟩ := Option.map_eq_some_iff.mp hruns
  have hrun := toOption_eq_some_iff.mp hran
  obtain ⟨hgroups, herror⟩ := Prod.mk.inj htold
  have hnone : r.error = none := Option.isNone_iff_eq_none.mp herror
  obtain ⟨houtcome, -, hmore⟩ := assert_outcome ho hf "projects/demo"
  have hmatches : c.Matches r := ⟨.inl ⟨rfl, hnone⟩, .inl hgroups.symm, nofun⟩
  have hfirst : FirstFault (c'.Mismatch r) c'.aspects
      (.otherGroup 0 ⟨"one", .success, some 2⟩ ⟨"one", .success, some 1⟩) := by
    refine ⟨[.error], .groups, [], rfl, ?_, ?_⟩
    · exact List.forall_mem_singleton.mpr (error_matches_iff.mpr (.inl ⟨rfl, hnone⟩))
    · exact .group (.inl rfl) (by rw [hgroups]; rfl) rfl (by rw [hgroups]; rfl) (by decide) nofun
  refine ⟨ho, hf, hread, hread', r, hrun, hgroups, ?_, hmatches,
    (houtcome _ c r hread hrun).1.mpr hmatches, ((houtcome _ c' r hread' hrun).2 _).mpr hfirst⟩
  have hone := (hmore c r hrun).1 ⟨"one", .success, some 1⟩
    (by rw [hgroups]; exact List.mem_singleton_self _)
  exact hone.mpr ⟨rfl, rfl⟩

end GoldenCase

end Dialogue
