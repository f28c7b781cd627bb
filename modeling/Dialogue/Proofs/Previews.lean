import Dialogue.Proofs.Artifacts
import Dialogue.Proofs.Failures

/-!
# What is shown is what would be kept

Showing the machine of a group and keeping it run the same group on the same files, but put their
answers together each in its own way.  They agree all the same (`Shows`): a machine is shown
exactly when there is one to keep, and then it is the one that is kept; where a group has no
machine or fails, showing fails with the same log.
-/

namespace Dialogue

/-! ### One group, shown and kept -/

/-- What showing a machine tells of keeping it in the project whose folder is `dir`. -/
structure Shows (config : Config) (dir : String) (shown kept : Answer) : Prop where
  /-- a machine is shown exactly if there is one to keep, whether it can be written or not -/
  succeeds : (∃ v, shown.result = .ok (.preview v)) ↔
    (∃ r slug n, kept.result = .ok (.report r) ∧ r.groups = [⟨slug, .success n⟩]) ∨
      ∃ e, kept.result = .error e ∧ e.failure.IsUnwritten
  tells : ∀ v, shown.result = .ok (.preview v) →
    v.stateCount = v.machine.states.length ∧ v.logs = kept.logs
  written : ∀ v r, shown.result = .ok (.preview v) → kept.result = .ok (.report r) →
    r.groups = [⟨v.group, .success v.stateCount⟩] ∧
      kept.tree.read (config.artifactPath dir v.group) = .ok (.text v.machine.artifact)
  empty : ∀ r slug, kept.result = .ok (.report r) → r.groups = [⟨slug, .empty⟩] →
    ∃ f, f.code = "PREVIEW_GROUP_EMPTY" ∧ f.kind = .script ∧
      shown.result = .error { failure := f, logs := r.logs, groups := [.failed slug f] }
  fails : ∀ e, kept.result = .error e → ¬ e.failure.IsUnwritten → shown.result = .error e

namespace Shows

variable {config : Config} {dir : String} {shown kept : Answer} {v : Preview} {r : Report}
  {e : CompileFailure}

/-- Both fail, and not for what cannot be written. -/
theorem of_fault (hs : shown.result = .error e) (hk : kept.result = .error e)
    (he : ¬ e.failure.IsUnwritten) : Shows config dir shown kept where
  succeeds := by simp [hs, hk, he]
  tells v hv := by simp [hs] at hv
  written v r hv := by simp [hs] at hv
  empty r slug hr := by simp [hk] at hr
  fails e' he' _ := by rw [hs, ← hk, he']

/-- There is no machine. -/
theorem of_empty {slug : String} (hk : kept.result = .ok (.report r))
    (hr : r.groups = [⟨slug, .empty⟩])
    (hs : shown.result = .error
      { failure := Request.nothingToShow slug, logs := r.logs,
        groups := [.failed slug (Request.nothingToShow slug)] }) :
    Shows config dir shown kept where
  succeeds := by simp [hs, hk, hr]
  tells v hv := by simp [hs] at hv
  written v r hv := by simp [hs] at hv
  empty r' slug' hr' hg' := by
    obtain rfl : r = r' := by simpa [hk] using hr'
    obtain rfl : slug = slug' := by simpa [hr] using hg'
    exact ⟨_, rfl, rfl, hs⟩
  fails e he := by simp [hk] at he

/-- The machine is kept. -/
theorem of_kept (hs : shown.result = .ok (.preview v)) (hk : kept.result = .ok (.report r))
    (hr : r.groups = [⟨v.group, .success v.stateCount⟩]) (hl : r.logs = v.logs)
    (hread : kept.tree.read (config.artifactPath dir v.group) = .ok (.text v.machine.artifact)) :
    Shows config dir shown kept where
  succeeds := by simp [hs, hk, hr]
  tells v' hv := by
    obtain rfl : v = v' := by simpa [hs] using hv
    rw [Answer.logs, hk]
    exact ⟨rfl, hl.symm⟩
  written v' r' hv hr' := by
    obtain rfl : v = v' := by simpa [hs] using hv
    obtain rfl : r = r' := by simpa [hk] using hr'
    exact ⟨hr, hread⟩
  empty r' slug hr' hg := by
    obtain rfl : r = r' := by simpa [hk] using hr'
    simp [hr] at hg
  fails e he := by simp [hk] at he

/-- The machine cannot be kept. -/
theorem of_unkept (hs : shown.result = .ok (.preview v)) (hk : kept.result = .error e)
    (he : e.failure.IsUnwritten) (hl : e.logs = v.logs) : Shows config dir shown kept where
  succeeds := by simp [hs, hk, he]
  tells v' hv := by
    obtain rfl : v = v' := by simpa [hs] using hv
    rw [Answer.logs, hk]
    exact ⟨rfl, hl.symm⟩
  written v r hv hr := by simp [hk] at hr
  empty r slug hr := by simp [hk] at hr
  fails e' he' hne := by
    obtain rfl : e = e' := by simpa [hk] using he'
    exact absurd he hne

end Shows

namespace Request

variable {config : Config} {tree : FileTree} {p : Project} {g : ScriptGroup}

/-- A group is shown and kept; how it ran decides the rest. -/
theorem shows_of_chosen {shown kept : Answer}
    (hs : shown.result = showing g.slug (GroupRun.run config.scriptOptions tree p g))
    (ht : kept.tree = (answerOf true (compileGroups config p true tree [g])).tree)
    (hk : kept.result = (answerOf true (compileGroups config p true tree [g])).result) :
    Shows config p.dir shown kept := by
  have hone : KeptOne config p tree g _ (compileGroups config p true tree [g]) := keptOne rfl
  generalize compileGroups config p true tree [g] = r at hone ht hk
  unfold showing at hs
  cases hone with
  | fault h =>
      rw [h] at hs
      exact .of_fault hs hk (GroupRun.not_unwritten_run h)
  | empty h =>
      rw [h] at hs
      exact .of_empty hk rfl hs
  | kept h hkeep =>
      rw [h] at hs
      refine .of_kept hs hk rfl rfl ?_
      rw [ht]
      exact Artifact.read_keep hkeep
  | unkept h hkeep =>
      rw [h] at hs
      exact .of_unkept hs hk (Artifact.code_of_keep hkeep) rfl

/-- The group that is shown: the one asked for, or the first one of the project. -/
def shownGroup (config : Config) (tree : FileTree) (project : String) :
    Option String → Option String
  | some slug => some slug
  | none => (Project.load config tree project).2.toOption.bind (·.groups.head?.map (·.slug))

/-- The group that is shown is the one that is kept. -/
theorem select_shownGroup {project : String} (hl : (Project.load config tree project).2 = .ok p)
    (group : Option String) :
    p.select (shownGroup config tree project group) = (p.chosen group).map ([·]) := by
  cases group with
  | some slug =>
      show (do return [← p.requireGroup slug]) = (p.requireGroup slug).map ([·])
      cases p.requireGroup slug <;> rfl
  | none =>
      obtain ⟨g, rest, hg⟩ := List.exists_cons_of_ne_nil (Project.groups_ne_nil_of_load hl)
      have hslug : shownGroup config tree project none = some g.slug := by
        simp [shownGroup, hl, Except.toOption, hg]
      have hfirst : p.chosen none = .ok g := by simp [Project.chosen, Project.firstGroup, hg]
      rw [hslug, hfirst, (Project.loaded_of_load hl).select (hg ▸ List.mem_cons_self)]
      rfl

/-- **What is shown of a group is what would be kept of it**: for every file tree, project and
group, the first group of the project if none is asked for. -/
theorem preview_shows_persist (config : Config) (tree : FileTree) (project : String)
    (group : Option String) :
    Shows config (config.projectDir project)
      (run ⟨project, .preview, group⟩ config tree)
      (run ⟨project, .persist, shownGroup config tree project group⟩ config tree) := by
  cases hl : (Project.load config tree project).2 with
  | error f =>
      have hs := run_of_load_error (r := ⟨project, .preview, group⟩) hl
      have hk := run_of_load_error
        (r := ⟨project, .persist, shownGroup config tree project group⟩) hl
      exact .of_fault hs.2 hk.2 (Project.not_unwritten_load hl)
  | ok p =>
      obtain ⟨-, hs⟩ := run_of_load_ok (r := ⟨project, .preview, group⟩) hl
      obtain ⟨ht, hk⟩ := run_of_load_ok
        (r := ⟨project, .persist, shownGroup config tree project group⟩) hl
      simp only [compileProject, previewGroup] at hs
      simp only [compileProject, compileAll, select_shownGroup hl] at ht hk
      rw [← (Project.loaded_of_load hl).dir]
      cases hc : p.chosen group with
      | error f =>
          rw [hc] at hs hk
          exact .of_fault hs hk (Project.not_unwritten_chosen hc)
      | ok g =>
          rw [hc] at hs ht hk
          exact shows_of_chosen hs ht hk

end Request

end Dialogue
