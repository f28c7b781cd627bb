import Dialogue.Proofs.Folders
import Dialogue.Proofs.Footprint

/-!
# Artifacts stay

A file that was written is read as it was written (`FileTree.read_write`), and it stays while
folders are made (`Extends`) and files are written at other names in its folder.  So an artifact
that was kept can be read, also after the artifacts of other groups were kept
(`Artifact.read_keep`, `Artifact.read_keep_of_ne`).  Nothing is asked of the folder of artifacts.
-/

namespace Dialogue

namespace FileTree

variable {t t' : FileTree} {path : String} {content : Content}

/-! ### Reading what was written -/

theorem read_eq_ok_iff :
    t.read path = .ok content ↔ checkPath path = .ok () ∧ endsInFolder path = false ∧
      ∃ loc, t.walk [] (Path.steps path) = .ok loc ∧ t.lookup loc = some (.file content) := by
  constructor
  · intro h
    have he : t.entryAt path = .ok (.file content) := by
      obtain ⟨entry, he, h⟩ := bind_eq_ok_iff.mp h
      cases entry with
      | folder => cases h
      | file found =>
          cases h
          exact he
    obtain ⟨hv, loc, hw, hl⟩ := walk_of_entryAt he
    rw [entryAt_of_walk hv hw, hl] at he
    cases hend : endsInFolder path with
    | false => exact ⟨hv, rfl, loc, hw, hl⟩
    | true => simp [hend] at he
  · rintro ⟨hv, hend, loc, hw, hl⟩
    have he : t.entryAt path = .ok (.file content) := by
      rw [entryAt_of_walk hv hw, hl]
      simp [hend]
    simp only [read, he]
    rfl

/-- **What was written is read.** -/
theorem read_write (h : t.write path content = .ok t') : t'.read path = .ok content := by
  obtain ⟨hv, hend, loc, hw, hfree, rfl⟩ := write_eq_ok h
  have hbelow : loc.isAbove = false := by
    cases ha : loc.isAbove with
    | false => rfl
    | true => exact absurd (by simp [lookup, ha]) hfree
  exact read_eq_ok_iff.mpr ⟨hv, hend, loc, walk_mono (ChangesOnly.put hfree _).folders hw,
    lookup_put_self t _ hbelow⟩

/-! ### Making folders takes nothing away -/

theorem Extends.read (h : Extends t t') (hr : t.read path = .ok content) :
    t'.read path = .ok content := by
  obtain ⟨hv, hend, loc, hw, hl⟩ := read_eq_ok_iff.mp hr
  exact read_eq_ok_iff.mpr ⟨hv, hend, loc, walk_mono (fun q hq => h q _ hq) hw, h loc _ hl⟩

/-! ### Names in one folder -/

/-- Walks that differ in the last name only end in one folder. -/
theorem eq_of_walk_names {here found : Location} {steps : List Path.Step} {name : String}
    (h : t.walk here (steps ++ [.down name]) = .ok found) :
    ∃ loc, found = loc ++ [name] ∧ ∀ other found',
      t.walk here (steps ++ [.down other]) = .ok found' → found' = loc ++ [other] := by
  induction steps generalizing here with
  | nil => exact ⟨here, eq_of_walk_name h, fun other found' h' => eq_of_walk_name h'⟩
  | cons step rest ih =>
      cases step with
      | root | here | up => exact ih h
      | down first =>
          have through : ∀ {name found}, t.walk here (.down first :: (rest ++ [.down name]))
              = .ok found → t.walk (here ++ [first]) (rest ++ [.down name]) = .ok found := by
            intro name found h
            obtain ⟨-, ⟨hnil, -⟩ | ⟨-, -, hw⟩⟩ := walk_down h
            · exact absurd hnil (List.append_ne_nil_of_right_ne_nil rest (List.cons_ne_nil _ _))
            · exact hw
          obtain ⟨loc, e, hothers⟩ := ih (through h)
          exact ⟨loc, e, fun other found' h' => hothers other found' (through h')⟩

/-- A file stays while another one is written in its folder. -/
theorem read_write_of_ne {dir name other : String} {content' : Content}
    (hdir : dir.toList ≠ []) (hn : Path.IsName name) (ho : Path.IsName other) (hne : name ≠ other)
    (hr : t.read (Path.join dir name) = .ok content)
    (hw : t.write (Path.join dir other) content' = .ok t') :
    t'.read (Path.join dir name) = .ok content := by
  obtain ⟨-, -, found, hwalk, hfree, rfl⟩ := write_eq_ok hw
  obtain ⟨hv, hend, loc, hto, hl⟩ := read_eq_ok_iff.mp hr
  rw [Path.steps_join_of_ne_nil hdir ho] at hwalk
  have hto' := hto
  rw [Path.steps_join_of_ne_nil hdir hn] at hto'
  obtain ⟨folder, rfl, hothers⟩ := eq_of_walk_names hto'
  have hdiff : folder ++ [name] ≠ found := by
    rw [hothers other found hwalk]
    exact fun e => hne (List.singleton_inj.mp (List.append_cancel_left e))
  exact read_eq_ok_iff.mpr ⟨hv, hend, _, walk_mono (ChangesOnly.put hfree _).folders hto,
    (lookup_put_of_ne t _ hdiff).trans hl⟩

end FileTree

/-! ### Artifacts -/

namespace Artifact

variable {config : Config} {p : Project} {tree left : FileTree} {group other : String}
  {m : Machine}

/-- An artifact that was kept is read. -/
theorem read_keep (h : keep config p group m tree = (left, none)) :
    left.read (config.artifactPath p.dir group) = .ok (.text m.artifact) := by
  unfold keep at h
  dsimp only at h
  split at h
  · cases h
  · split at h
    · cases h
    · rename_i hw
      cases h
      exact FileTree.read_write hw

theorem code_of_keep {f : Failure} (h : keep config p group m tree = (left, some f)) :
    f.code = "ARTIFACT_WRITE_ERROR" := by
  unfold keep at h
  dsimp only at h
  repeat' split at h
  all_goals cases h
  all_goals rfl

/-- The artifact of one group stays while that of another is kept. -/
theorem read_keep_of_ne {content : Content} (hb : Path.IsBase p.dir) (hg : isSlug group = true)
    (ho : isSlug other = true) (hne : group ≠ other)
    (hr : tree.read (config.artifactPath p.dir group) = .ok content) :
    (keep config p other m tree).1.read (config.artifactPath p.dir group) = .ok content := by
  have hmade := (FileTree.extends_makeFolders tree (config.artifactDir p.dir)).read hr
  unfold keep
  dsimp only
  cases hm : tree.makeFolders (config.artifactDir p.dir) with
  | mk made fault? =>
      rw [hm] at hmade
      cases fault? with
      | some fault => exact hmade
      | none =>
          dsimp only
          cases hw : made.write (config.artifactPath p.dir other) (.text m.artifact) with
          | error fault => exact hmade
          | ok written =>
              exact FileTree.read_write_of_ne (hb.join_ne_nil config.generatedDir)
                (isName_artifact hg) (isName_artifact ho) (fun e => hne (eq_of_artifact_name e))
                hmade hw

end Artifact

end Dialogue
