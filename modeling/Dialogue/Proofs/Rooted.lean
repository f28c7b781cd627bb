import Dialogue.Proofs.Answers
import Dialogue.Proofs.Sources
import Mathlib.Data.List.Induction

/-!
# Rooted trees

In a rooted tree every entry lies in a folder, as in any tree of real files.  So a path below a
folder leads to an entry exactly if the entry is there, whatever else is: what is found at a
contained path stays the same while the tree changes at other locations
(`FileTree.Rooted.entryAt_join`).  In a tree that is not rooted, making a folder could bring an
entry to light that no path led to before.  No request makes one of a rooted tree
(`Request.rooted_run`).
-/

namespace Dialogue

namespace FileTree

open Dialogue.Path (IsBase IsName)

/-- Every entry lies in a folder. -/
def Rooted (t : FileTree) : Prop := ∀ e ∈ t.entries, t.lookup e.1.dropLast = some .folder

instance (t : FileTree) : Decidable t.Rooted :=
  List.decidableBAll _ t.entries

section Rooted

variable {t t' : FileTree} {here loc found : Location} {entry : Entry} {names : List String}

theorem mem_of_lookup {entries : List (Location × Entry)}
    (h : entries.lookup loc = some entry) : (loc, entry) ∈ entries := by
  obtain ⟨before, after, rfl, -⟩ := List.lookup_eq_some_iff.mp h
  exact List.mem_append_right _ List.mem_cons_self

/-- On the way to a location above the working folder lie others. -/
theorem isAbove_of_prefix {loc q : Location} (hq : loc <+: q) (h : q.isAbove = true) :
    loc.isAbove = true := by
  simp only [Location.isAbove, Bool.or_eq_true, beq_iff_eq, List.all_eq_true] at h ⊢
  rcases h with rfl | h
  · cases loc with
    | nil => exact .inr nofun
    | cons first rest =>
        obtain ⟨rfl, hrest⟩ := List.cons_prefix_cons.mp hq
        rw [List.prefix_nil.mp hrest]
        exact .inl rfl
  · exact .inr fun name hname => h name (hq.subset hname)

theorem Rooted.around (h : t.Rooted) (hl : t.lookup loc = some entry) :
    t.lookup loc.dropLast = some .folder := by
  cases ha : loc.isAbove with
  | true => rw [lookup, isAbove_of_prefix (List.dropLast_prefix loc) ha, if_pos rfl]
  | false =>
      rw [lookup, ha, if_neg Bool.false_ne_true] at hl
      exact h _ (mem_of_lookup hl)

/-- Folders lead to every entry. -/
theorem Rooted.folder (h : t.Rooted) (hne : names ≠ [])
    (hl : t.lookup (here ++ names) = some entry) : t.lookup here = some .folder := by
  induction names using List.reverseRecOn generalizing entry with
  | nil => exact absurd rfl hne
  | append_singleton names name ih =>
      have haround := h.around hl
      rw [← List.append_assoc, List.dropLast_concat] at haround
      cases names with
      | nil => rwa [List.append_nil] at haround
      | cons first more => exact ih (List.cons_ne_nil first more) haround

theorem eq_of_walk_downs (h : t.walk here (names.map .down) = .ok found) :
    found = here ++ names := by
  induction names generalizing here with
  | nil =>
      cases h
      exact (List.append_nil _).symm
  | cons name rest ih =>
      obtain ⟨-, ⟨hnil, rfl⟩ | ⟨-, -, hw⟩⟩ := walk_down h
      · rw [List.map_eq_nil_iff.mp hnil]
      · rw [ih hw, List.append_assoc, List.singleton_append]

/-- A walk down that comes to its end has met no long name. -/
theorem short_of_walk_downs (h : t.walk here (names.map .down) = .ok found) :
    ∀ name ∈ names, ¬ longestName < name.utf8ByteSize := by
  induction names generalizing here with
  | nil => nofun
  | cons name rest ih =>
      obtain ⟨hlen, ⟨hnil, -⟩ | ⟨-, -, hw⟩⟩ := walk_down h
      · rw [List.map_eq_nil_iff.mp hnil]
        exact List.forall_mem_singleton.mpr hlen
      · exact List.forall_mem_cons.mpr ⟨hlen, ih hw⟩

/-- Where folders lead to it, a walk down comes to its end. -/
theorem walk_downs (hshort : ∀ name ∈ names, ¬ longestName < name.utf8ByteSize)
    (hway : ∀ front rest, front ++ rest = names → front ≠ [] → rest ≠ [] →
      t.lookup (here ++ front) = some .folder) :
    t.walk here (names.map .down) = .ok (here ++ names) := by
  induction names generalizing here with
  | nil => rw [List.append_nil]; rfl
  | cons name rest ih =>
      obtain ⟨hlen, hrest⟩ := List.forall_mem_cons.mp hshort
      by_cases hne : rest = []
      · rw [hne]
        simp only [List.map_cons, List.map_nil, walk, if_neg hlen, if_pos]
      · have hfolder := hway [name] rest rfl (List.cons_ne_nil _ _) hne
        have hnames : here ++ name :: rest = here ++ [name] ++ rest := List.append_cons here name rest
        rw [List.map_cons, walk_of_folder hlen (by simpa using hne) hfolder, hnames]
        refine ih hrest fun front more hsplit _ hmore => ?_
        rw [List.append_assoc]
        exact hway (name :: front) more (by rw [← hsplit]; rfl) (List.cons_ne_nil _ _) hmore

theorem Rooted.way (h : t.Rooted) (hl : t.lookup (here ++ names) = some entry)
    (front rest : List String) (hsplit : front ++ rest = names) (_ : front ≠ []) (hrest : rest ≠ []) :
    t.lookup (here ++ front) = some .folder := by
  rw [← hsplit, ← List.append_assoc] at hl
  exact h.folder hrest hl

/-- A walk down that comes to an end in some tree does so in a rooted one that has an entry
there. -/
theorem Rooted.walk_downs (h : t.Rooted) (hl : t.lookup (here ++ names) = some entry)
    (hw : t'.walk here (names.map .down) = .ok found) :
    t.walk here (names.map .down) = .ok found := by
  rw [eq_of_walk_downs hw]
  exact FileTree.walk_downs (short_of_walk_downs hw) (h.way hl)

/-- **What a contained path leads to stays** while the tree changes at other locations.  Only the
faults may be others where it leads to nothing. -/
theorem Rooted.entryAt_join {P : Location → Prop} {dir path : String} (h : t.Rooted)
    (hd : t.FolderAt dir loc) (hb : IsBase dir) (hp : Path.isContained path = true)
    (hc : ChangesOnly P t t') (hP : ¬ P (loc ++ Path.names path)) :
    (t'.entryAt (Path.join dir path)).toOption = (t.entryAt (Path.join dir path)).toOption := by
  have walk_join : ∀ {t}, FolderAt t dir loc → t.walk [] (Path.steps (Path.join dir path)) =
      t.walk loc ((Path.names path).map .down) := fun hd => by
    rw [hb.steps_join_contained hp, walk_append hd.walk hd.folder]
  have hkeeps := hc.others _ hP
  cases hw : t.walk [] (Path.steps (Path.join dir path)) with
  | ok found =>
      have hfound : found = loc ++ Path.names path :=
        eq_of_walk_downs ((walk_join hd).symm.trans hw)
      rw [entryAt_congr (t := t) (walk_mono hc.folders hw |>.trans hw.symm) fun found' hw' => ?_]
      rw [hw] at hw'
      cases hw'
      rw [hfound, hkeeps]
  | error fault =>
      cases he' : t'.entryAt (Path.join dir path) with
      | error fault' =>
          cases he : t.entryAt (Path.join dir path) with
          | error fault => rfl
          | ok entry =>
              obtain ⟨-, found, hw', -⟩ := walk_of_entryAt he
              rw [hw] at hw'
              cases hw'
      | ok entry =>
          -- the entry was there before, so a walk led to it
          obtain ⟨-, found, hw', hl⟩ := walk_of_entryAt he'
          rw [walk_join (hd.mono hc.folders)] at hw'
          rw [eq_of_walk_downs hw', hkeeps] at hl
          rw [walk_join hd, h.walk_downs hl hw'] at hw
          cases hw

/-! ### Trees stay rooted -/

theorem Rooted.put (h : t.Rooted) (haround : t.lookup loc.dropLast = some .folder)
    (hfree : t.lookup loc ≠ some .folder) (entry : Entry) : (t.put loc entry).Rooted := by
  have hkeeps : KeepsFolders t (t.put loc entry) := (ChangesOnly.put hfree entry).folders
  intro e he
  rcases List.mem_append.mp he with he | he
  · exact hkeeps _ (h e (List.mem_filter.mp he).1)
  · rw [List.mem_singleton.mp he]
    exact hkeeps _ haround

theorem Rooted.makeFolders {dir name : String} (h : t.Rooted) (hd : t.FolderAt dir loc)
    (hb : IsBase dir) (hn : IsName name) : (t.makeFolders (Path.join dir name)).1.Rooted := by
  obtain he | ⟨hnone, he⟩ := hd.tree_makeFolders hb hn <;> rw [he]
  · exact h
  · exact h.put (by rw [List.dropLast_concat, hd.folder]) (by simp [hnone]) .folder

end Rooted

end FileTree

/-! ### Requests -/

section Requests

variable {config : Config} {p : Project} {tree : FileTree} {loc : Location} {group : String}
  {groups : List ScriptGroup}

theorem Artifact.rooted_keep (hc : config.generatedDir = "generated") (hr : tree.Rooted)
    (hd : tree.FolderAt p.dir loc) (hb : Path.IsBase p.dir) (hs : isSlug group = true)
    (m : Machine) : (keep config p group m tree).1.Rooted := by
  have hmade := hr.makeFolders hd hb isName_generated
  obtain he | ⟨hfolder, hfree, he⟩ := tree_keep hc hd hb hs m rfl <;> rw [he]
  · exact hmade
  · refine hmade.put ?_ hfree _
    rwa [artifactAt, List.dropLast_append_of_ne_nil (List.cons_ne_nil _ _)]

theorem Request.rooted_compileGroups (hc : config.generatedDir = "generated") (hr : tree.Rooted)
    (hd : tree.FolderAt p.dir loc) (hb : Path.IsBase p.dir) (hw : Manifest.WellNamed groups) :
    (compileGroups config p true tree groups).tree.Rooted := by
  -- the folder of the project has to stay for the next group
  refine (compileGroups_invariant (I := fun t => t.Rooted ∧ t.FolderAt p.dir loc) ?_ ⟨hr, hd⟩).1
  rintro g hg m t ⟨hrooted, hfolder⟩
  have hs := hw.slugs g hg
  exact ⟨Artifact.rooted_keep hc hrooted hfolder hb hs m,
    hfolder.mono (Artifact.keep_changes hc hfolder hb hs m).folders⟩

/-- **A rooted tree stays rooted**, whatever is requested. -/
theorem Request.rooted_run (hc : config.generatedDir = "generated") (hr : tree.Rooted)
    (r : Request) : (r.run config tree).tree.Rooted := by
  cases hl : (Project.load config tree r.project).2 with
  | error f => rwa [(run_of_load_error hl).1]
  | ok p =>
      rw [(run_of_load_ok hl).1]
      unfold compileProject
      cases r.mode with
      | preview =>
          unfold previewGroup
          dsimp only
          split <;> exact hr
      | check =>
          unfold compileAll
          dsimp only
          split
          · exact hr
          · rwa [tree_answerOf, tree_compileGroups_checked]
      | persist =>
          have hp := Project.loaded_of_load hl
          obtain ⟨loc, hd⟩ := hp.folderAt
          unfold compileAll
          dsimp only
          split
          · exact hr
          · rename_i groups hg
            exact rooted_compileGroups hc hr hd hp.isBase (Project.wellNamed_select hp.groups hg)

end Requests

end Dialogue
