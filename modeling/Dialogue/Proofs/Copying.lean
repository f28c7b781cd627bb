import Dialogue.Proofs.Artifacts
import Dialogue.Proofs.Rooted
import Dialogue.ProjectCopy
import Mathlib.Data.List.Infix

/-!
# What a copy of a project holds

A project is copied entry by entry, folders first.  After each entry the copy holds entries of the
project only, at the names that they have there, and none that is left out
(`ProjectCopy.Partial`).  An entry that has been copied stays as it is.  So if nothing failed, the
copy holds what the project holds, apart from what is left out (`ProjectCopy.Mirrors`).

The copy is made where nothing is (`FileTree.Fresh`), and of a tree as a file system has them
(`FileTree.Orderly`).
-/

namespace Dialogue

open Dialogue.Path (IsBase IsName)

/-! ### Trees as file systems have them -/

namespace FileTree

/-- Entries lie in folders, no two at one location, and below a name there are names. -/
structure Orderly (t : FileTree) : Prop where
  rooted : t.Rooted
  distinct : (t.entries.map (·.1)).Nodup
  named : ∀ e ∈ t.entries, ∀ name ∈ e.1.dropWhile fun name => !decide (IsName name), IsName name

/-- Nothing is where a path leads to, nor below, and the path does not go there and back. -/
structure Fresh (t : FileTree) (path : String) : Prop where
  vacant : ∀ q, Path.location path <+: q → t.lookup q = none
  straight : ∀ front, front <+: Path.steps path →
    Path.location path <+: Location.follow [] front → Location.follow [] front = Path.location path

instance (t : FileTree) : Decidable t.Orderly :=
  decidable_of_iff (t.Rooted ∧ (t.entries.map (·.1)).Nodup ∧
      ∀ e ∈ t.entries, ∀ name ∈ e.1.dropWhile fun name => !decide (IsName name), IsName name)
    ⟨fun h => ⟨h.1, h.2.1, h.2.2⟩, fun h => ⟨h.rooted, h.distinct, h.named⟩⟩

/-- Nothing is where a path leads to if no entry lies there or below. -/
theorem fresh_iff {t : FileTree} {path : String} : t.Fresh path ↔
    (Path.location path).isAbove = false ∧ (∀ e ∈ t.entries, ¬ Path.location path <+: e.1) ∧
      ∀ front ∈ (Path.steps path).inits,
        Path.location path <+: Location.follow [] front →
          Location.follow [] front = Path.location path := by
  constructor
  · rintro ⟨vacant, straight⟩
    have hroot := vacant _ (List.prefix_refl _)
    refine ⟨isAbove_eq_false (t := t) (by simp [hroot]), fun e he hq => ?_, fun front hf =>
      straight front ((List.mem_inits _ _).mp hf)⟩
    have hnone := vacant _ hq
    unfold lookup at hnone
    split at hnone
    · cases hnone
    · exact absurd (List.lookup_eq_none_iff.mp hnone e he) (by simp)
  · rintro ⟨habove, hentries, straight⟩
    refine ⟨fun q hq => ?_, fun front hf => straight front ((List.mem_inits _ _).mpr hf)⟩
    have ha : Location.isAbove q = false := by
      cases ha : Location.isAbove q with
      | false => rfl
      | true => rw [← habove, isAbove_of_prefix hq ha]
    rw [lookup, ha, if_neg Bool.false_ne_true]
    refine List.lookup_eq_none_iff.mpr fun e he => ?_
    have hne : q ≠ e.1 := fun eq => hentries e he (eq ▸ hq)
    simpa using hne

instance (t : FileTree) (path : String) : Decidable (t.Fresh path) :=
  decidable_of_iff _ fresh_iff.symm

/-- A name is as fresh as the folder it is in. -/
theorem Fresh.join {t : FileTree} {base name : String} (h : t.Fresh base) (hn : IsName name) :
    t.Fresh (Path.join base name) where
  vacant q hq := by
    rw [Path.location_join_name base hn] at hq
    exact h.vacant q ((List.prefix_append _ _).trans hq)
  straight front hfront hbelow := by
    rw [Path.steps_join_name base hn, List.prefix_concat_iff] at hfront
    obtain rfl | hfront := hfront
    · rw [Path.location, Path.steps_join_name base hn]
    · -- the way to the folder does not go below the folder
      rw [Path.location_join_name base hn] at hbelow
      have hend := h.straight front hfront ((List.prefix_append _ _).trans hbelow)
      rw [hend] at hbelow
      exact absurd hbelow.length_le (by simp)

section Orderly

variable {t : FileTree} {loc front names : Location} {name : String} {entry : Entry}

theorem isAbove_of_isName (hn : IsName name) :
    Location.isAbove (front ++ name :: names) = false := by
  cases ha : Location.isAbove (front ++ name :: names) with
  | false => rfl
  | true =>
      simp only [Location.isAbove, Bool.or_eq_true, beq_iff_eq, List.all_eq_true] at ha
      obtain e | hall := ha
      · exact absurd (List.append_eq_singleton_iff.mp e) (by simp [hn.ne_root])
      · exact absurd (hall name (by simp)) hn.ne_up

/-- Below a name there are names. -/
theorem Orderly.isName_of_mem (h : t.Orderly) (hn : IsName name)
    (he : (front ++ name :: names, entry) ∈ t.entries) : ∀ other ∈ names, IsName other := by
  intro other hmem
  refine h.named _ he other ?_
  -- from the name on, nothing is dropped
  have kept : (name :: names).dropWhile (fun name => !decide (IsName name)) = name :: names :=
    List.dropWhile_cons_of_neg (by simpa using hn)
  rw [List.dropWhile_append, kept]
  split
  · exact List.mem_cons_of_mem _ hmem
  · exact List.mem_append_right _ (List.mem_cons_of_mem _ hmem)

/-- An entry below a name is found. -/
theorem Orderly.mem_iff (h : t.Orderly) (hn : IsName name) :
    (front ++ name :: names, entry) ∈ t.entries ↔
      t.lookup (front ++ name :: names) = some entry := by
  rw [lookup, isAbove_of_isName hn, if_neg Bool.false_ne_true]
  refine ⟨fun he => ?_, mem_of_lookup⟩
  obtain ⟨before, after, hsplit⟩ := List.append_of_mem he
  have distinct := h.distinct
  rw [hsplit, List.map_append, List.map_cons, List.nodup_append] at distinct
  refine List.lookup_eq_some_iff.mpr ⟨before, after, hsplit, fun p hp => ?_⟩
  have hne := distinct.2.2 p.1 (List.mem_map_of_mem hp) _ List.mem_cons_self
  simpa using hne.symm

theorem mem_below :
    (names, entry) ∈ t.below loc ↔ names ≠ [] ∧ (loc ++ names, entry) ∈ t.entries := by
  unfold below
  rw [List.mem_filterMap]
  constructor
  · rintro ⟨⟨l, entry'⟩, hmem, h⟩
    dsimp only at h
    split at h <;> cases h
    rename_i hinside
    rw [Bool.and_eq_true, List.isPrefixOf_iff_prefix] at hinside
    obtain ⟨⟨rest, rfl⟩, hlen⟩ := hinside
    rw [List.drop_append_length]
    refine ⟨?_, hmem⟩
    rintro rfl
    simp at hlen
  · rintro ⟨hne, hmem⟩
    exact ⟨_, hmem, by simp [hne]⟩

end Orderly

end FileTree

/-! ### What is copied -/

namespace ProjectCopy

/-- There is an entry at the names below a location, and it is not left out. -/
def Wanted (tree : FileTree) (loc names : Location) (entry : Entry) : Prop :=
  tree.lookup (loc ++ names) = some entry ∧ isSkipped names entry = false

section Wanted

variable {tree : FileTree} {loc names front rest : Location} {entry entry' : Entry}

theorem Wanted.eq (h : Wanted tree loc names entry) (h' : Wanted tree loc names entry') :
    entry' = entry := Option.some.inj (h'.1.symm.trans h.1)

/-- Folders that lead to what is not left out are not left out. -/
theorem isSkipped_front (hr : rest ≠ []) (h : isSkipped (front ++ rest) entry = false) :
    isSkipped front .folder = false := by
  simp only [isSkipped, Bool.or_eq_false_iff, List.contains_eq_mem, decide_eq_false_iff_not] at h ⊢
  rw [List.dropLast_append_of_ne_nil hr, List.mem_append, not_or] at h
  have hfront : skippedName ∉ front := h.1.1
  refine ⟨fun hm => hfront (List.dropLast_subset _ hm), ?_⟩
  cases hlast : front.getLast? with
  | none => rfl
  | some last =>
      have hne : last ≠ skippedName := by
        rintro rfl
        exact hfront (List.mem_of_getLast? hlast)
      simpa using hne

theorem Wanted.around (hr : tree.Rooted) (hrest : rest ≠ [])
    (h : Wanted tree loc (front ++ rest) entry) : Wanted tree loc front .folder := by
  have hl := h.1
  rw [← List.append_assoc] at hl
  exact ⟨hr.folder hrest hl, isSkipped_front hrest h.2⟩

/-- An entry is to be copied: it is wanted, and its names can be put together to a path. -/
structure Due (tree : FileTree) (loc names : Location) (entry : Entry) : Prop where
  below : names ≠ []
  isName : ∀ name ∈ names, IsName name
  wanted : Wanted tree loc names entry

theorem Wanted.due {name : String} (h : tree.Orderly) (hn : IsName name) (hne : names ≠ [])
    (hw : Wanted tree (front ++ [name]) names entry) : Due tree (front ++ [name]) names entry := by
  have hl := hw.1
  rw [List.append_assoc, List.singleton_append] at hl
  exact ⟨hne, h.isName_of_mem hn ((h.mem_iff hn).mpr hl), hw⟩

/-- What is copied of a project is all that is wanted. -/
theorem mem_copied {name : String} (h : tree.Orderly) (hn : IsName name) :
    (names, entry) ∈ copied tree (front ++ [name]) ↔
      names ≠ [] ∧ Wanted tree (front ++ [name]) names entry := by
  have hfilter : (names, entry) ∈ copied tree (front ++ [name]) ↔
      (names, entry) ∈ tree.below (front ++ [name]) ∧ isSkipped names entry = false := by
    cases entry <;> simp [copied]
  rw [hfilter, FileTree.mem_below, Wanted, List.append_assoc, List.singleton_append, h.mem_iff hn,
    and_assoc]

end Wanted

/-! ### Entry by entry -/

/-- A project in the folder `source` is copied to the folder `target`, where nothing was. -/
structure Setting (tree : FileTree) (source target : String) (loc : Location) : Prop where
  rooted : tree.Rooted
  project : tree.FolderAt source loc
  base : IsBase target
  fresh : tree.Fresh target

/-- Some of the project has been copied, and nothing else. -/
structure Partial (tree : FileTree) (target : String) (loc : Location) (s : FileTree) : Prop where
  folder : s.FolderAt target (Path.location target)
  older : FileTree.Extends tree s
  only : ∀ names entry, names ≠ [] → s.lookup (Path.location target ++ names) = some entry →
    Wanted tree loc names entry

/-- An entry has been copied. -/
structure Arrived (source target : String) (s : FileTree) (names : Location) (entry : Entry) :
    Prop where
  there : s.lookup (Path.location target ++ names) = some entry
  /-- the paths of a file could be named -/
  named : entry ≠ .folder →
    FileTree.checkPath (Path.join source ("/".intercalate names)) = .ok () ∧
      FileTree.checkPath (Path.join target ("/".intercalate names)) = .ok ()

theorem Arrived.mono {source target : String} {names : Location} {s s' : FileTree} {entry : Entry}
    (h : Arrived source target s names entry) (hs : FileTree.Extends s s') :
    Arrived source target s' names entry := ⟨hs _ _ h.there, h.named⟩

/-- What comes of copying a file onto a free location: it is emptied, and then it has the content
that is found at the source. -/
theorem copyFile_eq_ok {t t' : FileTree} {source target : String}
    (h : t.copyFile source target = .ok t') : ∃ emptied content,
      emptied = t.put (Path.location target) (.file (.text "")) ∧
        emptied.read source = .ok content ∧ FileTree.checkPath target = .ok () ∧
        t'.lookup (Path.location target) = some (.file content) ∧
        ∀ q, q ≠ Path.location target → t'.lookup q = t.lookup q := by
  obtain ⟨_, -, h⟩ := bind_eq_ok_iff.mp h
  obtain ⟨emptied, hempty, h⟩ := bind_eq_ok_iff.mp h
  obtain ⟨content, hread, hwrite⟩ := bind_eq_ok_iff.mp h
  obtain ⟨-, -, q, hw, -, rfl⟩ := FileTree.write_eq_ok hempty
  obtain ⟨hv, -, q', hw', hfree, rfl⟩ := FileTree.write_eq_ok hwrite
  obtain rfl := FileTree.eq_location_of_walk hw
  obtain rfl := FileTree.eq_location_of_walk hw'
  refine ⟨_, content, rfl, hread, hv, FileTree.lookup_put_free _ hfree, fun q hq => ?_⟩
  rw [FileTree.lookup_put_of_ne _ _ hq, FileTree.lookup_put_of_ne _ _ hq]

section Steps

variable {tree s s' : FileTree} {source target : String} {loc names : Location} {entry : Entry}

/-- The folder for the copy is made first. -/
theorem Setting.start (hset : Setting tree source target loc)
    (h : copyEntry source target tree [] .folder = .ok s) : Partial tree target loc s := by
  have hsteps : Path.steps (Path.join target "") = Path.steps target := by
    rw [Path.steps_join_relative hset.base (by decide)]
    exact List.append_nil _
  have hmade := FileTree.madeAlong_makeFolders tree (Path.join target "")
  simp only [copyEntry, String.intercalate_nil] at h
  split at h <;> cases h
  rename_i made
  obtain ⟨hv, hw, hl⟩ := FileTree.folderAt_of_makeFolders (hset.base.join_ne_nil _) made
  rw [made, hsteps] at hmade
  rw [Path.location, hsteps] at hw hl
  refine ⟨⟨FileTree.checkPath_of_join hset.base (by decide) hv, hw, hl⟩, hmade.toExtends, ?_⟩
  -- what is new lies on the way to the folder, and not below it
  intro names entry hne hthere
  obtain e | ⟨-, -, front, name, hf, e⟩ := hmade (Path.location target ++ names)
  · rw [e, hset.fresh.vacant _ (List.prefix_append _ _)] at hthere
    cases hthere
  · have hend := hset.fresh.straight _ hf (e ▸ List.prefix_append _ names)
    rw [← e] at hend
    exact absurd (by simpa using hend) hne

/-- A folder is copied by making it, and those around it that are still missing. -/
theorem Partial.copyFolder (h : Partial tree target loc s)
    (hset : Setting tree source target loc) (hdue : Due tree loc names .folder)
    (hc : copyEntry source target s names .folder = .ok s') :
    Partial tree target loc s' ∧ FileTree.Extends s s' ∧
      Arrived source target s' names .folder := by
  have hmade := FileTree.madeAlong_makeFolders s (Path.join target ("/".intercalate names))
  simp only [copyEntry] at hc
  split at hc <;> cases hc
  rename_i made
  rw [made, Path.steps_join_intercalate target hdue.below hdue.isName] at hmade
  have hext := hmade.toExtends
  have hfolder := (FileTree.folderAt_of_makeFolders (hset.base.join_ne_nil _) made).folder
  rw [Path.location_join_intercalate target hdue.below hdue.isName] at hfolder
  refine ⟨⟨h.folder.mono hext.folders, h.older.trans hext, ?_⟩, hext, hfolder, absurd rfl⟩
  intro names' entry' hne hl
  obtain e | ⟨hnew, front, ⟨rest, hrest⟩, e⟩ :=
    hmade.below h.folder (Path.location target ++ names')
  · rw [e] at hl
    exact h.only names' entry' hne hl
  · -- folders on the way to one that is wanted are wanted
    rw [hnew] at hl
    cases hl
    obtain rfl := List.append_cancel_left e
    have hw := hdue.wanted
    rw [← hrest] at hw
    cases rest with
    | nil => simpa using hw
    | cons first more => exact hw.around hset.rooted (List.cons_ne_nil first more)

/-- An entry of the project is put where it belongs, in the place of what is the same. -/
theorem Partial.put (h : Partial tree target loc s) (hne : names ≠ [])
    (hw : Wanted tree loc names entry)
    (hthere : s'.lookup (Path.location target ++ names) = some entry)
    (hothers : ∀ q, q ≠ Path.location target ++ names → s'.lookup q = s.lookup q) :
    Partial tree target loc s' ∧ FileTree.Extends s s' := by
  have hext : FileTree.Extends s s' := by
    intro q entry' hl
    by_cases e : q = Path.location target ++ names
    · subst e
      rw [hthere, (h.only names entry' hne hl).eq hw]
    · rw [hothers q e, hl]
  refine ⟨⟨h.folder.mono hext.folders, h.older.trans hext, ?_⟩, hext⟩
  intro names' entry' hne' hl
  by_cases e : names' = names
  · subst e
    rw [hthere] at hl
    cases hl
    exact hw
  · rw [hothers _ fun e' => e (List.append_cancel_left e')] at hl
    exact h.only names' entry' hne' hl

/-- A file is copied with what is in it. -/
theorem Partial.copyFile {content : Content} (h : Partial tree target loc s)
    (hset : Setting tree source target loc) (hdue : Due tree loc names (.file content))
    (hc : copyEntry source target s names (.file content) = .ok s') :
    Partial tree target loc s' ∧ FileTree.Extends s s' ∧
      Arrived source target s' names (.file content) := by
  obtain ⟨_, found, rfl, hread, hv', hthere, hothers⟩ :=
    copyFile_eq_ok (mapError_eq_ok_iff.mp hc)
  obtain ⟨hv, -, q, hw, hfound⟩ := FileTree.read_eq_ok_iff.mp hread
  rw [Path.location_join_intercalate target hdue.below hdue.isName] at hthere hothers hfound
  have hq : q = loc ++ names := by
    rw [FileTree.eq_location_of_walk hw,
      Path.location_join_intercalate source hdue.below hdue.isName,
      FileTree.eq_location_of_walk hset.project.walk]
  have hl := hdue.wanted.1
  have hapart : q ≠ Path.location target ++ names := by
    intro e
    rw [← hq, e, hset.fresh.vacant _ (List.prefix_append _ _)] at hl
    cases hl
  rw [FileTree.lookup_put_of_ne _ _ hapart, hq, h.older _ _ hl] at hfound
  cases hfound
  obtain ⟨hpartial, hext⟩ := h.put hdue.below hdue.wanted hthere hothers
  exact ⟨hpartial, hext, hthere, fun _ => ⟨hv, hv'⟩⟩

/-- **A step of the copy**: whatever is copied next arrives, and what is there stays. -/
theorem Partial.copyEntry (h : Partial tree target loc s)
    (hset : Setting tree source target loc) (hdue : Due tree loc names entry)
    (hc : copyEntry source target s names entry = .ok s') :
    Partial tree target loc s' ∧ FileTree.Extends s s' ∧ Arrived source target s' names entry := by
  cases entry with
  | folder => exact h.copyFolder hset hdue hc
  | file content => exact h.copyFile hset hdue hc

/-- **The whole copy**: all entries have arrived at its end. -/
theorem Partial.copyEntries {entries : List (Location × Entry)} (h : Partial tree target loc s)
    (hset : Setting tree source target loc) (hdue : ∀ e ∈ entries, Due tree loc e.1 e.2)
    (hc : copyEntries source target s entries = .ok s') :
    Partial tree target loc s' ∧ FileTree.Extends s s' ∧
      ∀ e ∈ entries, Arrived source target s' e.1 e.2 := by
  induction entries generalizing s with
  | nil =>
      cases hc
      exact ⟨h, .refl _, nofun⟩
  | cons e rest ih =>
      obtain ⟨hfirst, hrest⟩ := List.forall_mem_cons.mp hdue
      obtain ⟨next, hnext, hc⟩ := bind_eq_ok_iff.mp hc
      obtain ⟨hpartial, hext, harrived⟩ := h.copyEntry hset hfirst hnext
      obtain ⟨hall, hext', hothers⟩ := ih hpartial hrest hc
      exact ⟨hall, hext.trans hext', List.forall_mem_cons.mpr ⟨harrived.mono hext', hothers⟩⟩

end Steps

/-! ### Projects -/

/-- **The copy of a project**: at each name below it there is what the project has there, unless
that is left out. -/
structure Mirrors (tree left : FileTree) (source target : String) (loc : Location) : Prop where
  project : tree.FolderAt source loc
  copy : left.FolderAt target (Path.location target)
  lookup : ∀ names, names ≠ [] → left.lookup (Path.location target ++ names) =
    (tree.lookup (loc ++ names)).filter fun entry => !isSkipped names entry
  /-- the files that were copied could be named, in the project and in the copy -/
  named : ∀ names content, names ≠ [] → Wanted tree loc names (.file content) →
    FileTree.checkPath (Path.join source ("/".intercalate names)) = .ok () ∧
      FileTree.checkPath (Path.join target ("/".intercalate names)) = .ok ()

section Run

variable {tree left : FileTree} {source scratch target slug : String} {loc : Location}

/-- Where all that is wanted has arrived and nothing else, the project is mirrored. -/
theorem Partial.mirrors (h : Partial tree target loc left) (hd : tree.FolderAt source loc)
    (hall : ∀ names entry, names ≠ [] → Wanted tree loc names entry →
      Arrived source target left names entry) : Mirrors tree left source target loc where
  project := hd
  copy := h.folder
  lookup names hne := by
    ext entry
    rw [Option.filter_eq_some_iff, Bool.not_eq_true']
    exact ⟨h.only names entry hne, fun hw => (hall names entry hne hw).there⟩
  named names content hne hw := (hall names _ hne hw).named nofun

/-- A project lies at its name, so that there are names below. -/
theorem location_of_fileName? (hname : Path.fileName? source = some slug)
    (hd : tree.FolderAt source loc) : IsName slug ∧ ∃ front, loc = front ++ [slug] := by
  obtain ⟨hn, front, hsteps⟩ := Path.steps_of_fileName? hname
  refine ⟨hn, Location.follow [] front, ?_⟩
  rw [FileTree.eq_follow_of_walk hd.walk, hsteps, Location.follow_append]
  rfl

/-- What is copied without a fault is a folder with a name: first it, then what is in it. -/
theorem run_eq_ok (h : run tree source scratch = .ok (left, slug)) :
    Path.fileName? source = some slug ∧ ∃ loc made, tree.FolderAt source loc ∧
      copyEntry source (Path.join scratch slug) tree [] .folder = .ok made ∧
      copyEntries source (Path.join scratch slug) made (copied tree loc) = .ok left := by
  unfold run at h
  split at h
  · cases h
  · rename_i slug' hname
    obtain ⟨entry, hentry, h⟩ := bind_eq_ok_iff.mp h
    obtain ⟨loc, hloc, h⟩ := bind_eq_ok_iff.mp h
    obtain ⟨hv, found, hw, hl⟩ := FileTree.walk_of_entryAt (mapError_eq_ok_iff.mp hentry)
    obtain ⟨-, hw'⟩ := FileTree.walk_of_locate (mapError_eq_ok_iff.mp hloc)
    rw [hw] at hw'
    cases hw'
    cases entry with
    | file content =>
        -- the path for the copy ends in a slash, and no file can be written there
        obtain ⟨copy, hcopy, -⟩ := bind_eq_ok_iff.mp h
        obtain ⟨_, -, hcopy⟩ := bind_eq_ok_iff.mp (mapError_eq_ok_iff.mp hcopy)
        obtain ⟨_, hwrite, -⟩ := bind_eq_ok_iff.mp hcopy
        obtain ⟨-, hend, -⟩ := FileTree.write_eq_ok hwrite
        have hb := Path.isBase_join scratch (Path.steps_of_fileName? hname).1
        have hslash : (Path.join (Path.join scratch slug') "").endsWith "/" = true := by
          rw [Path.endsWith_slash_iff, hb.toList_join_relative (by decide)]
          exact List.getLast?_concat
        simp [FileTree.endsInFolder, hslash] at hend
    | folder =>
        obtain ⟨made, hmade, h⟩ := bind_eq_ok_iff.mp h
        obtain ⟨copy, hcopy, h⟩ := bind_eq_ok_iff.mp h
        cases h
        exact ⟨hname, loc, made, ⟨hv, hw, hl⟩, hmade, hcopy⟩

/-- **The project is mirrored** where all that is wanted of it is copied, in whatever order. -/
theorem Setting.mirrors {front : Location} {made : FileTree} {entries : List (Location × Entry)}
    (ho : tree.Orderly) (hn : IsName slug) (hset : Setting tree source target (front ++ [slug]))
    (hall : ∀ names entry, (names, entry) ∈ entries ↔
      names ≠ [] ∧ Wanted tree (front ++ [slug]) names entry)
    (hmade : copyEntry source target tree [] .folder = .ok made)
    (hcopy : copyEntries source target made entries = .ok left) :
    Mirrors tree left source target (front ++ [slug]) := by
  have hdue : ∀ e ∈ entries, Due tree (front ++ [slug]) e.1 e.2 := by
    intro e he
    obtain ⟨hne, hw⟩ := (hall e.1 e.2).mp he
    exact hw.due ho hn hne
  obtain ⟨hpartial, -, harrived⟩ := (hset.start hmade).copyEntries hset hdue hcopy
  exact hpartial.mirrors hset.project fun names entry hne hw =>
    harrived (names, entry) ((hall names entry).mpr ⟨hne, hw⟩)

/-- **A copy that succeeds mirrors the project.** -/
theorem mirrors_of_run (ho : tree.Orderly) (hf : tree.Fresh scratch)
    (h : run tree source scratch = .ok (left, slug)) :
    ∃ loc, Mirrors tree left source (Path.join scratch slug) loc := by
  obtain ⟨hname, loc, made, hd, hmade, hcopy⟩ := run_eq_ok h
  obtain ⟨hn, front, rfl⟩ := location_of_fileName? hname hd
  have hset : Setting tree source (Path.join scratch slug) (front ++ [slug]) :=
    ⟨ho.rooted, hd, Path.isBase_join scratch hn, hf.join hn⟩
  exact ⟨_, hset.mirrors ho hn (fun names entry => mem_copied ho hn) hmade hcopy⟩

end Run

end ProjectCopy

/-! ### What is found in the copy -/

/-- **What a contained path leads to** is the entry at its names, if the path and the names can be
named and folders lead there. -/
theorem FileTree.FolderAt.entryAt_contained_iff {t : FileTree} {dir path : String} {loc : Location}
    {entry : Entry} (hd : t.FolderAt dir loc) (hb : IsBase dir) (hp : Path.isContained path = true)
    (hway : t.lookup (loc ++ Path.names path) = some entry → ∀ front rest,
      front ++ rest = Path.names path → front ≠ [] → rest ≠ [] →
        t.lookup (loc ++ front) = some .folder) :
    t.entryAt (Path.join dir path) = .ok entry ↔
      checkPath (Path.join dir path) = .ok () ∧
        (∀ name ∈ Path.names path, ¬ longestName < name.utf8ByteSize) ∧
        t.lookup (loc ++ Path.names path) = some entry ∧
        (entry ≠ .folder → endsInFolder path = false) := by
  obtain ⟨hne, hrel⟩ := Path.relative_of_isContained hp
  have walk_join : t.walk [] (Path.steps (Path.join dir path)) =
      t.walk loc ((Path.names path).map .down) := by
    rw [hb.steps_join_contained hp, walk_append hd.walk hd.folder]
  constructor
  · intro h
    obtain ⟨hv, found, hw, hl⟩ := walk_of_entryAt h
    have hw' := walk_join.symm.trans hw
    obtain rfl := eq_of_walk_downs hw'
    refine ⟨hv, short_of_walk_downs hw', hl, fun hfile => ?_⟩
    rw [entryAt_of_walk hv hw, hl] at h
    cases entry with
    | folder => exact absurd rfl hfile
    | file content =>
        rw [← FileTree.endsInFolder_join hb hne hrel]
        cases hend : endsInFolder (Path.join dir path) with
        | false => rfl
        | true => simp [hend] at h
  · rintro ⟨hv, hshort, hl, hend⟩
    rw [entryAt_of_walk hv (walk_join.trans (walk_downs hshort (hway hl))), hl]
    cases entry with
    | folder => rfl
    | file content => simp [FileTree.endsInFolder_join hb hne hrel, hend nofun]

namespace ProjectCopy

section Found

variable {tree left : FileTree} {source target path : String} {loc names : Location}
  {entry : Entry}

theorem Mirrors.lookup_eq_some (h : Mirrors tree left source target loc) :
    left.lookup (Path.location target ++ names) = some entry ↔
      if names = [] then entry = .folder else Wanted tree loc names entry := by
  split
  · rename_i hnil
    rw [hnil, List.append_nil, h.copy.folder, Option.some_inj, eq_comm]
  · rename_i hne
    rw [h.lookup names hne, Option.filter_eq_some_iff, Wanted, Bool.not_eq_true']

theorem Mirrors.lookup_project (h : Mirrors tree left source target loc)
    (hl : left.lookup (Path.location target ++ names) = some entry) :
    tree.lookup (loc ++ names) = some entry := by
  have hw := h.lookup_eq_some.mp hl
  split at hw
  · rename_i hnil
    rw [hnil, List.append_nil, h.project.folder, hw]
  · exact hw.1

/-- Folders lead to all there is in the copy. -/
theorem Mirrors.way (h : Mirrors tree left source target loc) (hr : tree.Rooted)
    (hl : left.lookup (Path.location target ++ names) = some entry) (front rest : List String)
    (hsplit : front ++ rest = names) (hfront : front ≠ []) (hrest : rest ≠ []) :
    left.lookup (Path.location target ++ front) = some .folder := by
  have hne : names ≠ [] := hsplit ▸ List.append_ne_nil_of_left_ne_nil hfront rest
  have hw := h.lookup_eq_some.mp hl
  rw [if_neg hne, ← hsplit] at hw
  rw [h.lookup_eq_some, if_neg hfront]
  exact hw.around hr hrest

/-- **A path leads to the same in the copy**, unless what it leads to is left out, or only one of
its paths is too long. -/
theorem Mirrors.entryAt (h : Mirrors tree left source target loc) (hr : tree.Rooted)
    (hb : IsBase source) (hb' : IsBase target) (hp : Path.isContained path = true)
    (hnamed : ∀ entry, tree.lookup (loc ++ Path.names path) = some entry →
      FileTree.checkPath (Path.join target path) = FileTree.checkPath (Path.join source path))
    (hkept : ∀ entry, tree.entryAt (Path.join source path) = .ok entry →
      isSkipped (Path.names path) entry = false) :
    (left.entryAt (Path.join target path)).toOption =
      (tree.entryAt (Path.join source path)).toOption := by
  ext entry
  have original : tree.entryAt (Path.join source path) = .ok entry ↔ _ :=
    h.project.entryAt_contained_iff hb hp hr.way
  have copied : left.entryAt (Path.join target path) = .ok entry ↔ _ :=
    h.copy.entryAt_contained_iff hb' hp (h.way hr)
  rw [toOption_eq_some_iff, toOption_eq_some_iff]
  constructor
  · intro he
    obtain ⟨hv, hshort, hl, hend⟩ := copied.mp he
    have hl' := h.lookup_project hl
    exact original.mpr ⟨(hnamed entry hl').symm.trans hv, hshort, hl', hend⟩
  · intro he
    obtain ⟨hv, hshort, hl, hend⟩ := original.mp he
    refine copied.mpr ⟨(hnamed entry hl).trans hv, hshort, h.lookup_eq_some.mpr ?_, hend⟩
    split
    · rename_i hnil
      rw [hnil, List.append_nil, h.project.folder] at hl
      exact (Option.some.inj hl).symm
    · exact ⟨hl, hkept entry he⟩

end Found

end ProjectCopy

end Dialogue
