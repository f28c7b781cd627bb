import Dialogue.Proofs.Copying

/-!
# Exact copies

A project that lies in one place is copied to another: the folder for the copy is outside of the
project, and it has nothing at the name of the project yet (`ProjectCopy.Outside`).  That folder may
be missing, as what is missing on the way to it is made.  Whatever is copied then, all that is new
lies outside of the project, so nothing in the project changes (`ProjectCopy.Spares`).

An exact copy has what the project has, at the same names and with the same content, apart from the
folders for artifacts and what lies in them (`ProjectCopy.ExactCopy`).  To have copied the folder of
the project, and then all that is wanted in any order, is to have made one
(`ProjectCopy.Ready.exactCopy`).
-/

namespace Dialogue

open Dialogue.Path (IsBase IsName)

/-! ### Ways -/

theorem Path.steps_join_names {base : String} {names : List String} (hb : IsBase base)
    (hn : ∀ name ∈ names, IsName name) :
    steps (join base ("/".intercalate names)) = steps base ++ names.map .down := by
  by_cases hne : names = []
  · rw [hne, String.intercalate_nil, steps_join_relative hb (by decide)]
    rfl
  · exact steps_join_intercalate base hne hn

theorem Path.location_join_names {base : String} {names : List String} (hb : IsBase base)
    (hn : ∀ name ∈ names, IsName name) :
    location (join base ("/".intercalate names)) = location base ++ names := by
  rw [location, steps_join_names hb hn, Location.follow_append, Location.follow_downs]
  rfl

namespace Location

variable {here front : Location} {name : String}

theorem up_concat (hn : IsName name) : (front ++ [name]).up = front := by
  rw [up, List.getLast?_concat]
  split
  · rename_i h
    cases h
  · rename_i h
    exact absurd (Option.some.inj h) hn.ne_up
  · rename_i h
    exact absurd (Option.some.inj h) hn.ne_root
  · exact List.dropLast_concat

theorem up_cases (here : Location) : here.up <+: here ∨ here.up = here ++ [".."] := by
  unfold up
  split
  · exact .inr rfl
  · exact .inr rfl
  · exact .inl (List.prefix_refl here)
  · exact .inl (List.dropLast_prefix here)

/-- A step up leads below a name only from farther below. -/
theorem prefix_up (hn : IsName name) (h : front ++ [name] <+: here.up) :
    front ++ [name] <+: here ∧ front ++ [name] ≠ here := by
  constructor
  · obtain hup | hup := up_cases here
    · exact h.trans hup
    · rw [hup, List.prefix_concat_iff] at h
      exact h.resolve_left fun e => hn.ne_up (by simpa using List.append_inj_right' e rfl)
  · rintro rfl
    rw [up_concat hn] at h
    exact absurd h.length_le (by simp)

end Location

namespace FileTree

/-- Steps lead down to a location where nothing is. -/
def Missing (t : FileTree) (steps : List Path.Step) (q : Location) : Prop :=
  t.lookup q = none ∧ ∃ front name, front ++ [.down name] <+: steps ∧
    q = Location.follow [] (front ++ [.down name])

/-- Nothing lies below where nothing is. -/
theorem Rooted.vacant {t : FileTree} {here q : Location} (h : t.Rooted)
    (hnone : t.lookup here = none) (hq : here <+: q) : t.lookup q = none := by
  obtain ⟨names, rfl⟩ := hq
  by_cases hne : names = []
  · rw [hne, List.append_nil, hnone]
  · cases hl : t.lookup (here ++ names) with
    | none => rfl
    | some entry =>
        rw [h.folder hne hl] at hnone
        cases hnone

/-- Folders that are made on a way and on behind it are missing on the way, or lie behind it. -/
theorem MadeAlong.on_or_behind {t t' : FileTree} {steps : List Path.Step} {name : String}
    {names : List String} (h : MadeAlong (steps ++ (name :: names).map .down) t t') (q : Location) :
    t'.lookup q = t.lookup q ∨ t.Missing steps q ∨ Location.follow [] steps ++ [name] <+: q := by
  obtain e | ⟨hnone, -, front, last, hf, rfl⟩ := h q
  · exact .inl e
  · obtain hon | ⟨rest, hrest⟩ := List.prefix_or_prefix_of_prefix hf (List.prefix_append steps _)
    · exact .inr (.inl ⟨hnone, front, last, hon, rfl⟩)
    · rw [← hrest, List.prefix_append_right_inj] at hf
      obtain ⟨downs, hdowns, rfl⟩ := List.prefix_map_iff.mp hf
      cases downs with
      | nil => exact .inr (.inl ⟨hnone, front, last, ⟨[], by simpa using hrest.symm⟩, rfl⟩)
      | cons first more =>
          obtain ⟨rfl, -⟩ := List.cons_prefix_cons.mp hdowns
          rw [← hrest, Location.follow_append, Location.follow_downs, List.prefix_append_right_inj]
          exact .inr (.inr ⟨more, rfl⟩)

end FileTree

namespace ProjectCopy

/-! ### Where a copy is made -/

/-- A folder for copies is outside of the project at a location, and has nothing at the name.  If it
is missing it is made, and so is what its path only leads by, as `a` in `a/../b`. -/
structure Outside (tree : FileTree) (loc : Location) (into slug : String) : Prop where
  apart : ¬ loc <+: Path.location into
  vacant : tree.lookup (Path.location into ++ [slug]) = none
  /-- what is missing on the way to the folder is not in the project either, nor in the copy -/
  aside : ∀ q, tree.Missing (Path.steps into) q → ¬ loc <+: q ∧
    (Path.location into ++ [slug] <+: q → q = Path.location into ++ [slug])

namespace Outside

variable {tree : FileTree} {loc q : Location} {into slug : String}

/-- Nothing is missing on the way to a folder that is there. -/
theorem of_folder (hd : tree.FolderAt into q) (apart : ¬ loc <+: q)
    (vacant : tree.lookup (q ++ [slug]) = none) : Outside tree loc into slug := by
  obtain rfl := FileTree.eq_location_of_walk hd.walk
  refine ⟨apart, vacant, ?_⟩
  rintro _ ⟨hnone, front, name, hf, rfl⟩
  rw [FileTree.lookup_front hd.walk hd.folder hf] at hnone
  cases hnone

/-- A way that only leads down leads around the project. -/
theorem of_downs {names : List String} (hsteps : Path.steps into = names.map .down)
    (apart : ¬ loc <+: names) (vacant : tree.lookup (names ++ [slug]) = none) :
    Outside tree loc into slug := by
  have hlocation : Path.location into = names := by
    rw [Path.location, hsteps, Location.follow_downs, List.nil_append]
  refine ⟨hlocation ▸ apart, hlocation ▸ vacant, ?_⟩
  rintro _ ⟨-, front, name, hf, rfl⟩
  rw [hsteps] at hf
  obtain ⟨downs, hdowns, e⟩ := List.prefix_map_iff.mp hf
  rw [e, Location.follow_downs, List.nil_append, hlocation]
  refine ⟨fun h => apart (h.trans hdowns), fun h => ?_⟩
  exact absurd (h.trans hdowns).length_le (by simp)

theorem disjoint (h : Outside tree loc into slug) (hr : tree.Rooted)
    (hl : tree.lookup loc = some .folder) (hq : Path.location into ++ [slug] <+: q) :
    ¬ loc <+: q := by
  intro hloc
  obtain habove | hbelow := List.prefix_or_prefix_of_prefix hloc hq
  · obtain e | habove := List.prefix_concat_iff.mp habove
    · rw [e, h.vacant] at hl
      cases hl
    · exact h.apart habove
  · rw [hr.vacant h.vacant hbelow] at hl
    cases hl

/-- The way to the folder does not lead into the copy. -/
theorem straight (h : Outside tree loc into slug) (hr : tree.Rooted) (hn : IsName slug)
    {front : List Path.Step} (hf : front <+: Path.steps into)
    (hbelow : Path.location into ++ [slug] <+: Location.follow [] front) :
    Location.follow [] front = Path.location into ++ [slug] := by
  induction front using List.reverseRecOn with
  | nil => exact absurd (List.prefix_nil.mp hbelow) (by simp)
  | append_singleton front step ih =>
      have before := ih ((List.prefix_append front [step]).trans hf)
      cases step with
      | root =>
          rw [Location.follow_append] at hbelow
          have hlast : slug ∈ ["/"] := hbelow.subset (by simp)
          exact absurd (List.mem_singleton.mp hlast) hn.ne_root
      | here =>
          rw [Location.follow_append] at hbelow ⊢
          exact before hbelow
      | up =>
          rw [Location.follow_append] at hbelow
          obtain ⟨hbelow, hne⟩ := Location.prefix_up hn hbelow
          exact absurd (before hbelow).symm hne
      | down name =>
          refine (h.aside _ ⟨?_, front, name, hf, rfl⟩).2 hbelow
          exact hr.vacant h.vacant hbelow

theorem fresh (h : Outside tree loc into slug) (hr : tree.Rooted) (hn : IsName slug) :
    tree.Fresh (Path.join into slug) where
  vacant q hq := by
    rw [Path.location_join_name into hn] at hq
    exact hr.vacant h.vacant hq
  straight front hf hbelow := by
    rw [Path.steps_join_name into hn, List.prefix_concat_iff] at hf
    obtain rfl | hf := hf
    · rw [Path.location, Path.steps_join_name into hn]
    · rw [Path.location_join_name into hn] at hbelow ⊢
      exact h.straight hr hn hf hbelow

end Outside

/-- A project is ready to be copied: it has a name, and the folder for the copy is outside of it. -/
structure Ready (tree : FileTree) (source into slug : String) (loc : Location) : Prop where
  orderly : tree.Orderly
  named : Path.fileName? source = some slug
  project : tree.FolderAt source loc
  outside : Outside tree loc into slug

namespace Ready

variable {tree : FileTree} {source into slug : String} {loc : Location}

theorem isName (h : Ready tree source into slug loc) : IsName slug :=
  (location_of_fileName? h.named h.project).1

theorem setting (h : Ready tree source into slug loc) :
    Setting tree source (Path.join into slug) loc where
  rooted := h.orderly.rooted
  project := h.project
  base := Path.isBase_join into h.isName
  fresh := h.outside.fresh h.orderly.rooted h.isName

theorem isName_of_lookup {names : Location} {entry : Entry} (h : Ready tree source into slug loc)
    (hl : tree.lookup (loc ++ names) = some entry) : ∀ name ∈ names, IsName name := by
  obtain ⟨hn, front, rfl⟩ := location_of_fileName? h.named h.project
  rw [List.append_assoc, List.singleton_append, ← h.orderly.mem_iff hn] at hl
  exact h.orderly.isName_of_mem hn hl

end Ready

/-! ### What stays as it is -/

/-- All that was there still is, and in the project nothing is new. -/
structure Spares (tree : FileTree) (loc : Location) (s : FileTree) : Prop where
  older : FileTree.Extends tree s
  project : ∀ q, loc <+: q → s.lookup q = tree.lookup q

section Spares

variable {tree s s' : FileTree} {source into slug : String} {loc names : Location} {entry : Entry}

/-- What is copied changes nothing but in the copy and on the way to it. -/
theorem copyEntry_changes (hn : IsName slug) (hnames : ∀ name ∈ names, IsName name)
    (h : copyEntry source (Path.join into slug) s names entry = .ok s') (q : Location) :
    s'.lookup q = s.lookup q ∨ s.Missing (Path.steps into) q ∨
      Path.location into ++ [slug] <+: q := by
  have hbase := Path.isBase_join into hn
  cases entry with
  | folder =>
      have hmade := FileTree.madeAlong_makeFolders s
        (Path.join (Path.join into slug) ("/".intercalate names))
      simp only [copyEntry] at h
      split at h <;> cases h
      rename_i made
      rw [made, Path.steps_join_names hbase hnames, Path.steps_join_name into hn,
        List.append_assoc] at hmade
      exact hmade.on_or_behind q
  | file content =>
      obtain ⟨-, -, -, -, -, -, hothers⟩ := copyFile_eq_ok (mapError_eq_ok_iff.mp h)
      rw [Path.location_join_names hbase hnames, Path.location_join_name into hn] at hothers
      by_cases e : q = Path.location into ++ [slug] ++ names
      · exact .inr (.inr (e ▸ List.prefix_append _ _))
      · exact .inl (hothers q e)

theorem Spares.refl (tree : FileTree) (loc : Location) : Spares tree loc tree where
  older := .refl tree
  project _ _ := rfl

/-- **A step of the copy** spares the project. -/
theorem Ready.spares_copyEntry (hready : Ready tree source into slug loc) (h : Spares tree loc s)
    (hnames : ∀ name ∈ names, IsName name)
    (hc : copyEntry source (Path.join into slug) s names entry = .ok s') : Spares tree loc s' := by
  have hr := hready.orderly.rooted
  -- what is new is new to the first tree, and not in the project
  have new : ∀ q, s'.lookup q = s.lookup q ∨ tree.lookup q = none ∧ ¬ loc <+: q := by
    intro q
    obtain e | ⟨hnone, hway⟩ | hbelow := copyEntry_changes hready.isName hnames hc q
    · exact .inl e
    · have hnone' : tree.lookup q = none := by
        cases hl : tree.lookup q with
        | none => rfl
        | some entry' =>
            rw [h.older q entry' hl] at hnone
            cases hnone
      exact .inr ⟨hnone', (hready.outside.aside q ⟨hnone', hway⟩).1⟩
    · exact .inr ⟨hr.vacant hready.outside.vacant hbelow,
        hready.outside.disjoint hr hready.project.folder hbelow⟩
  constructor
  · intro q entry' hl
    obtain e | ⟨hnone, -⟩ := new q
    · rw [e, h.older q entry' hl]
    · rw [hl] at hnone
      cases hnone
  · intro q hq
    obtain e | ⟨-, hout⟩ := new q
    · rw [e, h.project q hq]
    · exact absurd hq hout

/-- **The whole copy** spares the project. -/
theorem Ready.spares_copyEntries {entries : List (Location × Entry)}
    (hready : Ready tree source into slug loc) (h : Spares tree loc s)
    (hnames : ∀ e ∈ entries, ∀ name ∈ e.1, IsName name)
    (hc : copyEntries source (Path.join into slug) s entries = .ok s') : Spares tree loc s' := by
  induction entries generalizing s with
  | nil =>
      cases hc
      exact h
  | cons e rest ih =>
      obtain ⟨hfirst, hrest⟩ := List.forall_mem_cons.mp hnames
      obtain ⟨next, hnext, hc⟩ := bind_eq_ok_iff.mp hc
      exact ih (hready.spares_copyEntry h hfirst hnext) hrest hc

end Spares

/-! ### What is left out -/

/-- Names lead to a folder for artifacts, or into one. -/
def LeftOut (tree : FileTree) (loc names : Location) : Prop :=
  ∃ front, front ++ [skippedName] <+: names ∧
    tree.lookup (loc ++ (front ++ [skippedName])) = some .folder

/-- An exact copy: it has what the project has, except for what is left out, and the project is as
it was. -/
structure ExactCopy (tree left : FileTree) (loc dest : Location) : Prop where
  copy : ∀ names entry, left.lookup (dest ++ names) = some entry ↔
    tree.lookup (loc ++ names) = some entry ∧ ¬ LeftOut tree loc names
  project : ∀ q, loc <+: q → left.lookup q = tree.lookup q

section Exact

variable {tree left : FileTree} {source into slug : String} {loc names : Location} {entry : Entry}

/-- What the copying leaves out by its names is what lies in folders for artifacts. -/
theorem isSkipped_iff (hr : tree.Rooted) (hl : tree.lookup (loc ++ names) = some entry) :
    isSkipped names entry = true ↔ LeftOut tree loc names := by
  simp only [isSkipped, Bool.or_eq_true, Bool.and_eq_true, beq_iff_eq, List.contains_iff_mem]
  constructor
  · rintro (hmem | ⟨rfl, hlast⟩)
    · obtain ⟨front, rest, hsplit⟩ := List.append_of_mem hmem
      have hne : names ≠ [] := by
        rintro rfl
        cases hmem
      have whole := List.dropLast_append_getLast hne
      rw [hsplit] at whole
      generalize names.getLast hne = last at whole
      subst whole
      have hnames : front ++ skippedName :: rest ++ [last] =
          front ++ [skippedName] ++ (rest ++ [last]) := by simp
      rw [hnames] at hl ⊢
      rw [← List.append_assoc] at hl
      exact ⟨front, List.prefix_append _ _, hr.folder (by simp) hl⟩
    · obtain ⟨front, rfl⟩ := List.getLast?_eq_some_iff.mp hlast
      exact ⟨front, List.prefix_refl _, hl⟩
  · rintro ⟨front, ⟨rest, rfl⟩, hfolder⟩
    by_cases hne : rest = []
    · rw [hne, List.append_nil] at hl ⊢
      rw [hfolder] at hl
      exact .inr ⟨(Option.some.inj hl).symm, List.getLast?_concat⟩
    · rw [List.dropLast_append_of_ne_nil hne]
      exact .inl (by simp)

theorem not_leftOut_nil : ¬ LeftOut tree loc [] := by
  rintro ⟨front, h, -⟩
  exact absurd (List.prefix_nil.mp h) (by simp)

/-- What is wanted is what is there and not left out. -/
theorem wanted_iff (hr : tree.Rooted) : Wanted tree loc names entry ↔
    tree.lookup (loc ++ names) = some entry ∧ ¬ LeftOut tree loc names := by
  refine and_congr_right fun hl => ?_
  rw [← isSkipped_iff hr hl, Bool.not_eq_true]

/-- A mirrored project that was spared is copied exactly. -/
theorem Mirrors.exactCopy {target : String} (h : Mirrors tree left source target loc)
    (hr : tree.Rooted) (hs : Spares tree loc left) :
    ExactCopy tree left loc (Path.location target) where
  copy names entry := by
    rw [h.lookup_eq_some]
    split
    · rename_i hnil
      rw [hnil, List.append_nil, h.project.folder, Option.some_inj, eq_comm]
      exact (and_iff_left not_leftOut_nil).symm
    · exact wanted_iff hr
  project := hs.project

/-- **An exact copy is made** by copying the folder of the project first, and then all that is
wanted of what is in it, in any order. -/
theorem Ready.exactCopy {entries : List (Location × Entry)}
    (hready : Ready tree source into slug loc)
    (hall : ∀ names entry, (names, entry) ∈ entries ↔ names ≠ [] ∧ Wanted tree loc names entry)
    (h : copyEntries source (Path.join into slug) tree (([], .folder) :: entries) = .ok left) :
    ExactCopy tree left loc (Path.location into ++ [slug]) := by
  obtain ⟨hn, front, rfl⟩ := location_of_fileName? hready.named hready.project
  have hr := hready.orderly.rooted
  have hnames : ∀ e ∈ ([], Entry.folder) :: entries, ∀ name ∈ e.1, IsName name := by
    exact List.forall_mem_cons.mpr ⟨nofun, fun e he =>
      hready.isName_of_lookup ((hall e.1 e.2).mp he).2.1⟩
  have hspares := hready.spares_copyEntries (.refl tree _) hnames h
  obtain ⟨made, hmade, hcopy⟩ := bind_eq_ok_iff.mp h
  have hmirrors := hready.setting.mirrors hready.orderly hn hall hmade hcopy
  rw [← Path.location_join_name into hn]
  exact hmirrors.exactCopy hr hspares

/-- To copy a project is to copy its folder, and then all that is copied of what is in it. -/
theorem Ready.run_eq (hready : Ready tree source into slug loc) :
    run tree source into = (copyEntries source (Path.join into slug) tree
      (([], .folder) :: copied tree loc)).map (·, slug) := by
  obtain ⟨hv, hw, hl⟩ := hready.project
  have hentry : tree.entryAt source = .ok .folder := by
    rw [FileTree.entryAt_of_walk hv hw, hl]
  have hloc : tree.locate source = .ok loc := by
    simp only [FileTree.locate, hv, hw, bind, Except.bind, hl]
    cases FileTree.endsInFolder source <;> rfl
  simp only [run, hready.named, hentry, hloc]
  cases hmade : copyEntry source (Path.join into slug) tree [] .folder with
  | error fault =>
      rw [copyEntries, hmade]
      rfl
  | ok made =>
      rw [copyEntries, hmade]
      show _ = (copyEntries source (Path.join into slug) made (copied tree loc)).map (·, slug)
      cases hcopy : copyEntries source (Path.join into slug) made (copied tree loc) <;>
        simp only [bind, Except.bind, Except.mapError, hcopy] <;> rfl

/-- **A copy that succeeds is exact**, and it has the name of the project. -/
theorem Ready.exactCopy_of_run {name : String} (hready : Ready tree source into slug loc)
    (h : run tree source into = .ok (left, name)) :
    name = slug ∧ ExactCopy tree left loc (Path.location into ++ [slug]) := by
  rw [hready.run_eq] at h
  obtain ⟨_, hcopy, e⟩ := map_eq_ok_iff.mp h
  cases e
  refine ⟨rfl, hready.exactCopy (fun names entry => ?_) hcopy⟩
  obtain ⟨hn, front, rfl⟩ := location_of_fileName? hready.named hready.project
  exact mem_copied hready.orderly hn

/-- Where entries cannot be copied, those before the first that cannot be copied were. -/
theorem exists_of_copyEntries_error {s : FileTree} {target : String} {fault : CopyFault}
    {entries : List (Location × Entry)}
    (h : copyEntries source target s entries = .error fault) :
    ∃ before names entry after t, entries = before ++ (names, entry) :: after ∧
      copyEntries source target s before = .ok t ∧
      copyEntry source target t names entry = .error fault := by
  induction entries generalizing s with
  | nil => cases h
  | cons e rest ih =>
      obtain hfirst | ⟨next, hnext, hrest⟩ := bind_eq_error_iff.mp h
      · exact ⟨[], e.1, e.2, rest, s, rfl, rfl, hfirst⟩
      · obtain ⟨before, names, entry, after, t, rfl, hbefore, hfault⟩ := ih hrest
        exact ⟨e :: before, names, entry, after, t, rfl, bind_eq_ok_iff.mpr ⟨next, hnext, hbefore⟩,
          hfault⟩

/-- **A copy that fails** does so at an entry that is to be copied, and the project is spared. -/
theorem Ready.fault_of_run {fault : CopyFault} (hready : Ready tree source into slug loc)
    (h : run tree source into = .error fault) : ∃ names entry t,
      ((names, entry) = ([], .folder) ∨ (names, entry) ∈ copied tree loc) ∧ Spares tree loc t ∧
        copyEntry source (Path.join into slug) t names entry = .error fault := by
  rw [hready.run_eq] at h
  obtain ⟨before, names, entry, after, t, hentries, hbefore, hfault⟩ :=
    exists_of_copyEntries_error (map_eq_error_iff.mp h)
  obtain ⟨hn, front, rfl⟩ := location_of_fileName? hready.named hready.project
  have hmem : ∀ e ∈ before ++ (names, entry) :: after,
      e = ([], .folder) ∨ e ∈ copied tree (front ++ [slug]) := by
    rw [← hentries]
    exact fun e => List.mem_cons.mp
  refine ⟨names, entry, t, hmem _ (by simp), ?_, hfault⟩
  refine hready.spares_copyEntries (.refl tree _) (fun e he => ?_) hbefore
  obtain rfl | hcopied := hmem e (List.mem_append_left _ he)
  · exact nofun
  · exact hready.isName_of_lookup ((mem_copied hready.orderly hn).mp hcopied).2.1

end Exact

end ProjectCopy

end Dialogue
