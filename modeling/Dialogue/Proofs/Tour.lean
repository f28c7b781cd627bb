import Dialogue.Proofs.Mirror

/-!
# Tours of a project

What is in a project is found out while it is copied: a tour begins with the folder of the project,
an entry that it comes to is copied at once, and what lies in a folder is looked up only then
(`ProjectCopy.Tour.Next`).  No order is given apart from that.  Folders for artifacts are passed
over, and so is all that lies in them, as nothing leads there any more.

The project stays as it is, so a tour always finds what was there at the beginning.  What it has
copied and what it will come to by way of what is pending are together all that is to be copied,
each entry once (`ProjectCopy.Sound`), and of what is pending there is always less.  So every tour
ends, with a fault or with an exact copy (`ProjectCopy.copies_exactly`).
-/

namespace Dialogue

namespace FileTree

/-- A folder and all it holds, at the names below it. -/
def within (t : FileTree) (loc : Location) : List (Location × Entry) := ([], .folder) :: t.below loc

/-- An entry of a folder and all that is held by it. -/
def share (t : FileTree) (loc : Location) (e : Location × Entry) : List (Location × Entry) :=
  (t.within loc).filter (e.1.isPrefixOf ·.1)

theorem mem_share {t : FileTree} {loc : Location} {e other : Location × Entry} :
    other ∈ t.share loc e ↔ other ∈ t.within loc ∧ e.1 <+: other.1 := by
  rw [share, List.mem_filter, List.isPrefixOf_iff_prefix]

theorem nodup_below {t : FileTree} {loc : Location} (h : t.entries.Nodup) :
    (t.below loc).Nodup := by
  refine List.Nodup.filterMap (fun e e' below hb hb' => ?_) h
  -- where an entry lies can be told from its names below the folder
  have origin : ∀ e : Location × Entry, (if loc.isPrefixOf e.1 && e.1.length != loc.length then
      some (e.1.drop loc.length, e.2) else none) = some below → e = (loc ++ below.1, below.2) := by
    rintro ⟨q, entry⟩ hb
    simp only [Option.ite_none_right_eq_some, Bool.and_eq_true, List.isPrefixOf_iff_prefix,
      Option.some.injEq] at hb
    obtain ⟨⟨⟨rest, rfl⟩, -⟩, rfl⟩ := hb
    rw [List.drop_append_length]
  exact (origin e hb).trans (origin e' hb').symm

end FileTree

namespace ProjectCopy

/-! ### Steps of a tour -/

/-- A folder that is not entered, by its own name. -/
def passesOver (names : Location) (entry : Entry) : Bool :=
  entry == .folder && names.getLast? == some skippedName

/-- What is found in an entry: each entry of a folder once, in whatever order, in a file nothing. -/
structure Finds (t : FileTree) (loc names : Location) (entry : Entry)
    (found : List (Location × Entry)) : Prop where
  once : found.Nodup
  all : ∀ e, e ∈ found ↔
    entry = .folder ∧ ∃ name, e.1 = names ++ [name] ∧ t.lookup (loc ++ e.1) = some e.2

/-- How far a tour has come. -/
structure Tour where
  tree : FileTree
  /-- what was found and is still to be gone to -/
  pending : List (Location × Entry)
  /-- what has been copied -/
  visited : List (Location × Entry) := []

namespace Tour

def start (tree : FileTree) : Tour := ⟨tree, [([], .folder)], []⟩

/-- A tour goes to anything that is pending. -/
inductive Next (source target : String) (loc : Location) : Tour → Tour → Prop where
  | passOver {tree : FileTree} {before after visited : List (Location × Entry)}
      {names : Location} {entry : Entry} (passed : passesOver names entry = true) :
      Next source target loc ⟨tree, before ++ (names, entry) :: after, visited⟩
        ⟨tree, before ++ after, visited⟩
  | visit {tree tree' : FileTree} {before after found visited : List (Location × Entry)}
      {names : Location} {entry : Entry} (entered : passesOver names entry = false)
      (copy : copyEntry source target tree names entry = .ok tree')
      (finds : Finds tree' loc names entry found) :
      Next source target loc ⟨tree, before ++ (names, entry) :: after, visited⟩
        ⟨tree', before ++ found ++ after, visited ++ [(names, entry)]⟩

/-- Something that is pending cannot be copied. -/
def Fails (source target : String) (s : Tour) : Prop :=
  ∃ names entry fault, (names, entry) ∈ s.pending ∧ passesOver names entry = false ∧
    copyEntry source target s.tree names entry = .error fault

/-- The tour of a tree after so many steps. -/
inductive After (source target : String) (loc : Location) (tree : FileTree) :
    Nat → Tour → Prop where
  | start : After source target loc tree 0 (.start tree)
  | next {n : Nat} {s s' : Tour} (before : After source target loc tree n s)
      (step : Next source target loc s s') : After source target loc tree (n + 1) s'

end Tour

/-! ### What is found -/

section Found

variable {tree : FileTree} {source into slug : String} {loc names : Location} {entry : Entry}
  {found : List (Location × Entry)} {e : Location × Entry}

theorem Finds.congr {t t' : FileTree} (h : Finds t' loc names entry found)
    (hsame : ∀ q, loc <+: q → t'.lookup q = t.lookup q) : Finds t loc names entry found where
  once := h.once
  all e := by rw [h.all e, hsame _ (List.prefix_append loc e.1)]

theorem Ready.mem_within (h : Ready tree source into slug loc) :
    e ∈ tree.within loc ↔ tree.lookup (loc ++ e.1) = some e.2 := by
  obtain ⟨hn, front, rfl⟩ := location_of_fileName? h.named h.project
  obtain ⟨names, entry⟩ := e
  rw [FileTree.within, List.mem_cons, FileTree.mem_below]
  by_cases hne : names = []
  · subst hne
    rw [List.append_nil, h.project.folder]
    simp [eq_comm]
  · rw [List.append_assoc, List.singleton_append, h.orderly.mem_iff hn]
    simp [hne]

theorem Ready.nodup_within (h : Ready tree source into slug loc) : (tree.within loc).Nodup := by
  refine List.nodup_cons.mpr ⟨fun hmem => (FileTree.mem_below.mp hmem).1 rfl, ?_⟩
  exact FileTree.nodup_below (List.Nodup.of_map _ h.orderly.distinct)

theorem Ready.nodup_share (h : Ready tree source into slug loc) : (tree.share loc e).Nodup :=
  h.nodup_within.filter _

/-- What is found lies one name below. -/
theorem Finds.below (h : Finds tree loc names entry found) (he : e ∈ found) :
    ∃ name, e.1 = names ++ [name] ∧ tree.lookup (loc ++ e.1) = some e.2 := ((h.all e).mp he).2

/-- No two of the contents of a folder hold the same. -/
theorem Ready.nodup_flatMap_share (h : Ready tree source into slug loc)
    (hf : Finds tree loc names entry found) : (found.flatMap (tree.share loc)).Nodup := by
  refine List.nodup_flatMap.mpr ⟨fun e _ => h.nodup_share, ?_⟩
  -- what lies below two of them has both their names at the same place
  refine hf.once.pairwise_of_forall_ne fun e he e' he' hne other hmem hmem' => hne ?_
  obtain ⟨name, hname, hthere⟩ := hf.below he
  obtain ⟨name', hname', hthere'⟩ := hf.below he'
  have hlen : e.1.length = e'.1.length := by simp [hname, hname']
  have hnames : e.1 = e'.1 :=
    (List.prefix_of_prefix_length_le (FileTree.mem_share.mp hmem).2
      (FileTree.mem_share.mp hmem').2 hlen.le).eq_of_length hlen
  rw [hnames, hthere'] at hthere
  exact Prod.ext hnames (Option.some.inj hthere).symm

/-- What lies below a folder is held by one of its contents. -/
theorem Ready.mem_flatMap_share (h : Ready tree source into slug loc)
    (hl : tree.lookup (loc ++ names) = some entry) (hf : Finds tree loc names entry found) :
    e ∈ found.flatMap (tree.share loc) ↔
      ∃ name rest, e.1 = names ++ name :: rest ∧ tree.lookup (loc ++ e.1) = some e.2 := by
  have hr := h.orderly.rooted
  rw [List.mem_flatMap]
  constructor
  · rintro ⟨first, hfirst, hmem⟩
    obtain ⟨name, hname, -⟩ := hf.below hfirst
    obtain ⟨hmem, rest, hrest⟩ := FileTree.mem_share.mp hmem
    refine ⟨name, rest, ?_, h.mem_within.mp hmem⟩
    rw [← hrest, hname, List.append_assoc, List.singleton_append]
  · obtain ⟨other, entry'⟩ := e
    rintro ⟨name, rest, rfl, hthere⟩
    have hmem := h.mem_within.mpr hthere
    have hway : names ++ [name] <+: names ++ name :: rest := ⟨rest, by simp⟩
    -- there is something at the first name on the way, and so the entry is a folder
    cases hfirst : tree.lookup (loc ++ (names ++ [name])) with
    | none =>
        rw [hr.vacant hfirst ((List.prefix_append_right_inj loc).mpr hway)] at hthere
        cases hthere
    | some first =>
        dsimp only at hthere
        rw [← List.append_assoc] at hthere
        rw [hr.folder (List.cons_ne_nil _ _) hthere] at hl
        exact ⟨(names ++ [name], first),
          (hf.all _).mpr ⟨(Option.some.inj hl).symm, name, rfl, hfirst⟩,
          FileTree.mem_share.mpr ⟨hmem, hway⟩⟩

/-- An entry and all it holds is the entry, and then all that its contents hold. -/
theorem Ready.share_perm (h : Ready tree source into slug loc)
    (hl : tree.lookup (loc ++ names) = some entry) (hf : Finds tree loc names entry found) :
    (tree.share loc (names, entry)).Perm ((names, entry) :: found.flatMap (tree.share loc)) := by
  have hnew : (names, entry) ∉ found.flatMap (tree.share loc) := by
    rw [h.mem_flatMap_share hl hf]
    rintro ⟨name, rest, e, -⟩
    exact absurd e (by simp)
  refine (List.perm_ext_iff_of_nodup h.nodup_share
    (List.nodup_cons.mpr ⟨hnew, h.nodup_flatMap_share hf⟩)).mpr ?_
  rintro ⟨other, entry'⟩
  rw [FileTree.mem_share, h.mem_within, List.mem_cons, h.mem_flatMap_share hl hf]
  constructor
  · rintro ⟨hthere, rest, rfl⟩
    cases rest with
    | nil =>
        rw [List.append_nil, hl] at hthere
        exact .inl (by simp [Option.some.inj hthere])
    | cons name rest => exact .inr ⟨name, rest, rfl, hthere⟩
  · rintro (e | ⟨name, rest, rfl, hthere⟩)
    · cases e
      exact ⟨hl, List.prefix_refl _⟩
    · exact ⟨hthere, List.prefix_append _ _⟩

end Found

/-! ### What a tour comes to -/

/-- What is to be copied of an entry and all it holds. -/
def dueOf (tree : FileTree) (loc : Location) (e : Location × Entry) : List (Location × Entry) :=
  (tree.share loc e).filter fun e => !isSkipped e.1 e.2

/-- **A tour goes on as it should**: what it has copied led to the tree it has, and what it has
copied and what it will come to are all that is to be copied, each entry once. -/
structure Sound (tree : FileTree) (source target : String) (loc : Location) (s : Tour) : Prop where
  led : copyEntries source target tree s.visited = .ok s.tree
  begins : s = .start tree ∨ ∃ rest, s.visited = ([], .folder) :: rest
  there : ∀ e ∈ s.pending, tree.lookup (loc ++ e.1) = some e.2 ∧ skippedName ∉ e.1.dropLast
  whole : (s.visited ++ s.pending.flatMap (dueOf tree loc)).Perm (dueOf tree loc ([], .folder))

/-- How much there is in what is pending. -/
def Tour.size (tree : FileTree) (loc : Location) (s : Tour) : Nat :=
  (s.pending.flatMap (tree.share loc)).length

section Sound

variable {tree t : FileTree} {source into target slug : String} {loc names : Location}
  {entry : Entry} {before after found visited : List (Location × Entry)} {s s' : Tour}

/-- In a folder that is passed over, all is left out. -/
theorem Ready.dueOf_of_passesOver (h : Ready tree source into slug loc)
    (hl : tree.lookup (loc ++ names) = some entry) (passed : passesOver names entry = true) :
    dueOf tree loc (names, entry) = [] := by
  rw [passesOver, Bool.and_eq_true, beq_iff_eq, beq_iff_eq, List.getLast?_eq_some_iff] at passed
  obtain ⟨rfl, front, rfl⟩ := passed
  refine List.filter_eq_nil_iff.mpr fun other hmem => ?_
  obtain ⟨hmem, hbelow⟩ := FileTree.mem_share.mp hmem
  rw [(isSkipped_iff h.orderly.rooted (h.mem_within.mp hmem)).mpr ⟨front, hbelow, hl⟩]
  exact Bool.false_ne_true

theorem isSkipped_of_entered (hkept : skippedName ∉ names.dropLast)
    (entered : passesOver names entry = false) : isSkipped names entry = false := by
  rw [isSkipped, ← passesOver, entered, Bool.or_false]
  simpa using hkept

/-- Of an entry that is copied, it is due, and all that is due of its contents. -/
theorem Ready.dueOf_perm (h : Ready tree source into slug loc)
    (hl : tree.lookup (loc ++ names) = some entry) (hf : Finds tree loc names entry found)
    (hkept : isSkipped names entry = false) :
    (dueOf tree loc (names, entry)).Perm ((names, entry) :: found.flatMap (dueOf tree loc)) := by
  have hperm := (h.share_perm hl hf).filter fun e => !isSkipped e.1 e.2
  rwa [List.filter_cons_of_pos (by simp [hkept]), List.filter_flatMap] at hperm

theorem not_mem_of_isSkipped (h : isSkipped names .folder = false) : skippedName ∉ names := by
  obtain rfl | ⟨front, last, rfl⟩ := List.eq_nil_or_concat names
  · exact List.not_mem_nil
  · obtain ⟨hfront, hlast⟩ : skippedName ∉ front ∧ last ≠ skippedName := by
      simpa [isSkipped] using h
    simp [hfront, hlast.symm]

/-- What is found in a folder that is copied lies in no folder that is left out. -/
theorem Finds.kept (hf : Finds tree loc names entry found) (hkept : isSkipped names entry = false) :
    ∀ e ∈ found, tree.lookup (loc ++ e.1) = some e.2 ∧ skippedName ∉ e.1.dropLast := by
  intro e he
  obtain ⟨rfl, name, hname, hthere⟩ := (hf.all e).mp he
  rw [hname, List.dropLast_concat]
  exact ⟨hname ▸ hthere, not_mem_of_isSkipped hkept⟩

/-- An entry that is replaced by what comes of it, itself and all that its contents come to. -/
theorem perm_replace {α : Type} {f : α → List α} {e : α} {before after found visited : List α}
    (he : (f e).Perm (e :: found.flatMap f)) :
    (visited ++ (before ++ e :: after).flatMap f).Perm
      (visited ++ [e] ++ (before ++ found ++ after).flatMap f) := by
  have split : (before ++ e :: after).flatMap f =
      before.flatMap f ++ (f e ++ after.flatMap f) := by simp
  have first : visited ++ [e] ++ (before ++ found ++ after).flatMap f =
      visited ++ e :: (before.flatMap f ++ (found.flatMap f ++ after.flatMap f)) := by simp
  rw [split, first]
  refine List.Perm.append_left visited ?_
  exact (List.Perm.append_left _ (he.append_right _)).trans List.perm_middle

theorem copyEntries_concat (hcopy : copyEntries source target tree visited = .ok t) {t' : FileTree}
    (h : copyEntry source target t names entry = .ok t') :
    copyEntries source target tree (visited ++ [(names, entry)]) = .ok t' := by
  induction visited generalizing tree with
  | nil =>
      cases hcopy
      exact bind_eq_ok_iff.mpr ⟨t', h, rfl⟩
  | cons e rest ih =>
      obtain ⟨next, hnext, hcopy⟩ := bind_eq_ok_iff.mp hcopy
      exact bind_eq_ok_iff.mpr ⟨next, hnext, ih hcopy⟩

theorem Ready.sound_start (h : Ready tree source into slug loc) :
    Sound tree source target loc (.start tree) where
  led := rfl
  begins := .inl rfl
  there e he := by
    rw [List.mem_singleton.mp he, List.append_nil]
    exact ⟨h.project.folder, List.not_mem_nil⟩
  whole := by simp [Tour.start]

/-- A tour that has come anywhere has spared the project. -/
theorem Sound.spares (h : Sound tree source (Path.join into slug) loc s)
    (hready : Ready tree source into slug loc) : Spares tree loc s.tree := by
  refine hready.spares_copyEntries (.refl tree loc) (fun e he => ?_) h.led
  have hdue := h.whole.subset (List.mem_append_left _ he)
  have hmem := (FileTree.mem_share.mp (List.mem_filter.mp hdue).1).1
  exact hready.isName_of_lookup (hready.mem_within.mp hmem)

/-- A tour begins with the folder of the project: nothing else is pending, and it is entered. -/
theorem eq_root_of_start {tree' : FileTree}
    (h : Tour.mk tree' (before ++ (names, entry) :: after) visited = .start tree) :
    names = [] ∧ entry = .folder ∧ visited = [] := by
  injection h with _ hpending hvisited
  obtain ⟨-, he⟩ | ⟨-, he⟩ := List.append_eq_singleton_iff.mp hpending
  · cases he
    exact ⟨rfl, rfl, hvisited⟩
  · cases he

theorem Sound.passOver (hready : Ready tree source into slug loc)
    (h : Sound tree source target loc ⟨t, before ++ (names, entry) :: after, visited⟩)
    (passed : passesOver names entry = true) :
    Sound tree source target loc ⟨t, before ++ after, visited⟩ := by
  have hmem : (names, entry) ∈ before ++ (names, entry) :: after := by simp
  refine ⟨h.led, ?_, fun e he => h.there e ?_, ?_⟩
  · obtain hstart | hlater := h.begins
    · obtain ⟨rfl, rfl, -⟩ := eq_root_of_start hstart
      cases passed
    · exact .inr hlater
  · exact ((List.Sublist.refl before).append (List.sublist_cons_self _ after)).subset he
  · have hwhole := h.whole
    simp only [List.flatMap_append, List.flatMap_cons,
      hready.dueOf_of_passesOver (h.there _ hmem).1 passed, List.nil_append] at hwhole
    rwa [List.flatMap_append]

theorem Sound.visit {t' : FileTree} (hready : Ready tree source into slug loc)
    (h : Sound tree source target loc ⟨t, before ++ (names, entry) :: after, visited⟩)
    (entered : passesOver names entry = false)
    (copy : copyEntry source target t names entry = .ok t')
    (finds : Finds tree loc names entry found) :
    Sound tree source target loc ⟨t', before ++ found ++ after, visited ++ [(names, entry)]⟩ := by
  have hmem : (names, entry) ∈ before ++ (names, entry) :: after := by simp
  obtain ⟨hthere, hkept⟩ := h.there _ hmem
  have hcopied := isSkipped_of_entered hkept entered
  refine ⟨copyEntries_concat h.led copy, ?_, fun e he => ?_, ?_⟩
  · obtain hstart | ⟨rest, hrest⟩ := h.begins
    · obtain ⟨rfl, rfl, rfl⟩ := eq_root_of_start hstart
      exact .inr ⟨[], rfl⟩
    · dsimp only at hrest
      exact .inr ⟨rest ++ [(names, entry)], by rw [hrest]; rfl⟩
  · rw [List.append_assoc, List.mem_append, List.mem_append] at he
    obtain he | he | he := he
    · exact h.there e (List.mem_append_left _ he)
    · exact finds.kept hcopied e he
    · exact h.there e (List.mem_append_right _ (List.mem_cons_of_mem _ he))
  · exact (perm_replace (hready.dueOf_perm hthere finds hcopied)).symm.trans h.whole

/-- **A step of a tour** goes on as it should, and leaves less to be gone to. -/
theorem Sound.next (hready : Ready tree source into slug loc)
    (h : Sound tree source (Path.join into slug) loc s)
    (hstep : s.Next source (Path.join into slug) loc s') :
    Sound tree source (Path.join into slug) loc s' ∧ s'.size tree loc < s.size tree loc := by
  cases hstep with
  | @passOver t before after visited names entry passed =>
      refine ⟨h.passOver hready passed, ?_⟩
      obtain ⟨hthere, -⟩ := h.there (names, entry) (by simp)
      have hself : (names, entry) ∈ tree.share loc (names, entry) :=
        FileTree.mem_share.mpr ⟨hready.mem_within.mpr hthere, List.prefix_refl _⟩
      have hpos := List.length_pos_of_mem hself
      simp only [Tour.size, List.flatMap_append, List.flatMap_cons, List.length_append]
      omega
  | @visit t t' before after found visited names entry entered copy finds =>
      obtain ⟨hthere, -⟩ := h.there (names, entry) (by simp)
      have hnext := hready.spares_copyEntry (h.spares hready) (hready.isName_of_lookup hthere) copy
      -- the project was spared, so what is found now was there at the beginning
      have finds := finds.congr hnext.project
      refine ⟨h.visit hready entered copy finds, ?_⟩
      have hlen := (hready.share_perm hthere finds).length_eq
      simp only [Tour.size, List.flatMap_append, List.flatMap_cons, List.length_append,
        List.length_cons] at hlen ⊢
      omega

/-- Whatever an entry is, what is in it can be found. -/
theorem Ready.exists_finds (hready : Ready tree source into slug loc) (names : Location)
    (entry : Entry) : ∃ found, Finds tree loc names entry found := by
  classical
  refine ⟨(tree.within loc).filter fun e => entry = .folder ∧ ∃ name, e.1 = names ++ [name],
    hready.nodup_within.filter _, fun e => ?_⟩
  rw [List.mem_filter, hready.mem_within, decide_eq_true_iff]
  constructor
  · rintro ⟨hthere, hfolder, name, hname⟩
    exact ⟨hfolder, name, hname, hthere⟩
  · rintro ⟨hfolder, name, hname, hthere⟩
    exact ⟨hthere, hfolder, name, hname⟩

/-- **A tour goes on** until nothing is pending, unless something cannot be copied. -/
theorem Sound.progress (hready : Ready tree source into slug loc)
    (h : Sound tree source (Path.join into slug) loc s) :
    s.pending = [] ∨ s.Fails source (Path.join into slug) ∨
      ∃ s', s.Next source (Path.join into slug) loc s' := by
  obtain ⟨t, pending, visited⟩ := s
  cases pending with
  | nil => exact .inl rfl
  | cons e after =>
      obtain ⟨names, entry⟩ := e
      -- the first of what is pending will do
      have head : (names, entry) :: after = [] ++ (names, entry) :: after := rfl
      rw [head] at h ⊢
      refine .inr ?_
      cases entered : passesOver names entry with
      | true => exact .inr ⟨_, .passOver entered⟩
      | false =>
          cases copy : copyEntry source (Path.join into slug) t names entry with
          | error fault => exact .inl ⟨names, entry, fault, List.mem_cons_self, entered, copy⟩
          | ok t' =>
              have hnames := hready.isName_of_lookup (h.there (names, entry) List.mem_cons_self).1
              have hnext := hready.spares_copyEntry (h.spares hready) hnames copy
              obtain ⟨found, finds⟩ := hready.exists_finds names entry
              exact .inr ⟨_, .visit entered copy
                (finds.congr fun q hq => (hnext.project q hq).symm)⟩

/-- A tour is over when it has come to all that is copied. -/
theorem Sound.visited_of_pending_nil (h : Sound tree source target loc s) (hdone : s.pending = []) :
    ∃ rest, s.visited = ([], .folder) :: rest ∧ rest.Perm (copied tree loc) := by
  obtain hstart | ⟨rest, hrest⟩ := h.begins
  · rw [hstart] at hdone
    cases hdone
  · refine ⟨rest, hrest, ?_⟩
    have hwhole := h.whole
    have hall : dueOf tree loc ([], .folder) =
        ([], .folder) :: (tree.below loc).filter fun e => !isSkipped e.1 e.2 := by
      have hkept : isSkipped [] .folder = false := rfl
      rw [dueOf, FileTree.share, FileTree.within]
      simp [hkept]
    rw [hdone, List.flatMap_nil, List.append_nil, hrest, hall] at hwhole
    exact hwhole.cons_inv.trans (List.filter_append_perm _ _).symm

end Sound

/-! ### Every tour -/

section Tours

variable {tree left : FileTree} {source into slug : String} {loc : Location} {n : Nat} {s : Tour}

/-- **Whatever the tour**, it goes on as it should, and there are no more steps than entries. -/
theorem Tour.After.sound (h : Tour.After source (Path.join into slug) loc tree n s)
    (hready : Ready tree source into slug loc) :
    Sound tree source (Path.join into slug) loc s ∧
      n + s.size tree loc ≤ (tree.below loc).length + 1 := by
  induction h with
  | start =>
      refine ⟨hready.sound_start, ?_⟩
      simp [Tour.size, Tour.start, FileTree.share, FileTree.within]
  | next _ step ih =>
      obtain ⟨hsound, hsize⟩ := ih
      obtain ⟨hnext, hless⟩ := hsound.next hready step
      exact ⟨hnext, by omega⟩

/-- **A project is copied exactly**, in whatever order it is gone through.  Every tour ends after
at most as many steps as there are entries, and on the way the project stays as it is.  If nothing
fails, an exact copy is left, with the name of the project; and what fails is to copy an entry. -/
theorem copies_exactly (hready : Ready tree source into slug loc) :
    (∀ n s, Tour.After source (Path.join into slug) loc tree n s →
      n ≤ (tree.below loc).length + 1 ∧ (∀ q, loc <+: q → s.tree.lookup q = tree.lookup q) ∧
      (s.pending = [] ∨ s.Fails source (Path.join into slug) ∨
        ∃ s', s.Next source (Path.join into slug) loc s') ∧
      (s.pending = [] →
        (∃ rest, s.visited = ([], .folder) :: rest ∧ rest.Perm (copied tree loc)) ∧
          ExactCopy tree s.tree loc (Path.location into ++ [slug]))) ∧
    (∀ left name, run tree source into = .ok (left, name) →
      name = slug ∧ ExactCopy tree left loc (Path.location into ++ [slug])) ∧
    ∀ fault, run tree source into = .error fault → ∃ names entry t,
      ((names, entry) = ([], .folder) ∨ (names, entry) ∈ copied tree loc) ∧ Spares tree loc t ∧
        copyEntry source (Path.join into slug) t names entry = .error fault := by
  refine ⟨fun n s h => ?_, fun left name => hready.exactCopy_of_run, fun fault =>
    hready.fault_of_run⟩
  obtain ⟨hsound, hsize⟩ := h.sound hready
  refine ⟨by omega, (hsound.spares hready).project, hsound.progress hready, fun hdone => ?_⟩
  obtain ⟨rest, hvisited, hperm⟩ := hsound.visited_of_pending_nil hdone
  refine ⟨⟨rest, hvisited, hperm⟩, hready.exactCopy (fun names entry => ?_)
    (hvisited ▸ hsound.led)⟩
  obtain ⟨hn, front, rfl⟩ := location_of_fileName? hready.named hready.project
  rw [hperm.mem_iff, mem_copied hready.orderly hn]

/-- A project that is named as the folders for artifacts are, as are a file and a folder in it. -/
def namesakes : FileTree :=
  ⟨[(["projects"], .folder), (["projects", "generated"], .folder),
    (["projects", "generated", "empty"], .folder), (["projects", "generated", "notes"], .folder),
    (["projects", "generated", "notes", "generated"], .file (.text "a note")),
    (["projects", "generated", "generated"], .folder),
    (["projects", "generated", "generated", "main.json"], .file (.text "an artifact"))]⟩

/-- Of these names, only the folder in the project is left out.  The folder for the copy may be
missing, as here, or it may be there, as the working folder is. -/
theorem copies_exactly_namesakes :
    let loc := ["projects", "generated"]
    let dest := ["out", "generated"]
    Ready namesakes "projects/generated" "." "generated" loc ∧
      Ready namesakes "projects/generated" "out" "generated" loc ∧
      ∃ left, run namesakes "projects/generated" "out" = .ok (left, "generated") ∧
        ExactCopy namesakes left loc dest ∧
        left.below dest = [(["empty"], .folder), (["notes"], .folder),
          (["notes", "generated"], .file (.text "a note"))] := by
  intro loc dest
  have ready : ∀ into, Outside namesakes loc into "generated" →
      Ready namesakes "projects/generated" into "generated" loc := fun into hout =>
    ⟨by decide +kernel, by decide +kernel,
      ⟨by decide +kernel, by decide +kernel, by decide +kernel⟩, hout⟩
  have hthere : namesakes.FolderAt "." [] :=
    ⟨by decide +kernel, by decide +kernel, by decide +kernel⟩
  have hsteps : Path.steps "out" = ["out"].map .down := by decide +kernel
  have hready := ready "out" (.of_downs hsteps (by decide) (by decide +kernel))
  have ran : (run namesakes "projects/generated" "out").toOption.map
      (fun copy => (copy.2, copy.1.below dest)) = some ("generated",
        [(["empty"], .folder), (["notes"], .folder),
          (["notes", "generated"], .file (.text "a note"))]) := by
    decide +kernel
  obtain ⟨⟨left, name⟩, hrun, hleft⟩ := Option.map_eq_some_iff.mp ran
  have hrun := toOption_eq_some_iff.mp hrun
  obtain ⟨rfl, hbelow⟩ := Prod.mk.inj hleft
  have hdest : Path.location "out" ++ ["generated"] = dest := by decide +kernel
  have hexact := ((copies_exactly hready).2.1 left _ hrun).2
  rw [hdest] at hexact
  exact ⟨ready "." (.of_folder hthere (by decide) (by decide +kernel)), hready, left, hrun, hexact,
    hbelow⟩

end Tours

end ProjectCopy

end Dialogue
