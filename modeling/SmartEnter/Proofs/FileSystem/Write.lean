/-
# A file that is written

A path leads somewhere if all directories on its way are there (`Tree.Passes`), and then what stands
at it depends on its place alone (`Tree.walk_eq_ok_iff`).

A file can be written where there is a file, or where there is nothing in a directory (`Tree.Open`).
Writing it makes no directory that was not there before, and it blocks no way, so all paths lead
where they led.  The file is then read as it was written, and nothing changes at any other place
(`Tree.updates_write`).

Two paths may lead to the same place by different ways, as `a/../b` and `b` do.  So what is written
at one path may be read at another one, and "another place" is said of places, not of paths.  A
directory of a tree is there because it is listed, because a file or a directory is inside it, or
because it is above where the paths start; the last is why a place is taken with the parts that lead
up in front (`Path.UpFirst`).

Only trees are said anything of here.  Other file systems may have locked files, or fail for reasons
of their own.
-/
import SmartEnter.FileSystem
import Mathlib.Data.List.Basic

namespace SmartEnter

variable {t : Tree} {p q place : Path} {part : List Char} {parts rest : List (List Char)}
  {bytes : List UInt8} {e : Entry}

/-! ## 1. Places

A path that was read may go up anywhere.  A place is where such a path leads, and it goes up only at
its start, if at all. -/

/-- Parts that lead up come before all others, as in a place that a path leads to.  Behind a name
they would have been taken together with it. -/
def Path.UpFirst (place : Path) : Prop := place.parts.Pairwise fun a b => b = Path.up → a = Path.up

theorem Path.UpFirst.all_up (h : place.UpFirst) (hlast : place.parts.getLastD Path.up = Path.up) :
    ∀ a ∈ place.parts, a = Path.up := by
  unfold Path.UpFirst at h
  rcases List.eq_nil_or_concat place.parts with hnil | ⟨init, last, heq⟩
  · simp [hnil]
  · rw [heq, List.concat_eq_append] at h hlast ⊢
    rw [List.getLastD_concat] at hlast
    subst hlast
    rw [List.pairwise_append] at h
    intro a ha
    rcases List.mem_append.1 ha with ha | ha
    · exact h.2.2 a ha Path.up (List.mem_singleton_self Path.up) rfl
    · exact List.mem_singleton.1 ha

theorem Path.upFirst_origin : p.origin.UpFirst := List.Pairwise.nil

theorem Path.UpFirst.enter (h : place.UpFirst) : (place.enter part).UpFirst := by
  rw [Path.enter]
  split
  · next hpart =>
    refine List.pairwise_append.2 ⟨h, List.pairwise_singleton _ _, fun a _ b hb hup => ?_⟩
    exact absurd ((List.mem_singleton.1 hb).symm.trans hup) hpart
  split
  · exact List.Pairwise.sublist (List.dropLast_sublist _) h
  split
  · next hlast _ =>
    refine List.pairwise_append.2 ⟨h, List.pairwise_singleton _ _, fun a ha _ _ _ => ?_⟩
    exact h.all_up (not_not.1 hlast) a ha
  · exact h

theorem Path.UpFirst.foldl (h : place.UpFirst) : (parts.foldl Path.enter place).UpFirst := by
  induction parts generalizing place with
  | nil => exact h
  | cons part parts ih => exact ih h.enter

theorem Path.leadsTo_iff : p.leadsTo q = true ↔ p.root = q.root ∧ p.parts <+: q.parts := by
  simp [Path.leadsTo]

theorem Path.eq_of_leadsTo (h : p.leadsTo q = true) (hlength : q.parts.length ≤ p.parts.length) :
    p = q := by
  obtain ⟨hroot, hpre⟩ := Path.leadsTo_iff.1 h
  have hparts := hpre.eq_of_length (Nat.le_antisymm hpre.length_le hlength)
  cases p
  cases q
  simp_all

/-! ## 2. Directories

A directory is there if it is on the way to something that is there.  So directories come with all
that are above them, and that is all that has to be known of a tree. -/

namespace Tree

theorem hasDirectory_iff :
    t.hasDirectory place = true ↔ (∀ a ∈ place.parts, a = Path.up) ∨
      (∃ d ∈ t.directories, place.leadsTo d = true) ∨
      ∃ f ∈ t.files, place.leadsTo f.1 = true ∧ place ≠ f.1 := by
  simp [hasDirectory, or_assoc]

theorem hasDirectory_of_leadsTo (hlead : q.leadsTo place = true)
    (h : t.hasDirectory place = true) : t.hasDirectory q = true := by
  rw [hasDirectory_iff] at h ⊢
  obtain ⟨hroot, hpre⟩ := Path.leadsTo_iff.1 hlead
  rcases h with h | ⟨d, hd, h⟩ | ⟨f, hf, h, hne⟩
  · exact .inl fun a ha => h a (hpre.subset ha)
  · obtain ⟨hroot', hpre'⟩ := Path.leadsTo_iff.1 h
    exact .inr (.inl ⟨d, hd, Path.leadsTo_iff.2 ⟨hroot.trans hroot', hpre.trans hpre'⟩⟩)
  · obtain ⟨hroot', hpre'⟩ := Path.leadsTo_iff.1 h
    refine .inr (.inr ⟨f, hf, Path.leadsTo_iff.2 ⟨hroot.trans hroot', hpre.trans hpre'⟩, ?_⟩)
    -- a file that leads to the place is no longer than it
    rintro rfl
    exact hne (Path.eq_of_leadsTo h hpre.length_le)

theorem hasDirectory_enter_up (hfirst : place.UpFirst) (h : t.hasDirectory place = true) :
    t.hasDirectory (place.enter Path.up) = true := by
  rw [Path.enter, if_neg (not_not_intro rfl)]
  split
  · have hlead : place.parent.leadsTo place = true :=
      Path.leadsTo_iff.2 ⟨rfl, List.dropLast_prefix place.parts⟩
    exact hasDirectory_of_leadsTo hlead h
  split
  · next hlast _ =>
    refine hasDirectory_iff.2 (.inl fun a ha => ?_)
    rcases List.mem_append.1 ha with ha | ha
    · exact hfirst.all_up (not_not.1 hlast) a ha
    · exact List.mem_singleton.1 ha
  · exact h

/-! ## 3. The way of a path

A walk fails at the first part that cannot be gone.  The part of the walk that does not fail is
split off, so that the end of the way is looked at alone. -/

/-- All directories on the way of the parts are there, and no part is too long.  Nothing is said of
the end of the way, where there may be anything. -/
def Passes (t : Tree) (place : Path) : List (List Char) → Prop
  | [] => True
  | part :: rest =>
    t.files.lookup place = none ∧ t.hasDirectory place = true ∧
      Text.unitCount Char.utf8Size part ≤ Path.partLimit ∧ t.Passes (place.enter part) rest

theorem passes_append : t.Passes place (parts ++ rest) ↔
    t.Passes place parts ∧ t.Passes (parts.foldl Path.enter place) rest := by
  induction parts generalizing place with
  | nil => simp [Passes]
  | cons part parts ih => simp [Passes, ih, and_assoc]

theorem walk_cons : t.walk place (part :: rest) =
    if (t.files.lookup place).isSome then .error .notDirectory
    else if !t.hasDirectory place then .error .missing
    else if Path.partLimit < Text.unitCount Char.utf8Size part then .error .nameTooLong
    else t.walk (place.enter part) rest := rfl

theorem walk_append (h : t.Passes place parts) :
    t.walk place (parts ++ rest) = t.walk (parts.foldl Path.enter place) rest := by
  induction parts generalizing place with
  | nil => rfl
  | cons part parts ih =>
    obtain ⟨hlookup, hdirectory, hlength, h⟩ := h
    rw [List.cons_append, walk_cons]
    simp [hlookup, hdirectory, Nat.not_lt.2 hlength, ih h]

/-- What stands at the end of a way is found exactly if the way can be gone.  What is found then
depends on the place that the way leads to. -/
theorem walk_eq_ok_iff : t.walk place parts = .ok e ↔
    t.Passes place parts ∧ t.walk (parts.foldl Path.enter place) [] = .ok e := by
  induction parts generalizing place with
  | nil => simp [Passes]
  | cons part parts ih =>
    rw [walk_cons, List.foldl_cons, Passes]
    cases hlookup : t.files.lookup place with
    | some bytes => simp
    | none =>
      cases hdirectory : t.hasDirectory place with
      | false => simp
      | true =>
        by_cases hlength : Path.partLimit < Text.unitCount Char.utf8Size part
        · simp [hlength, Nat.not_le.2 hlength]
        · simp [hlength, Nat.not_lt.1 hlength, ih]

theorem look_eq_ok_iff : t.look p = .ok e ↔
    t.Passes p.origin p.parts ∧ t.walk p.place [] = .ok e :=
  walk_eq_ok_iff

/-- What is no directory is a file; none of a tree is locked. -/
theorem exists_file_of_walk_nil (h : t.walk place [] = .ok e) (he : e ≠ .directory) :
    ∃ bytes, t.files.lookup place = some bytes := by
  rw [walk] at h
  split at h
  · next bytes hlookup => exact ⟨bytes, hlookup⟩
  · split at h
    · cases h
      exact absurd rfl he
    · cases h

theorem walk_nil_eq_directory (h : t.walk place [] = .ok .directory) :
    t.files.lookup place = none ∧ t.hasDirectory place = true := by
  rw [walk] at h
  split at h
  · cases h
  · split at h
    · exact ⟨‹_›, ‹_›⟩
    · cases h

theorem walk_nil_eq_missing (h : t.walk place [] = .error .missing) :
    t.files.lookup place = none ∧ t.hasDirectory place = false := by
  rw [walk] at h
  split at h
  · cases h
  · split at h
    · cases h
    · exact ⟨‹_›, Bool.eq_false_iff.2 ‹_›⟩

/-! ## 4. Where a file can be written

The condition of a write is asked of the path: what stands there, or in the directory above if there
is nothing.  Said of the place it is that all directories above are there and the place is free, or
holds a file. -/

/-- A file can be written at the place: the directories above are there, and where there is no file
yet, there is no directory. -/
structure Open (t : Tree) (place : Path) : Prop where
  above (q : Path) : q.leadsTo place = true → q ≠ place → t.hasDirectory q = true
  free : t.files.lookup place = none → t.hasDirectory place = false

theorem open_of_file (h : t.files.lookup place = some bytes) : t.Open place where
  above q hlead hne := by
    obtain ⟨before, behind, hsplit, -⟩ := List.lookup_eq_some_iff.1 h
    refine hasDirectory_iff.2 (.inr (.inr ⟨(place, bytes), ?_, hlead, hne⟩))
    rw [hsplit]
    exact List.mem_append_right before List.mem_cons_self
  free hnone := by
    rw [h] at hnone
    cases hnone

/-- Above what is missing in a directory, all directories are there. -/
theorem open_of_missing (hfirst : place.UpFirst) (hplace : t.hasDirectory place = true)
    (hmissing : t.hasDirectory (place.enter part) = false) : t.Open (place.enter part) where
  above q hlead hne := by
    -- a part that leads up would not be missing
    have hup : part ≠ Path.up := by
      rintro rfl
      rw [hasDirectory_enter_up hfirst hplace] at hmissing
      cases hmissing
    rw [Path.enter, if_pos hup] at hlead hne
    obtain ⟨hroot, hpre⟩ := Path.leadsTo_iff.1 hlead
    rcases List.prefix_concat_iff.1 hpre with hparts | hbefore
    · exact absurd (Path.eq_of_leadsTo hlead (Nat.le_of_eq (congrArg _ hparts).symm)) hne
    · have hlead' : q.leadsTo place = true := Path.leadsTo_iff.2 ⟨hroot, hbefore⟩
      exact hasDirectory_of_leadsTo hlead' hplace
  free _ := hmissing

/-- A path that leads to nothing, in a directory that is there, is a place for a file. -/
theorem open_of_look (hparent : t.look p.parent = .ok .directory)
    (h : t.look p = .error .missing) : t.Passes p.origin p.parts ∧ t.Open p.place := by
  obtain ⟨hpasses, hend⟩ := look_eq_ok_iff.1 hparent
  obtain ⟨hlookup, hdirectory⟩ := walk_nil_eq_directory hend
  rcases List.eq_nil_or_concat p.parts with hnil | ⟨init, part, hparts⟩
  · -- the current directory and a root hold themselves
    have hself : p.parent = p := by
      cases p
      simp_all [Path.parent]
    rw [hself, h] at hparent
    cases hparent
  · rw [List.concat_eq_append] at hparts
    have hinit : p.parent.parts = init := by simp [Path.parent, hparts]
    have hway : t.Passes p.origin init := hinit ▸ hpasses
    have hplace : init.foldl Path.enter p.origin = p.parent.place := by rw [← hinit]; rfl
    have hp : p.place = p.parent.place.enter part := by
      rw [Path.place, hparts, List.foldl_append, hplace]
      rfl
    rw [look, hparts, walk_append hway, hplace, walk_cons, hlookup, hdirectory] at h
    simp only [Option.isSome_none, Bool.not_true, Bool.false_eq_true, if_false] at h
    split at h
    · cases h
    next hlength =>
    obtain ⟨-, hmissing⟩ := walk_nil_eq_missing h
    rw [hparts, passes_append, hplace, hp]
    exact ⟨⟨hway, hlookup, hdirectory, Nat.not_lt.1 hlength, trivial⟩,
      open_of_missing Path.upFirst_origin.foldl hdirectory hmissing⟩

end Tree

theorem FileSystem.entry_eq_ok_iff {fs : FileSystem} :
    fs.entry p = .ok e ↔ p.fault? = none ∧ fs.look p = .ok e := by
  unfold FileSystem.entry
  cases p.fault? <;> simp

theorem FileSystem.look_of_missing {fs : FileSystem} (h : fs.entry p = .error .missing) :
    p.fault? = none ∧ fs.look p = .error .missing := by
  unfold FileSystem.entry at h
  split at h
  · next f hf =>
    cases h
    unfold Path.fault? at hf
    split at hf
    · cases hf
    · split at hf <;> cases hf
  · next hf => exact ⟨hf, h⟩

namespace Tree

/-- **A file can be written where nothing is said against it.**  The directory above is there, and
at the path there is a file, or nothing. -/
theorem open_of_writeFailure? (h : t.fileSystem.writeFailure? p = none) :
    p.fault? = none ∧ t.Passes p.origin p.parts ∧ t.Open p.place := by
  unfold FileSystem.writeFailure? at h
  split at h
  · cases h
  · next e hdirectory hentry =>
    obtain ⟨hfault, hlook⟩ := FileSystem.entry_eq_ok_iff.1 hentry
    obtain ⟨hpasses, hend⟩ := look_eq_ok_iff.1 hlook
    obtain ⟨bytes, hfile⟩ := exists_file_of_walk_nil hend hdirectory
    exact ⟨hfault, hpasses, open_of_file hfile⟩
  · next hentry =>
    obtain ⟨hfault, hlook⟩ := FileSystem.look_of_missing hentry
    split at h
    · next hparent => exact ⟨hfault, open_of_look (FileSystem.entry_eq_ok_iff.1 hparent).2 hlook⟩
    · cases h
  · cases h

/-! ## 5. What is written

Files are looked up by their places, so a file that is written hides the one that was there.
Directories are the same before and after, and with them the ways of all paths. -/

theorem lookup_write : (t.write p bytes).files.lookup q =
    if q = p.place then some bytes else t.files.lookup q := by
  rw [write, List.lookup_cons]
  by_cases h : q = p.place
  · simp [h]
  · have hb : (q == p.place) = false := by simp [h]
    rw [hb, if_neg h]
    dsimp only
    -- the files that are left out are all at the place that is written
    induction t.files with
    | nil => rfl
    | cons f files ih =>
      obtain ⟨place, content⟩ := f
      by_cases hplace : place = p.place
      · have hq : (q == place) = false := by simp [hplace, h]
        rw [List.filter_cons_of_neg (by simp [hplace]), List.lookup_cons, hq, ih]
      · rw [List.filter_cons_of_pos (by simp [hplace]), List.lookup_cons, List.lookup_cons, ih]

theorem hasDirectory_write (h : t.Open p.place) :
    (t.write p bytes).hasDirectory q = t.hasDirectory q := by
  rw [Bool.eq_iff_iff]
  constructor
  · intro hq
    rcases hasDirectory_iff.1 hq with hq | hq | ⟨f, hf, hlead, hne⟩
    · exact hasDirectory_iff.2 (.inl hq)
    · exact hasDirectory_iff.2 (.inr (.inl hq))
    · rcases List.mem_cons.1 hf with rfl | hf
      · exact h.above q hlead hne
      · exact hasDirectory_iff.2 (.inr (.inr ⟨f, List.mem_of_mem_filter hf, hlead, hne⟩))
  · intro hq
    rcases hasDirectory_iff.1 hq with hq | hq | ⟨f, hf, hlead, hne⟩
    · exact hasDirectory_iff.2 (.inl hq)
    · exact hasDirectory_iff.2 (.inr (.inl hq))
    · refine hasDirectory_iff.2 (.inr (.inr ?_))
      by_cases hplace : f.1 = p.place
      · rw [hplace] at hlead hne
        exact ⟨(p.place, bytes), List.mem_cons_self, hlead, hne⟩
      · exact ⟨f, List.mem_cons_of_mem _ (List.mem_filter.2 ⟨hf, by simp [hplace]⟩), hlead, hne⟩

/-- Writing a file opens no way and blocks none.  It could block one only as a file that stands
where a directory was. -/
theorem passes_write (h : t.Open p.place) :
    (t.write p bytes).Passes place parts ↔ t.Passes place parts := by
  induction parts generalizing place with
  | nil => rfl
  | cons part parts ih =>
    rw [Passes, Passes, ih, hasDirectory_write h, lookup_write]
    by_cases hplace : place = p.place
    · rw [if_pos hplace, hplace]
      constructor
      · rintro ⟨hlookup, -⟩
        cases hlookup
      · rintro ⟨hlookup, hdirectory, -⟩
        rw [h.free hlookup] at hdirectory
        cases hdirectory
    · rw [if_neg hplace]

end Tree

/-- One file system is the other with a file written: the file is read as it was written, and at all
other places there stands what stood there. -/
structure FileSystem.Updates (fs fs' : FileSystem) (p : Path) (bytes : List UInt8) : Prop where
  read_eq : fs'.read p = .ok bytes
  entry_iff (q : Path) (e : Entry) : q.place ≠ p.place → (fs'.entry q = .ok e ↔ fs.entry q = .ok e)

/-- **A file that can be written is written, and nothing else is.**  What is read at a place is the
same by every path to it. -/
theorem Tree.updates_write (h : t.fileSystem.writeFailure? p = none) :
    t.fileSystem.Updates (t.write p bytes).fileSystem p bytes where
  read_eq := by
    obtain ⟨hfault, hpasses, hopen⟩ := open_of_writeFailure? h
    have hend : (t.write p bytes).walk p.place [] = .ok (.file bytes) := by
      rw [walk, lookup_write, if_pos rfl]
    have hentry : (t.write p bytes).fileSystem.entry p = .ok (.file bytes) :=
      FileSystem.entry_eq_ok_iff.2 ⟨hfault, walk_eq_ok_iff.2 ⟨(passes_write hopen).2 hpasses, hend⟩⟩
    rw [FileSystem.read, hentry]
  entry_iff q e hne := by
    obtain ⟨-, -, hopen⟩ := open_of_writeFailure? h
    have hend : (t.write p bytes).walk q.place [] = t.walk q.place [] := by
      rw [walk, walk, lookup_write, if_neg hne, hasDirectory_write hopen]
    have hlook : (t.write p bytes).look q = .ok e ↔ t.look q = .ok e := by
      rw [look_eq_ok_iff, look_eq_ok_iff, passes_write hopen, hend]
    rw [FileSystem.entry_eq_ok_iff, FileSystem.entry_eq_ok_iff]
    exact and_congr_right fun _ => hlook

end SmartEnter
