/-
# Line feeds with a carriage return in front

A buffer ends its lines with line feeds, or with a carriage return and a line feed.
`Text.addReturns` goes from the first style to the second.  For a text without carriage returns
nothing else changes: the lines break at the same places (`isBreak_addReturns`) and hold the same
(`untilBreak_addReturns`, `map_content_sourceLines_addReturns`), a text within a line starts where
it did (`prefix_addReturns_iff`), and every place moves to the right by the number of line feeds
before it (`length_addReturns`).

The condition that the text has no carriage returns is needed, because one that stands alone is a
break of its own, and a second one in front of a line feed would make a line more.
-/
import SmartEnter.Proofs.Document.SourceLines

namespace SmartEnter

namespace Text

/-- The text with a carriage return in front of every line feed, also of one that has a carriage
return there already. -/
def addReturns : List Char → List Char
  | [] => []
  | c :: rest => if c = '\n' then '\r' :: '\n' :: addReturns rest else c :: addReturns rest

variable {s t : List Char} {c : Char}

@[simp] theorem addReturns_nil : addReturns [] = [] := rfl

@[simp] theorem addReturns_newline (s : List Char) :
    addReturns ('\n' :: s) = '\r' :: '\n' :: addReturns s := rfl

theorem addReturns_cons_of_ne (h : c ≠ '\n') (s : List Char) :
    addReturns (c :: s) = c :: addReturns s := by
  rw [addReturns, if_neg h]

@[simp] theorem addReturns_append (s t : List Char) :
    addReturns (s ++ t) = addReturns s ++ addReturns t := by
  induction s with
  | nil => rfl
  | cons c s ih =>
    by_cases h : c = '\n'
    · subst h
      simp [ih]
    · simp [addReturns_cons_of_ne h, ih]

theorem addReturns_eq_self (h : '\n' ∉ s) : addReturns s = s := by
  induction s with
  | nil => rfl
  | cons c s ih =>
    rw [List.mem_cons, not_or] at h
    rw [addReturns_cons_of_ne (Ne.symm h.1), ih h.2]

theorem length_addReturns (s : List Char) : (addReturns s).length = s.length + s.count '\n' := by
  induction s with
  | nil => rfl
  | cons c s ih =>
    by_cases h : c = '\n'
    · subst h
      simp only [addReturns_newline, List.length_cons, ih, List.count_cons_self]
      omega
    · simp only [addReturns_cons_of_ne h, List.length_cons, ih, List.count_cons_of_ne h]
      omega

@[simp] theorem count_addReturns (s : List Char) : (addReturns s).count '\n' = s.count '\n' := by
  induction s with
  | nil => rfl
  | cons c s ih =>
    by_cases h : c = '\n'
    · subst h
      simp [ih]
    · rw [addReturns_cons_of_ne h, List.count_cons_of_ne h, List.count_cons_of_ne h, ih]

/-- What is true of neither character of a line break is true of the first character if it was. -/
theorem any_head?_addReturns {p : Char → Bool} (hn : p '\n' = false) (hr : p '\r' = false)
    (s : List Char) : (addReturns s).head?.any p = s.head?.any p := by
  cases s with
  | nil => rfl
  | cons c s =>
    by_cases h : c = '\n'
    · subst h
      simp [hn, hr]
    · rw [addReturns_cons_of_ne h]
      rfl

theorem takeWhile_addReturns {p : Char → Bool} (hn : p '\n' = false) (hr : p '\r' = false)
    (s : List Char) : (addReturns s).takeWhile p = s.takeWhile p := by
  induction s with
  | nil => rfl
  | cons c s ih =>
    by_cases h : c = '\n'
    · subst h
      simp [hn, hr]
    · rw [addReturns_cons_of_ne h, List.takeWhile_cons, List.takeWhile_cons, ih]

theorem prefix_addReturns_iff {m : List Char} (hm : '\n' ∉ m ∧ '\r' ∉ m) :
    m <+: addReturns s ↔ m <+: s := by
  induction m generalizing s with
  | nil => simp
  | cons d m ih =>
    simp only [List.mem_cons, not_or] at hm
    cases s with
    | nil => rfl
    | cons c s =>
      by_cases h : c = '\n'
      · subst h
        simp only [addReturns_newline, List.cons_prefix_cons]
        constructor
        · rintro ⟨rfl, -⟩
          exact absurd rfl hm.2.1
        · rintro ⟨rfl, -⟩
          exact absurd rfl hm.1.1
      · rw [addReturns_cons_of_ne h, List.cons_prefix_cons, List.cons_prefix_cons,
          ih ⟨hm.1.2, hm.2.2⟩]

/-! ## 1. Lines

Where the lines of the text break and what they hold, for texts that had no carriage returns. -/

/-- **Lines break at the same places.**  A line feed still starts the text, with a carriage return
in front, and a carriage return starts it only in front of a line feed. -/
theorem isBreak_addReturns (hs : '\r' ∉ s) : isBreak (addReturns s) = isBreak s := by
  cases s with
  | nil => rfl
  | cons c s =>
    simp only [List.mem_cons, not_or] at hs
    by_cases h : c = '\n'
    · subst h
      rfl
    · have hne : c ≠ '\r' := Ne.symm hs.1
      rw [addReturns_cons_of_ne h, Bool.eq_iff_iff, isBreak_cons_iff, isBreak_cons_iff]
      simp [h, hne]

/-- **Lines hold what they held.**  The carriage return that is put in belongs to the break. -/
theorem untilBreak_addReturns (hs : '\r' ∉ s) :
    Lexis.untilBreak (addReturns s) = Lexis.untilBreak s := by
  induction s with
  | nil => rfl
  | cons c s ih =>
    have hb := isBreak_addReturns hs
    by_cases h : c = '\n'
    · subst h
      rfl
    · rw [addReturns_cons_of_ne h] at hb ⊢
      rw [Lexis.untilBreak, Lexis.untilBreak, hb, ih fun h' => hs (List.mem_cons_of_mem c h')]

theorem startsLine_addReturns (h : StartsLine s) : StartsLine (addReturns s) := by
  rcases h with rfl | h
  · exact .inl rfl
  · obtain ⟨s, rfl⟩ := List.getLast?_eq_some_iff.1 h
    refine .inr ?_
    rw [addReturns_append, List.getLast?_append]
    rfl

theorem map_content_consLine (c : Char) {ls ms : List Line}
    (h : ls.map Line.content = ms.map Line.content) :
    (consLine c ls).map Line.content = (consLine c ms).map Line.content := by
  cases ls with
  | nil =>
    obtain rfl := List.map_eq_nil_iff.1 h.symm
    rfl
  | cons l ls =>
    cases ms with
    | nil => cases h
    | cons m ms =>
      obtain ⟨hl, hls⟩ := List.cons.inj h
      simp only [consLine, List.map_cons, hl]
      rw [hls]

theorem map_content_sourceLines_addReturns (hs : '\r' ∉ s) :
    (sourceLines (addReturns s)).map Line.content = (sourceLines s).map Line.content := by
  induction s with
  | nil => rfl
  | cons c s ih =>
    have hs' : '\r' ∉ s := fun h' => hs (List.mem_cons_of_mem c h')
    by_cases h : c = '\n'
    · subst h
      simp only [addReturns_newline, sourceLines, List.map_cons, ih hs']
    · have hb : isBreak (c :: s) = false := by
        refine isBreak_eq_false h fun r hr _ => ?_
        exact hs (by rw [hr]; exact List.mem_cons_self)
      have hb' := isBreak_addReturns hs
      rw [hb, addReturns_cons_of_ne h] at hb'
      rw [addReturns_cons_of_ne h, sourceLines_cons_of_not_isBreak hb,
        sourceLines_cons_of_not_isBreak hb']
      exact map_content_consLine c (ih hs')

/-! ## 2. Places -/

/-- Where a place of a text comes to lie.  A place before a line feed comes to lie before the
carriage return, so that the break stays in one piece. -/
def returned (s : List Char) (n : Nat) : Nat := (addReturns (s.take n)).length

theorem returned_eq (h : n ≤ s.length) : returned s n = n + (s.take n).count '\n' := by
  rw [returned, length_addReturns, List.length_take, Nat.min_eq_left h]

theorem returned_length_left (s t : List Char) :
    returned (s ++ t) s.length = (addReturns s).length := by
  rw [returned, List.take_left]

theorem returned_lt_iff {m n : Nat} (hm : m ≤ s.length) (hn : n ≤ s.length) :
    returned s m < returned s n ↔ m < n := by
  rw [returned_eq hm, returned_eq hn]
  rcases Nat.lt_or_ge m n with h | h
  · have := (List.take_sublist_take_left (l := s) (Nat.le_of_lt h)).count_le '\n'
    omega
  · have := (List.take_sublist_take_left (l := s) h).count_le '\n'
    omega

end Text

end SmartEnter
