/-
# Lines of a text display and lines of a buffer

A text display ends a line at every line terminator, a buffer at line feeds only.  The two agree on
a text whose line terminators are line feeds, alone or behind a carriage return (`OnlyLineFeeds`):
behind a number of whole lines the display has as many lines as there are line feeds
(`length_splitLines`), and all its lines are lines of the buffer
(`sourceLines_eq_splitLines_append`), which has no line besides them but an empty last one.  So a
line that is looked up in one is found in the other (`displayLine_eq_lineContent`).

They agree on no other text, for a line of the buffer with a terminator in it is no line of a
display (`plainBreaks_of_sourceLines`).

That the terminators are plain can be said of the lines of the display or of the characters of the
text (`PlainBreaks`).  The second form is the one to work with.  It passes to parts of the text and
to texts that are put together, and an induction on the characters has it for the rest; the first
one is what somebody would say who looks at the display.
-/
import SmartEnter.Proofs.Document.SourceLines

namespace SmartEnter

open Text (isTerminator splitLines consLine Line)

namespace Text

/-! ## 1. Texts with line feeds only

Two ways to say that a text has no terminators but line feeds, and that the first follows from the
second. -/

/-- The only line terminators of the text are line feeds, alone or behind a carriage return. -/
def OnlyLineFeeds (s : List Char) : Prop :=
  ∀ l ∈ splitLines s, l.terminator ∈ [[], ['\n'], ['\r', '\n']]

/-- The same of the characters: a terminator is a line feed, or a carriage return that a line feed
follows. -/
def PlainBreaks (s : List Char) : Prop :=
  ∀ u c v, s = u ++ c :: v → isTerminator c = true → c = '\n' ∨ c = '\r' ∧ v.head? = some '\n'

theorem plainBreaks_nil : PlainBreaks [] := fun u c v h => absurd h (by simp)

theorem plainBreaks_cons_iff {c : Char} {s : List Char} :
    PlainBreaks (c :: s) ↔
      (isTerminator c = true → c = '\n' ∨ c = '\r' ∧ s.head? = some '\n') ∧ PlainBreaks s := by
  constructor
  · intro h
    refine ⟨h [] c s rfl, ?_⟩
    rintro u d v rfl
    exact h (c :: u) d v rfl
  · rintro ⟨hc, hs⟩ u d v h
    cases u with
    | nil =>
      obtain ⟨rfl, rfl⟩ := List.cons.inj h
      exact hc
    | cons e u => exact hs u d v (List.cons.inj h).2

/-- A terminator that does not start a break of two is a line feed. -/
theorem eq_newline_of_plainBreaks {c : Char} {s : List Char} (h : PlainBreaks (c :: s))
    (hpair : ∀ tail, c = '\r' → s = '\n' :: tail → False) (hc : isTerminator c = true) :
    c = '\n' := by
  refine ((plainBreaks_cons_iff.1 h).1 hc).resolve_right ?_
  rintro ⟨rfl, hn⟩
  cases s with
  | nil => cases hn
  | cons d tail => exact hpair tail rfl (by rw [Option.some.inj hn])

theorem terminators_consLine {c : Char} {lines : List Line}
    (h : ∀ l ∈ consLine c lines, l.terminator ∈ [[], ['\n'], ['\r', '\n']]) :
    ∀ l ∈ lines, l.terminator ∈ [[], ['\n'], ['\r', '\n']] := by
  cases lines with
  | nil => exact nofun
  | cons m lines =>
    intro l hl
    rcases List.mem_cons.1 hl with rfl | hl
    · exact h ⟨c :: l.content, l.terminator⟩ List.mem_cons_self
    · exact h l (List.mem_cons_of_mem _ hl)

theorem OnlyLineFeeds.plainBreaks {s : List Char} (h : OnlyLineFeeds s) : PlainBreaks s := by
  unfold OnlyLineFeeds at h
  fun_induction splitLines s with
  | case1 => exact plainBreaks_nil
  | case2 rest ih =>
    have hrest := ih fun l hl => h l (List.mem_cons_of_mem _ hl)
    exact plainBreaks_cons_iff.2 ⟨fun _ => .inr ⟨rfl, rfl⟩,
      plainBreaks_cons_iff.2 ⟨fun _ => .inl rfl, hrest⟩⟩
  | case3 c rest _ hc ih =>
    have hrest := ih fun l hl => h l (List.mem_cons_of_mem _ hl)
    have hterm := h ⟨[], [c]⟩ List.mem_cons_self
    refine plainBreaks_cons_iff.2 ⟨fun _ => .inl ?_, hrest⟩
    simpa using hterm
  | case4 c rest _ hc ih =>
    exact plainBreaks_cons_iff.2 ⟨fun hc' => absurd hc' hc, ih (terminators_consLine h)⟩

/-- The first part of a text with line feeds only, ended by a line break of its own.  The part must
not end in a carriage return, which would join the line feed of the break. -/
theorem PlainBreaks.append_break {p t br : List Char} (h : PlainBreaks (p ++ t))
    (hp : p.getLast? ≠ some '\r') (hbr : br = ['\n'] ∨ br = ['\r', '\n']) :
    PlainBreaks (p ++ br) := by
  have hplain : PlainBreaks br := by
    rcases hbr with rfl | rfl
    · exact plainBreaks_cons_iff.2 ⟨fun _ => .inl rfl, plainBreaks_nil⟩
    · exact plainBreaks_cons_iff.2 ⟨fun _ => .inr ⟨rfl, rfl⟩,
        plainBreaks_cons_iff.2 ⟨fun _ => .inl rfl, plainBreaks_nil⟩⟩
  induction p with
  | nil => exact hplain
  | cons c p ih =>
    obtain ⟨hc, hrest⟩ := plainBreaks_cons_iff.1 h
    cases p with
    | nil =>
      refine plainBreaks_cons_iff.2 ⟨fun hterm => .inl ((hc hterm).resolve_right ?_), hplain⟩
      rintro ⟨rfl, -⟩
      exact hp rfl
    | cons d p =>
      rw [List.getLast?_cons_cons] at hp
      exact plainBreaks_cons_iff.2 ⟨hc, ih hrest hp⟩

/-! ## 2. Whole lines

Behind a text of whole lines the display starts a line as the buffer does, so the lines of the two
can be counted up to there and put together from there on. -/

theorem splitLines_eq_nil {s : List Char} (h : splitLines s = []) : s = [] := by
  have hs := flatMap_full_splitLines s
  rw [h] at hs
  exact hs.symm

/-- A character that does not start a line break of two ends a line or goes into the next one. -/
theorem splitLines_cons {c : Char} {s : List Char} (h : c = '\r' → s.head? ≠ some '\n') :
    splitLines (c :: s) =
      if isTerminator c then ⟨[], [c]⟩ :: splitLines s else consLine c (splitLines s) := by
  rw [splitLines]
  rintro rest rfl rfl
  exact h rfl rfl

/-- Behind whole lines the display has as many lines as there are line feeds. -/
theorem length_splitLines {a : List Char} (ha : StartsLine a) (h : PlainBreaks a) :
    (splitLines a).length = a.count '\n' := by
  fun_induction splitLines a with
  | case1 => rfl
  | case2 rest ih =>
    have hrest := (plainBreaks_cons_iff.1 (plainBreaks_cons_iff.1 h).2).2
    rw [List.length_cons, ih ha.tail.tail hrest, List.count_cons_of_ne (by decide),
      List.count_cons_self]
  | case3 c rest hpair hc ih =>
    have hrest := (plainBreaks_cons_iff.1 h).2
    obtain rfl := eq_newline_of_plainBreaks h hpair hc
    rw [List.length_cons, ih ha.tail hrest, List.count_cons_self]
  | case4 c rest _ hc ih =>
    have hcn : c ≠ '\n' := by
      rintro rfl
      exact hc (by decide)
    have hne : rest ≠ [] := by
      rintro rfl
      refine hcn (Option.some.inj (ha.resolve_left (List.cons_ne_nil c [])))
    rw [length_consLine c (mt splitLines_eq_nil hne), ih ha.tail (plainBreaks_cons_iff.1 h).2,
      List.count_cons_of_ne hcn]

/-- The lines of a text are those of its first lines and those of the rest, because whole lines end
where the rest begins. -/
theorem splitLines_append {a : List Char} (ha : StartsLine a) (x : List Char) :
    splitLines (a ++ x) = splitLines a ++ splitLines x := by
  fun_induction splitLines a with
  | case1 => rfl
  | case2 rest ih =>
    rw [List.cons_append, List.cons_append, splitLines, ih ha.tail.tail, List.cons_append]
  | case3 c rest hpair hc ih =>
    rw [List.cons_append, splitLines_cons (head?_append_ne ha hpair x), if_pos hc, ih ha.tail,
      List.cons_append]
  | case4 c rest hpair hc ih =>
    have hne : splitLines rest ≠ [] := by
      refine mt splitLines_eq_nil ?_
      rintro rfl
      obtain rfl := Option.some.inj (ha.resolve_left (List.cons_ne_nil c []))
      exact hc (by decide)
    rw [List.cons_append, splitLines_cons (head?_append_ne ha hpair x), if_neg hc, ih ha.tail,
      consLine_append c hne]

/-- No line of the display has a line terminator in it.  So nothing that is shown of a line can go
over to the next one. -/
theorem not_isTerminator_of_mem_splitLines {s : List Char} {l : Line} (hl : l ∈ splitLines s) :
    ∀ c ∈ l.content, isTerminator c = false := by
  fun_induction splitLines s generalizing l with
  | case1 => cases hl
  | case2 rest ih =>
    rcases List.mem_cons.1 hl with rfl | hl
    · exact fun _ hd => absurd hd List.not_mem_nil
    · exact ih hl
  | case3 c rest _ _ ih =>
    rcases List.mem_cons.1 hl with rfl | hl
    · exact fun _ hd => absurd hd List.not_mem_nil
    · exact ih hl
  | case4 c rest _ hc ih =>
    rw [Bool.not_eq_true] at hc
    cases hlines : splitLines rest with
    | nil =>
      rw [hlines, consLine, List.mem_singleton] at hl
      subst hl
      simpa using hc
    | cons m lines =>
      rw [hlines] at ih hl
      rcases List.mem_cons.1 hl with rfl | hl
      · intro d hd
        rcases List.mem_cons.1 hd with rfl | hd
        · exact hc
        · exact ih List.mem_cons_self d hd
      · exact ih (List.mem_cons_of_mem _ hl)

/-- **The display has the lines of the buffer** if line feeds are the only terminators, but for an
empty last line. -/
theorem sourceLines_eq_splitLines_append {s : List Char} (h : PlainBreaks s) :
    ∃ last, (last = [] ∨ last = [⟨[], []⟩]) ∧ sourceLines s = splitLines s ++ last := by
  fun_induction splitLines s with
  | case1 => exact ⟨_, .inr rfl, rfl⟩
  | case2 rest ih =>
    obtain ⟨last, hlast, heq⟩ := ih (plainBreaks_cons_iff.1 (plainBreaks_cons_iff.1 h).2).2
    refine ⟨last, hlast, ?_⟩
    rw [sourceLines, heq]
    rfl
  | case3 c rest hpair hc ih =>
    have hrest := (plainBreaks_cons_iff.1 h).2
    obtain rfl := eq_newline_of_plainBreaks h hpair hc
    obtain ⟨last, hlast, heq⟩ := ih hrest
    refine ⟨last, hlast, ?_⟩
    rw [sourceLines, heq]
    rfl
  | case4 c rest hpair hc ih =>
    obtain ⟨last, hlast, heq⟩ := ih (plainBreaks_cons_iff.1 h).2
    have hcn : c ≠ '\n' := by
      rintro rfl
      exact hc (by decide)
    rw [sourceLines_cons_of_not_isBreak (isBreak_eq_false hcn hpair), heq]
    by_cases hne : splitLines rest = []
    · obtain rfl := splitLines_eq_nil hne
      exact ⟨[], .inl rfl, by cases heq; rfl⟩
    · exact ⟨last, hlast, consLine_append c hne last⟩

/-! ## 3. One line of the display

A single line is what is looked up, and none is found as an empty one. -/

/-- The line of a display that has a number, its terminator excluded; empty if there is none. -/
def displayLine (s : List Char) (n : Nat) : List Char :=
  ((splitLines s)[n]?.map Line.content).getD []

theorem not_isTerminator_of_mem_displayLine {s : List Char} {n : Nat} {c : Char}
    (hc : c ∈ displayLine s n) : isTerminator c = false := by
  unfold displayLine at hc
  cases hline : (splitLines s)[n]? with
  | none =>
    rw [hline] at hc
    cases hc
  | some l =>
    rw [hline] at hc
    exact not_isTerminator_of_mem_splitLines (List.mem_of_getElem? hline) c hc

/-- **If line feeds are the only terminators**, the display has the line that the buffer has. -/
theorem displayLine_eq_lineContent {s : List Char} (h : PlainBreaks s) (n : Nat) :
    displayLine s n = lineContent s n := by
  obtain ⟨last, hlast, heq⟩ := sourceLines_eq_splitLines_append h
  rw [displayLine, lineContent, heq]
  by_cases hlt : n < (splitLines s).length
  · rw [List.getElem?_append_left hlt]
  · -- the last line of the buffer may be empty, and then it is no line of the display
    rw [List.getElem?_append_right (Nat.not_lt.1 hlt), List.getElem?_eq_none (Nat.not_lt.1 hlt)]
    rcases hlast with rfl | rfl
    · rfl
    · cases n - (splitLines s).length <;> rfl

/-- **Only then the lines of the buffer can be lines of the display**: if none of them has a
terminator in it, all terminators are in the breaks, and those are line feeds with or without a
carriage return. -/
theorem plainBreaks_of_sourceLines {s : List Char}
    (h : ∀ l ∈ sourceLines s, ∀ c ∈ l.content, isTerminator c = false) : PlainBreaks s := by
  fun_induction sourceLines s with
  | case1 => exact plainBreaks_nil
  | case2 rest ih =>
    have hrest := ih fun l hl => h l (List.mem_cons_of_mem _ hl)
    exact plainBreaks_cons_iff.2 ⟨fun _ => .inl rfl, hrest⟩
  | case3 rest ih =>
    have hrest := ih fun l hl => h l (List.mem_cons_of_mem _ hl)
    exact plainBreaks_cons_iff.2 ⟨fun _ => .inr ⟨rfl, rfl⟩,
      plainBreaks_cons_iff.2 ⟨fun _ => .inl rfl, hrest⟩⟩
  | case4 c rest _ _ ih =>
    obtain ⟨br, ls, hlines⟩ := exists_sourceLines_eq_cons rest
    rw [hlines] at h ih
    have hfirst := h _ List.mem_cons_self
    refine plainBreaks_cons_iff.2 ⟨fun hc => ?_, ih fun l hl => ?_⟩
    · rw [hfirst c List.mem_cons_self] at hc
      cases hc
    · rcases List.mem_cons.1 hl with rfl | hl
      · exact fun d hd => hfirst d (List.mem_cons_of_mem _ hd)
      · exact h l (List.mem_cons_of_mem _ hl)

end Text

end SmartEnter
