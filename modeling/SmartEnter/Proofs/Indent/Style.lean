/-
# The style of an indented text

A text is indented with a character if no line of it is indented with another one
(`Text.IndentedWith`).  Which lines are indented, and how, is read off the text: the indent of a
line is what stands in blanks behind the start of the line.

* A line break that is put in cuts one line in two and leaves the other lines alone.  So the text
  stays indented with the character if the new line is (`Text.IndentedWith.insert`).
* A level is written with one character.  It is the one that the text is indented with, and where no
  line is indented the options choose it (`Indent.levelChar_eq`).

The definitions speak of the lines of a document by their numbers.  For the proofs a line is a way
to write the text as two parts, of which the first ends a line (`Text.StartsLine`), since a break
that is put in moves the numbers of the lines but not these parts.
-/
import SmartEnter.Proofs.Document.Lookup
import SmartEnter.Proofs.Document.SourceLines
import SmartEnter.Proofs.Indent.Level

namespace SmartEnter

open Lexis (untilBreak)
open Text (isBlank sourceLines)

namespace Text

/-- Every line of the text is indented with the character, if at all.  A text without indents is
indented with every character. -/
def IndentedWith (c : Char) (s : List Char) : Prop :=
  ∀ (n : Nat) (indent : List Char), ({ text := s } : Document).lineIndent n = .ok indent →
    ∀ x ∈ indent, x = c

/-- Some line of the text is indented, if only a line of blanks. -/
def IsIndented (s : List Char) : Prop :=
  ∃ (n : Nat) (indent : List Char), ({ text := s } : Document).lineIndent n = .ok indent ∧
    indent ≠ []

variable {c : Char} {s p r i : List Char}

/-! ## 1. The indents of a text

From lines with numbers to texts that start where a line does. -/

/-- The indent of a line is what stands in blanks behind the start of the line.  A break ends the
blanks as it ends the line. -/
theorem lineIndent_eq_ok_iff {n : Nat} {indent : List Char} :
    ({ text := s } : Document).lineIndent n = .ok indent ↔
      ∃ a r, s = a ++ r ∧ StartsLine a ∧ a.count '\n' = n ∧ r.takeWhile isBlank = indent := by
  have hcount : ({ text := s } : Document).lineCount = s.count '\n' + 1 :=
    Document.lineCount_eq_count _
  by_cases hn : n < ({ text := s } : Document).lineCount
  · rw [Document.lineIndent_natCast hn, Except.ok.injEq]
    constructor
    · rintro rfl
      obtain ⟨a, r, rfl, ha, rfl⟩ := exists_startsLine (s := s) (n := n) (by omega)
      exact ⟨a, r, rfl, ha, rfl, (Document.indentOf_eq rfl ha).symm⟩
    · rintro ⟨a, r, rfl, ha, rfl, rfl⟩
      exact Document.indentOf_eq rfl ha
  · constructor
    · intro h
      rw [Document.lineIndent, Document.lineStart_eq_error (Nat.not_lt.1 hn)] at h
      cases h
    · rintro ⟨a, r, rfl, -, rfl, -⟩
      have hle := (List.prefix_append a r).sublist.count_le '\n'
      omega

theorem indentedWith_iff : IndentedWith c s ↔
    ∀ a r, s = a ++ r → StartsLine a → ∀ x ∈ r.takeWhile isBlank, x = c := by
  constructor
  · intro h a r hs ha
    exact h _ _ (lineIndent_eq_ok_iff.2 ⟨a, r, hs, ha, rfl, rfl⟩)
  · intro h n indent hn
    obtain ⟨a, r, hs, ha, -, rfl⟩ := lineIndent_eq_ok_iff.1 hn
    exact h a r hs ha

theorem isIndented_iff :
    IsIndented s ↔ ∃ a r, s = a ++ r ∧ StartsLine a ∧ r.takeWhile isBlank ≠ [] := by
  constructor
  · rintro ⟨n, indent, hn, hne⟩
    obtain ⟨a, r, hs, ha, -, rfl⟩ := lineIndent_eq_ok_iff.1 hn
    exact ⟨a, r, hs, ha, hne⟩
  · rintro ⟨a, r, hs, ha, hne⟩
    exact ⟨_, _, lineIndent_eq_ok_iff.2 ⟨a, r, hs, ha, rfl, rfl⟩, hne⟩

theorem indentedWith_of_not_isIndented (h : ¬IsIndented s) (c : Char) : IndentedWith c s := by
  intro n indent hn x hx
  exact absurd ⟨n, indent, hn, List.ne_nil_of_mem hx⟩ h

/-! ## 2. A line break that is put in

Every line of the new text is a line of the old one, the first part of one, or the new line. -/

/-- Blanks that start a text end before a line feed that is put in behind it. -/
theorem takeWhile_append_newline (u y : List Char) :
    (u ++ '\n' :: y).takeWhile isBlank = u.takeWhile isBlank := by
  induction u with
  | nil => exact List.takeWhile_cons_of_neg (by decide)
  | cons c u ih => rw [List.cons_append, List.takeWhile_cons, List.takeWhile_cons, ih]

/-- The blanks that start a text are among those of every text that goes on from there, so a line
that is cut short has no other indent than it had. -/
theorem takeWhile_prefix_append (u y : List Char) :
    u.takeWhile isBlank <+: (u ++ y).takeWhile isBlank := by
  induction u with
  | nil => exact List.nil_prefix
  | cons c u ih =>
    rw [List.cons_append, List.takeWhile_cons, List.takeWhile_cons]
    split
    · exact List.cons_prefix_cons.2 ⟨rfl, ih⟩
    · exact List.nil_prefix

theorem startsLine_append_iff {x v : List Char} (hv : v ≠ []) :
    StartsLine (x ++ v) ↔ v.getLast? = some '\n' := by
  rw [StartsLine, List.getLast?_append_of_ne_nil x hv]
  exact or_iff_right (List.append_ne_nil_of_right_ne_nil x hv)

/-- The lines of a text in which a break was put are lines that start before the break, the new
line, and lines that start behind it. -/
theorem line_cases_of_insert {a y : List Char} (hi : '\n' ∉ i)
    (h : p ++ '\n' :: (i ++ r) = a ++ y) (ha : StartsLine a) :
    (∃ u, p = a ++ u ∧ y = u ++ '\n' :: (i ++ r)) ∨ (y = i ++ r) ∨
      ∃ u, StartsLine (p ++ u) ∧ r = u ++ y := by
  rcases List.append_eq_append_iff.1 h with ⟨v, rfl, hv⟩ | ⟨u, rfl, rfl⟩
  swap
  · exact .inl ⟨u, rfl, rfl⟩
  cases v with
  | nil => exact .inl ⟨[], by simp, by simpa using hv.symm⟩
  | cons d v =>
    obtain ⟨rfl, hrest⟩ := List.cons.inj hv
    -- what stands between the break and the start of the line is nothing, or ends with a line feed
    have hlast : v = [] ∨ v.getLast? = some '\n' := by
      by_cases hv : v = []
      · exact .inl hv
      · rw [startsLine_append_iff (List.cons_ne_nil _ _), List.getLast?_cons_of_ne_nil hv] at ha
        exact .inr ha
    rcases List.append_eq_append_iff.1 hrest with ⟨u, rfl, rfl⟩ | ⟨u, rfl, rfl⟩
    · by_cases hu : u = []
      · subst hu
        rw [List.append_nil] at hlast
        obtain rfl := hlast.resolve_right fun h => hi (List.mem_of_getLast? h)
        exact .inr (.inl rfl)
      · have hend := hlast.resolve_left (List.append_ne_nil_of_right_ne_nil i hu)
        rw [List.getLast?_append_of_ne_nil i hu] at hend
        exact .inr (.inr ⟨u, (startsLine_append_iff hu).2 hend, rfl⟩)
    · obtain rfl := hlast.resolve_right fun h =>
        hi (List.mem_append_left u (List.mem_of_getLast? h))
      exact .inr (.inl rfl)

/-- **A text stays indented with a character** when a line break is put in and the new line is
indented with it. -/
theorem IndentedWith.insert (h : IndentedWith c (p ++ r)) (hi : '\n' ∉ i)
    (hnew : ∀ x ∈ (i ++ r).takeWhile isBlank, x = c) :
    IndentedWith c (p ++ '\n' :: (i ++ r)) := by
  rw [indentedWith_iff] at h ⊢
  intro a y hs ha x hx
  rcases line_cases_of_insert hi hs ha with ⟨u, rfl, rfl⟩ | rfl | ⟨u, hu, rfl⟩
  · rw [takeWhile_append_newline] at hx
    refine h a (u ++ r) (List.append_assoc a u r) ha x ?_
    exact List.IsPrefix.subset (takeWhile_prefix_append u r) hx
  · exact hnew x hx
  · exact h (p ++ u) y (List.append_assoc p u y).symm hu x hx

/-- A text with indents keeps some when a line break is put in, if the line that it cuts off keeps
its indent. -/
theorem IsIndented.insert (h : IsIndented (p ++ r))
    (hnew : r.takeWhile isBlank ≠ [] → (i ++ r).takeWhile isBlank ≠ []) :
    IsIndented (p ++ '\n' :: (i ++ r)) := by
  rw [isIndented_iff] at h ⊢
  obtain ⟨a, y, hs, ha, hne⟩ := h
  have hline : r.takeWhile isBlank ≠ [] →
      ∃ a y, p ++ '\n' :: (i ++ r) = a ++ y ∧ StartsLine a ∧ y.takeWhile isBlank ≠ [] :=
    fun hr => ⟨p ++ ['\n'], i ++ r, by simp, startsLine_append_newline p, hnew hr⟩
  rcases List.append_eq_append_iff.1 hs with ⟨u, rfl, rfl⟩ | ⟨u, rfl, rfl⟩
  · by_cases hu : u = []
    · subst hu
      exact hline hne
    · rw [startsLine_append_iff hu] at ha
      refine ⟨p ++ '\n' :: (i ++ u), y, by simp, ?_, hne⟩
      rw [← List.cons_append, ← List.append_assoc]
      exact (startsLine_append_iff hu).2 ha
  · cases u with
    | nil => exact hline hne
    | cons d u =>
      refine ⟨a, d :: u ++ '\n' :: (i ++ r), List.append_assoc a _ _, ha, ?_⟩
      rw [takeWhile_append_newline]
      -- the line starts with a blank, before the break as well as without it
      by_cases hd : isBlank d = true
      · rw [List.takeWhile_cons_of_pos hd]
        exact List.cons_ne_nil d _
      · rw [List.cons_append, List.takeWhile_cons_of_neg hd] at hne
        exact absurd rfl hne

end Text

/-! ## 3. One more level

A level asks for the style of the indent and of the document.  If all indents are of one character,
then whatever it asks comes to this character. -/

namespace Text

/-- The lines of a text hold what stands behind the starts of lines. -/
theorem exists_mem_sourceLines_iff {x s : List Char} :
    (∃ l ∈ sourceLines s, l.content = x) ↔ ∃ a r, s = a ++ r ∧ StartsLine a ∧ untilBreak r = x := by
  constructor
  · rintro ⟨l, hl, rfl⟩
    obtain ⟨n, hn, hget⟩ := List.getElem_of_mem hl
    rw [length_sourceLines] at hn
    obtain ⟨a, r, rfl, ha, rfl⟩ := exists_startsLine (Nat.le_of_lt_succ hn)
    refine ⟨a, r, rfl, ha, ?_⟩
    rw [← lineContent_eq ha, lineContent, List.getElem?_eq_getElem (by rwa [length_sourceLines]),
      hget]
    rfl
  · rintro ⟨a, r, rfl, ha, rfl⟩
    obtain ⟨ls, hls, -, -⟩ := exists_sourceLines_append ha
    obtain ⟨br, ms, hr⟩ := exists_sourceLines_eq_cons r
    exact ⟨⟨untilBreak r, br⟩, by rw [hls, hr]; simp, rfl⟩

end Text

namespace Indent

variable {c : Char} {d : Document} {options : Options} {old : List Char}

/-- The indent that a document shows is that of one of its lines. -/
theorem exists_eq_ofDocument (h : ofDocument d ≠ []) :
    ∃ a r, d.text = a ++ r ∧ StartsLine a ∧ r.takeWhile isBlank = ofDocument d := by
  rw [ofDocument] at h ⊢
  cases hfind : ((sourceLines d.text).map (·.content.takeWhile isBlank)).find? (· ≠ []) with
  | none =>
    rw [hfind] at h
    exact absurd rfl h
  | some indent =>
    obtain ⟨l, hl, rfl⟩ := List.mem_map.1 (List.mem_of_find?_eq_some hfind)
    obtain ⟨a, r, hs, ha, hx⟩ := Text.exists_mem_sourceLines_iff.1 ⟨l, hl, rfl⟩
    refine ⟨a, r, hs, ha, ?_⟩
    rw [Option.getD_some, ← hx, Lexis.takeWhile_untilBreak]

/-- A document shows no indent exactly if no line is indented. -/
theorem ofDocument_eq_nil_iff : ofDocument d = [] ↔ ¬Text.IsIndented d.text := by
  rw [Text.isIndented_iff]
  constructor
  · rintro h ⟨a, r, hs, ha, hne⟩
    obtain ⟨l, hl, hx⟩ := Text.exists_mem_sourceLines_iff.2 ⟨a, r, hs, ha, rfl⟩
    rw [ofDocument] at h
    cases hfind : ((sourceLines d.text).map (·.content.takeWhile isBlank)).find? (· ≠ []) with
    | none =>
      rw [List.find?_eq_none] at hfind
      refine hfind _ (List.mem_map_of_mem hl) ?_
      rw [hx, Lexis.takeWhile_untilBreak]
      exact decide_eq_true hne
    | some indent =>
      rw [hfind, Option.getD_some] at h
      have hx := List.find?_some hfind
      exact absurd h (of_decide_eq_true hx)
  · intro h
    by_contra hne
    obtain ⟨a, r, hs, ha, hr⟩ := exists_eq_ofDocument hne
    exact h ⟨a, r, hs, ha, hr ▸ hne⟩

/-- The character of what was seen last is taken for the next level. -/
theorem levelChar_usesTabs {seen : List Char} (hc : isBlank c = true) (hseen : ∀ x ∈ seen, x = c)
    (hchoice : seen = [] → c = levelChar options.useTabs) :
    levelChar (usesTabs seen options) = c := by
  rw [usesTabs]
  cases hlast : seen.getLast? with
  | none => exact (hchoice (List.getLast?_eq_none_iff.1 hlast)).symm
  | some x =>
    rw [hseen x (List.mem_of_getLast? hlast)]
    simp only [isBlank, Bool.or_eq_true, decide_eq_true_eq] at hc
    rcases hc with rfl | rfl <;> rfl

/-- **A level is written with the character that the text is indented with**; where no line is
indented, the options choose it.  The indent of the line comes first, then the first indent of the
document. -/
theorem levelChar_eq (hc : isBlank c = true) (hd : Text.IndentedWith c d.text)
    (hchoice : ¬Text.IsIndented d.text → c = levelChar options.useTabs)
    (hold : ∀ x ∈ old, x = c) :
    levelChar (usesTabs (if old = [] then ofDocument d else old) options) = c := by
  by_cases h : old = []
  · rw [if_pos h]
    refine levelChar_usesTabs hc ?_ fun hnil => hchoice (ofDocument_eq_nil_iff.1 hnil)
    intro x hx
    obtain ⟨a, r, ht, ha, hr⟩ := exists_eq_ofDocument (List.ne_nil_of_mem hx)
    exact Text.indentedWith_iff.1 hd a r ht ha x (hr ▸ hx)
  · rw [if_neg h]
    exact levelChar_usesTabs hc hold fun hnil => absurd hnil h

end Indent

end SmartEnter
