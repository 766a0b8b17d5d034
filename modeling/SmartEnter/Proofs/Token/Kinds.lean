/-
# What lexemes of a kind look like

A lexeme tells by its kind what its text is and what may follow it.  The three kinds that a line is
laid out with are treated here.

* A line break is a line feed, or a carriage return and a line feed (`Reads.text_of_newline`), and
  wherever a line breaks such a lexeme is read (`Reads.kind_of_isBreak`).
* White space is made of blanks (`Reads.isBlank_of_ws`), and is as long as it can be
  (`lexemes_blanks`).
* A line comment starts with one of its markers (`Reads.startsLineComment`) and goes on to the end
  of its line (`Reads.unbroken_of_lineComment`), and such a text is a line comment
  (`reads_lineComment`).

Of the other kinds only one thing is needed: where a comment starts inside a run of operators, the
run ends, and it does so whatever stands behind the comment (`Reads.operatorTail_eq_nil`).
-/
import SmartEnter.Proofs.Token.Seam

namespace SmartEnter

open Text (isBlank isBreak isBreak_cons_iff Unbroken unbroken_cons_iff)

namespace Lexis

variable {L : Lexis} {l : Lexeme} {y : List Char}

/-! ## 1. Layout

White space and line breaks, the lexemes that a language leaves out when it asks for the last
token. -/

theorem Reads.text_of_newline (h : L.Reads l y) (hk : l.kind = .newline) :
    l.text = ['\n'] ∨ l.text = ['\r', '\n'] := by
  obtain ⟨c, rest, t, ht, -, hb⟩ := reads_iff_branch.1 h
  rw [hk] at hb
  cases hb with
  | delimiter _ _ hd => exact absurd (by decide) (kind_of_delimiter hd)
  | newline hb =>
    rcases isBreak_cons_iff.1 hb with rfl | ⟨rfl, -⟩
    · exact .inl ht
    · exact .inr ht

/-- Where a line breaks, a line break is read.  This is the first branch, so nothing else can be
read there. -/
theorem Reads.kind_of_isBreak (h : L.Reads l y) (hb : isBreak (l.text ++ y) = true) :
    l.kind = .newline := by
  obtain ⟨c, t, ht, hn⟩ := h
  rw [ht, List.cons_append] at hb
  have hbranch : Branch L c (t ++ y) .newline (if c = '\n' then [] else ['\n']) := .newline hb
  exact (Prod.mk.inj (hn.symm.trans hbranch.next_eq)).1

/-- If a line breaks where a lexeme starts, it breaks there whatever follows the lexeme. -/
theorem Reads.untilBreak_eq_nil (h : L.Reads l y) (hu : untilBreak (l.text ++ y) = [])
    (y' : List Char) : untilBreak (l.text ++ y') = [] := by
  rw [untilBreak_eq_nil_iff] at hu ⊢
  rcases hu with hu | hb
  · exact absurd (List.append_eq_nil_iff.1 hu).1 h.text_ne_nil
  · rcases h.text_of_newline (h.kind_of_isBreak hb) with ht | ht <;> rw [ht] <;> exact .inr rfl

theorem Reads.isBlank_of_ws (h : L.Reads l y) (hk : l.kind = .ws) :
    ∀ c ∈ l.text, isBlank c = true := by
  obtain ⟨c, rest, t, ht, -, hb⟩ := reads_iff_branch.1 h
  rw [hk] at hb
  cases hb with
  | delimiter _ _ hd => exact absurd (by decide) (kind_of_delimiter hd)
  | ws hb hw =>
    rw [ht]
    intro d hd
    rcases List.mem_cons.1 hd with rfl | hd
    · exact hw
    · exact List.all_eq_true.1 List.all_takeWhile d hd

/-- Blanks before something else are one lexeme, together with all blanks that stand there
already. -/
theorem lexemes_blanks {b : List Char} (hne : b ≠ []) (hb : ∀ c ∈ b, isBlank c = true)
    (s : List Char) :
    L.lexemes (b ++ s) =
      ⟨.ws, b ++ s.takeWhile isBlank⟩ :: L.lexemes (s.dropWhile isBlank) := by
  cases b with
  | nil => exact absurd rfl hne
  | cons c b =>
    have hbr : Branch L c (b ++ s) .ws ((b ++ s).takeWhile isBlank) :=
      .ws (Text.isBreak_of_isBlank (hb c List.mem_cons_self) _) (hb c List.mem_cons_self)
    have htake : (b ++ s).takeWhile isBlank = b ++ s.takeWhile isBlank :=
      List.takeWhile_append_of_pos fun d hd => hb d (List.mem_cons_of_mem _ hd)
    have hreads : L.Reads ⟨.ws, c :: b ++ s.takeWhile isBlank⟩ (s.dropWhile isBlank) := by
      refine ⟨c, b ++ s.takeWhile isBlank, rfl, ?_⟩
      rw [List.append_assoc, List.takeWhile_append_dropWhile, hbr.next_eq, htake]
    have := hreads.lexemes_append
    rwa [List.append_assoc, List.takeWhile_append_dropWhile] at this

/-! ## 2. Line comments

What a line comment starts with is seen in its text alone, and where it ends is seen in the text
behind it.  The converse holds, too, so comments can be put in and found again. -/

theorem Reads.startsLineComment (hL : L.Regular) (h : L.Reads l y) (hk : l.kind = .lineComment) :
    L.startsLineComment l.text = true := by
  obtain ⟨c, rest, t, ht, -, hb⟩ := reads_iff_branch.1 h
  rw [hk] at hb
  cases hb with
  | delimiter _ _ hd => exact absurd (by decide) (kind_of_delimiter hd)
  | lineComment hb hw hl =>
    rw [ht]
    exact startsLineComment_iff.2 (exists_marker hL hb hl)

/-- **A line comment goes on to the end of its line**: it has no part of a break, and what stands
behind it is a break or nothing. -/
theorem Reads.unbroken_of_lineComment (h : L.Reads l y) (hk : l.kind = .lineComment) :
    Unbroken l.text y ∧ untilBreak y = [] := by
  obtain ⟨c, rest, t, ht, hr, hb⟩ := reads_iff_branch.1 h
  rw [hk] at hb
  cases hb with
  | delimiter _ _ hd => exact absurd (by decide) (kind_of_delimiter hd)
  | lineComment hb hw hl =>
    have hself : untilBreak (untilBreak rest ++ y) = untilBreak rest := by rw [← hr]
    have hu := unbroken_of_untilBreak hself
    rw [hr] at hb
    rw [untilBreak_append hu] at hself
    exact ⟨by rw [ht]; exact unbroken_cons_iff.2 ⟨hb, hu⟩, List.append_right_eq_self.1 hself⟩

/-- A text that starts like a line comment and goes on to the end of its line is one. -/
theorem reads_lineComment {w : List Char} (hw : ∃ c t, w = c :: t ∧ isBlank c = false)
    (hl : L.startsLineComment w = true) (hu : Unbroken w y) (hy : untilBreak y = []) :
    L.Reads ⟨.lineComment, w⟩ y := by
  obtain ⟨c, t, rfl, hc⟩ := hw
  obtain ⟨hb, ht⟩ := unbroken_cons_iff.1 hu
  obtain ⟨m, hm, hp⟩ := startsLineComment_iff.1 hl
  have hl' : L.startsLineComment (c :: (t ++ y)) = true :=
    startsLineComment_iff.2 ⟨m, hm, hp.trans (List.prefix_append (c :: t) y)⟩
  refine reads_iff_branch.2 ⟨c, t ++ y, t, rfl, rfl, (Branch.lineComment hb hc hl').congr ?_⟩
  rw [untilBreak_append ht, hy, List.append_nil]

/-- A text that starts like a line comment is read as one, up to the next break. -/
theorem lexemes_lineComment {w : List Char} (hw : ∃ c t, w = c :: t ∧ isBlank c = false)
    (hl : L.startsLineComment w = true) (hu : Unbroken w y) :
    ∃ B, L.lexemes (w ++ y) = ⟨.lineComment, w ++ untilBreak y⟩ :: B := by
  obtain ⟨z, hyz, huz, hz⟩ := exists_eq_untilBreak_append y
  obtain ⟨m, hm, hp⟩ := startsLineComment_iff.1 hl
  have hr : L.Reads ⟨.lineComment, w ++ untilBreak y⟩ z := by
    refine reads_lineComment ?_ ?_ ?_ hz
    · obtain ⟨c, t, rfl, hc⟩ := hw
      exact ⟨c, t ++ untilBreak y, rfl, hc⟩
    · exact startsLineComment_iff.2 ⟨m, hm, hp.trans (List.prefix_append w _)⟩
    · rw [hyz] at hu
      exact hu.append huz
  refine ⟨L.lexemes z, ?_⟩
  rw [← hr.lexemes_append, List.append_assoc, ← hyz]

/-! ## 3. Starting a comment

A comment that starts at a lexeme is seen in the text of the lexeme, because its marker opens within
a line and the lexeme is the comment. -/

theorem not_layout_of_isOperatorChar {c : Char} (h : Token.isOperatorChar c = true)
    (s : List Char) : isBreak (c :: s) = false ∧ isBlank c = false := by
  constructor
  · rw [← Bool.not_eq_true, isBreak_cons_iff]
    rintro (rfl | ⟨rfl, -⟩) <;> cases h
  · rw [← Bool.not_eq_true]
    intro hb
    simp only [isBlank, Bool.or_eq_true, decide_eq_true_eq] at hb
    rcases hb with rfl | rfl <;> cases h

/-- If a comment starts where a lexeme does, the lexeme is a comment, and one starts there whatever
follows. -/
theorem Reads.startsComment (hL : L.Regular) {c : Char} {t : List Char} (h : L.Reads l y)
    (ht : l.text = c :: t) (hop : Token.isOperatorChar c = true) (y' : List Char)
    (hc : L.startsLineComment (c :: (t ++ y)) = true ∨
      L.startsBlockComment (c :: (t ++ y)) = true) :
    L.startsLineComment (c :: (t ++ y')) = true ∨ L.startsBlockComment (c :: (t ++ y')) = true := by
  obtain ⟨d, rest, u, hu, hr, hb⟩ := reads_iff_branch.1 h
  obtain ⟨rfl, rfl⟩ := List.cons.inj (ht.symm.trans hu)
  rw [← hr] at hc
  obtain ⟨hbreak, hblank⟩ := not_layout_of_isOperatorChar hop rest
  have hcode : ¬L.StartsCode c rest := by
    intro h
    rw [h.noLineComment, h.noBlockComment] at hc
    simp at hc
  generalize hk : l.kind = k at hb
  cases hb with
  | newline hb => rw [hbreak] at hb; cases hb
  | ws _ hw => rw [hblank] at hw; cases hw
  | lineComment hb hw hl =>
    obtain ⟨m, hm, hp⟩ := exists_marker hL hb hl
    exact .inl (startsLineComment_iff.2 ⟨m, hm, hp.trans (List.prefix_append _ y')⟩)
  | blockComment hb hw hl ho =>
    obtain ⟨m, closer, s, hm, -, htext⟩ := exists_blockCommentText hL ho
    refine .inr (startsBlockComment_iff.2 ⟨m, closer, hm, ?_⟩)
    rw [← List.cons_append, htext, List.append_assoc]
    exact List.prefix_append m _
  | string h _ => exact absurd h hcode
  | delimiter h _ _ => exact absurd h hcode
  | identifier h _ => exact absurd h.toStartsCode hcode
  | number h _ _ => exact absurd h.toStartsCode hcode
  | operator h _ _ _ => exact absurd h.toStartsCode hcode
  | text h _ _ _ => exact absurd h.toStartsCode hcode

theorem operatorTail_eq_nil_iff {c : Char} {s : List Char} :
    L.operatorTail (c :: s) = [] ↔ (Token.isOperatorChar c = true →
      L.startsLineComment (c :: s) = true ∨ L.startsBlockComment (c :: s) = true) := by
  rw [operatorTail]
  split
  · next h =>
    simp only [Bool.and_eq_true, Bool.not_eq_true'] at h
    simp [h.1.1, h.1.2, h.2]
  · next h =>
    simp only [Bool.and_eq_true, Bool.not_eq_true', not_and, Bool.not_eq_false] at h
    refine ⟨fun _ ho => ?_, fun _ => rfl⟩
    by_cases hl : L.startsLineComment (c :: s) = true
    · exact .inl hl
    · exact .inr (h ⟨ho, Bool.not_eq_true _ ▸ hl⟩)

/-- A run of operators that breaks off before a lexeme breaks off there whatever follows it. -/
theorem Reads.operatorTail_eq_nil (hL : L.Regular) (h : L.Reads l y)
    (ho : L.operatorTail (l.text ++ y) = []) (y' : List Char) :
    L.operatorTail (l.text ++ y') = [] := by
  cases ht : l.text with
  | nil => exact absurd ht h.text_ne_nil
  | cons c t =>
    rw [ht, List.cons_append, operatorTail_eq_nil_iff] at ho
    rw [List.cons_append, operatorTail_eq_nil_iff]
    intro hc
    exact h.startsComment hL ht hc y' (ho hc)

end Lexis

end SmartEnter
