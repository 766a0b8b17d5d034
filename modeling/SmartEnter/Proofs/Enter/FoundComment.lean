/-
# When a comment is found before the caret

The search before the caret passes over white space and line breaks, as far back as the start of the
line above.  If the line has anything but blanks behind the caret, the search ends at a line comment
in two cases (`comment_isSome_iff`):

* the caret is inside the comment (`InsideComment`);
* the comment ends the line above, and the line has only blanks before the caret (`BelowComment`).

The two exclude each other (`not_insideComment_of_belowComment`).

The first step is from tokens to lexemes, which can be taken apart and put together like any list:
the text is cut at the lexeme that covers the caret, and the comment is found if only layout stands
between the two (`comment_isSome_iff_lexemes`).  The second step is about that layout.  A line
comment goes on to the end of its line, so if anything stands behind it that is a break first; and
since the search does not go beyond the line above, there is one break in the layout and no more.

That the line goes on behind the caret is what makes this work.  A caret at the very end of a
comment is not inside it, and the comment is found all the same; but then nothing stands behind the
caret, and the decision is another one.
-/
import SmartEnter.Proofs.Document.Lines
import SmartEnter.Proofs.Enter.Press
import SmartEnter.Proofs.Language.Builtin
import SmartEnter.Proofs.Token.Layout
import SmartEnter.Proofs.Token.Nearest

namespace SmartEnter.Enter

open Lexeme (spell)
open Lexis (untilBreak)
open Text (isBlank isBreak)

/-- The place is strictly inside a line comment: behind the offset where the comment starts, and
before the one where it stops. -/
def InsideComment (language : Language) (d : Document) (n : Nat) : Prop :=
  ∃ t ∈ language.tokens d.text, t.kind = .lineComment ∧ t.start.offset < n ∧ n < t.stop.offset

/-- The line has only blanks before the place, and a line comment ends the line above. -/
structure BelowComment (language : Language) (d : Document) (n : Nat) : Prop where
  line_pos : 0 < d.lineNumber n
  blank : ∀ c ∈ Text.slice d.text (d.startOf (d.lineNumber n)) n, isBlank c = true
  comment : ∃ t ∈ language.tokens d.text,
    t.kind = .lineComment ∧ t.stop.offset = d.endOf (d.lineNumber n - 1)

/-- The line has more than blanks behind the place.  Its break does not count. -/
def HasRest (d : Document) (n : Nat) : Prop :=
  ∃ c ∈ Text.slice d.text n (d.endOf (d.lineNumber n)), isBlank c = false

theorem exists_append_of_le {u s : List Char} {n : Nat} (hu : u.length ≤ n)
    (hn : n ≤ (u ++ s).length) : ∃ x z, s = x ++ z ∧ n = (u ++ x).length := by
  refine ⟨s.take (n - u.length), s.drop (n - u.length), (List.take_append_drop _ s).symm, ?_⟩
  rw [List.length_append] at hn
  rw [List.length_append, List.length_take]
  omega

variable {language : Language} {d : Document} {n : Nat}

theorem HasRest.untilBreak_ne_nil (h : HasRest d n) (hle : n ≤ d.text.length) :
    untilBreak (d.text.drop n) ≠ [] := by
  obtain ⟨c, hc, -⟩ := h
  rw [Document.slice_endOf hle] at hc
  exact List.ne_nil_of_mem hc

/-! ## 1. The search among the lexemes

The lexeme that covers the place is the last one of a first part `A ++ [l]`.  The search goes back
through this part, over all kinds that do not count. -/

variable {A B : List Lexeme} {l : Lexeme}

/-- A place is inside a comment exactly if a lexeme of the text covers it and goes on behind it. -/
theorem insideComment_iff_lexemes :
    InsideComment language d n ↔
      ∃ A k B, language.lexis.lexemes d.text = A ++ k :: B ∧ k.kind = .lineComment ∧
        (spell A).length < n ∧ n < (spell (A ++ [k])).length := by
  constructor
  · rintro ⟨t, ht, hk, hstart, hstop⟩
    obtain ⟨A, k, B, hs, rfl⟩ :=
      Lexis.exists_lexeme_of_mem_tokens ht (by rw [hk]; decide)
    rw [Lexeme.start_behind] at hstart
    rw [Lexeme.stop_behind] at hstop
    exact ⟨A, k, B, hs, hk, hstart, hstop⟩
  · rintro ⟨A, k, B, hs, hk, hstart, hstop⟩
    refine ⟨k.behind A, Lexis.behind_mem_tokens hs, hk, ?_, ?_⟩
    · rwa [Lexeme.start_behind]
    · rwa [Lexeme.stop_behind]

/-- A comment is found exactly if it is followed by layout only, up to the lexeme that covers the
place, and does not start above the line above. -/
theorem comment_isSome_iff_lexemes (hl : language.Lawful) (hle : n ≤ d.text.length)
    (hs : language.lexis.lexemes d.text = A ++ l :: B) (hA : (spell A).length < n)
    (hn : n ≤ (spell (A ++ [l])).length) :
    ((Site.of language d n).comment language).isSome ↔
      ∃ A' k W, A ++ [l] = A' ++ k :: W ∧ k.kind = .lineComment ∧
        (∀ w ∈ W, w.kind ∈ [.ws, .newline]) ∧
        d.lineNumber n - 1 ≤ d.lineNumber ((spell A').length : Nat) := by
  have hlow : ∀ A' k W, A ++ [l] = A' ++ k :: W →
      ((d.startOf (d.lineNumber n - 1) : Int) ≤ (spell A').length ↔
        d.lineNumber n - 1 ≤ d.lineNumber ((spell A').length : Nat)) := by
    intro A' k W hW
    have htext : d.text = spell (A' ++ k :: W ++ B) := by
      rw [← hW, ← List.append_cons, ← hs, Lexis.spell_lexemes]
    have hlen : (spell A').length ≤ d.text.length := by
      rw [htext, List.append_assoc, Lexeme.spell_append, List.length_append]
      omega
    have hline := d.lineNumber_lt_lineCount hle
    rw [Int.ofNat_le, Document.startOf_le_iff (by omega) hlen]
  rw [Site.comment, Option.isSome_iff_exists]
  simp only [Option.filter_eq_some_iff, Site.of, hl.blanks_eq, hl.commentKind_eq,
    decide_eq_true_eq, Language.tokens]
  constructor
  · rintro ⟨t, ht, hk⟩
    obtain ⟨A', k, W, hW, rfl, -, hblanks, hstart⟩ :=
      (Lexis.nearest?_tokens_eq_some_iff hs hA hn).1 ht
    exact ⟨A', k, W, hW, hk, hblanks, (hlow A' k W hW).1 hstart⟩
  · rintro ⟨A', k, W, hW, hk, hblanks, hline⟩
    refine ⟨_, (Lexis.nearest?_tokens_eq_some_iff hs hA hn).2
      ⟨A', k, W, hW, rfl, ?_, hblanks, (hlow A' k W hW).2 hline⟩, hk⟩
    rw [hk]
    decide

/-! ## 2. The two cases

Each case on its own: around a place, the comment is the lexeme that covers it; above a place,
layout is all that stands between. -/

theorem comment_isSome_of_insideComment (hl : language.Lawful) (hle : n ≤ d.text.length)
    (h : InsideComment language d n) :
    ((Site.of language d n).comment language).isSome := by
  obtain ⟨A, k, B, hs, hk, hstart, hstop⟩ := insideComment_iff_lexemes.1 h
  refine (comment_isSome_iff_lexemes hl hle hs hstart (Nat.le_of_lt hstop)).2
    ⟨A, k, [], rfl, hk, nofun, ?_⟩
  -- no line starts inside the comment
  have hr := Lexis.reads_of_lexemes hs
  obtain ⟨⟨hnl, -⟩, -⟩ := hr.unbroken_of_lineComment hk
  have htext : d.text = spell A ++ (k.text ++ spell B) := by
    rw [(Lexis.lexemes_eq_append hs).1, Lexeme.spell_cons]
  have hcount : (k.text.take (n - (spell A).length)).count '\n' = 0 :=
    List.count_eq_zero.2 fun hm => hnl (List.mem_of_mem_take hm)
  have htake : d.text.take n = spell A ++ k.text.take (n - (spell A).length) := by
    rw [Lexeme.spell_append, Lexeme.spell_cons, Lexeme.spell_nil, List.append_nil,
      List.length_append] at hstop
    rw [htext, List.take_append, List.take_of_length_le (Nat.le_of_lt hstart),
      List.take_append_of_le_length (by omega)]
  rw [Document.lineNumber_eq_count hle, htake, List.count_append, hcount,
    Document.lineNumber_length htext]
  omega

/-- A place behind a break and layout has only blanks before it on its line, since layout without a
break is blanks. -/
theorem slice_isBlank_of_layout {p x z r : List Char} (ht : d.text = p ++ x ++ (z ++ r))
    (hx : '\n' ∈ x) (hlayout : Lexis.IsLayout (x ++ z)) (hz : (z ++ r).head? ≠ some '\n') :
    ∀ c ∈ Text.slice d.text (d.startOf (d.lineNumber ((p ++ x).length : Nat)))
      ((p ++ x).length : Nat), isBlank c = true := by
  obtain ⟨a, b, rfl, ha, hb⟩ := exists_startsLine_append x
  have hpa : StartsLine (p ++ a) := by
    refine .inr ?_
    rcases ha with rfl | ha
    · exact absurd hx hb
    · rw [List.getLast?_append, ha]
      rfl
  have ht' : d.text = p ++ a ++ b ++ (z ++ r) := by
    rw [ht]
    simp only [List.append_assoc]
  rw [← List.append_assoc, Document.slice_startOf ht' hpa hb]
  refine hlayout.isBlank hb fun hn => hz ?_
  rw [List.head?_append, hn]
  rfl

/-- A line comment and a text with line feeds behind it: the comment is on the line that it ends. -/
theorem lineNumber_behind_comment {A B : List Lexeme} {k : Lexeme} {x r : List Char}
    (hs : language.lexis.lexemes d.text = A ++ k :: B) (hk : k.kind = .lineComment)
    (hB : spell B = x ++ r) :
    d.lineNumber ((spell A ++ k.text ++ x).length : Nat) =
        d.lineNumber ((spell A).length : Nat) + x.count '\n' ∧
      d.lineNumber ((spell A ++ k.text).length : Nat) = d.lineNumber ((spell A).length : Nat) := by
  have hnl := ((Lexis.reads_of_lexemes hs).unbroken_of_lineComment hk).1.1
  have hstart : d.text = spell A ++ (k.text ++ (x ++ r)) := by
    rw [(Lexis.lexemes_eq_append hs).1, Lexeme.spell_cons, hB]
  have hstop : d.text = spell A ++ k.text ++ (x ++ r) := by
    rw [hstart, List.append_assoc]
  have hbehind : d.text = spell A ++ k.text ++ x ++ r := by
    rw [hstop, List.append_assoc _ x]
  rw [Document.lineNumber_length hbehind, Document.lineNumber_length hstop,
    Document.lineNumber_length hstart, List.count_append, List.count_append,
    List.count_eq_zero.2 hnl]
  exact ⟨rfl, rfl⟩

/-- If layout is all that is between a comment and the place, the place is on the line below. -/
theorem belowComment_of_layout (hle : n ≤ d.text.length) (hrest : HasRest d n)
    {A B W : List Lexeme} {k : Lexeme} (hs : language.lexis.lexemes d.text = A ++ k :: (W ++ B))
    (hk : k.kind = .lineComment) (hW : ∀ w ∈ W, w.kind ∈ [.ws, .newline])
    (hA : (spell (A ++ [k])).length < n) (hn : n ≤ (spell (A ++ k :: W)).length)
    (hline : d.lineNumber n - 1 ≤ d.lineNumber ((spell A).length : Nat)) :
    BelowComment language d n := by
  obtain ⟨hu, hy⟩ := (Lexis.reads_of_lexemes hs).unbroken_of_lineComment hk
  have hlayout : Lexis.IsLayout (spell W) :=
    Lexis.isLayout_spell (A := A ++ [k]) (B := B) (by rw [hs]; simp) hW
  -- the part of the layout that is before the place, and the rest of it
  rw [Lexeme.spell_concat] at hA
  rw [List.append_cons, Lexeme.spell_append, Lexeme.spell_concat] at hn
  obtain ⟨x, z, hxz, hx⟩ := exists_append_of_le (Nat.le_of_lt hA) hn
  have hB : spell (W ++ B) = x ++ (z ++ spell B) := by
    rw [Lexeme.spell_append, hxz, List.append_assoc]
  have htext : d.text = spell A ++ k.text ++ x ++ (z ++ spell B) := by
    rw [(Lexis.lexemes_eq_append hs).1, Lexeme.spell_cons, hB]
    simp only [List.append_assoc]
  rw [hB] at hu hy
  have hne : x ≠ [] := by
    rintro rfl
    rw [List.append_nil] at hx
    exact absurd hx.symm (Nat.ne_of_lt hA)
  have hz : (z ++ spell B).head? ≠ some '\n' := by
    refine Lexis.head?_ne_of_untilBreak_ne_nil ?_
    have := hrest.untilBreak_ne_nil hle
    rwa [htext, hx, List.drop_left] at this
  have hmem : '\n' ∈ x := by
    refine Text.newline_mem_of_isBreak hne ?_ hz
    exact (Lexis.untilBreak_eq_nil_iff.1 hy).resolve_left
      (List.append_ne_nil_of_left_ne_nil hne _)
  -- the place is on the line below the comment
  obtain ⟨hbehind, hstop⟩ := lineNumber_behind_comment hs hk hB
  have hcount : 0 < x.count '\n' := List.count_pos_iff.2 hmem
  have hline' : d.lineNumber n = d.lineNumber ((spell A ++ k.text).length : Nat) + 1 := by
    rw [hx] at hline ⊢
    omega
  subst hx
  refine ⟨by omega, slice_isBlank_of_layout htext hmem (hxz ▸ hlayout) hz, k.behind A,
    Lexis.behind_mem_tokens hs, hk, ?_⟩
  rw [List.append_assoc] at htext
  rw [hline', Nat.add_sub_cancel, Document.endOf_lineNumber htext ?_, hy, Lexeme.stop_behind,
    Lexeme.spell_concat, List.length_nil, Nat.add_zero]
  exact hu.joint (Lexis.reads_of_lexemes hs).text_ne_nil

/-- A line comment that something stands behind is ended by a line break: it would have taken
everything else. -/
theorem exists_break_behind_comment {A B : List Lexeme} {k : Lexeme}
    (hs : language.lexis.lexemes d.text = A ++ k :: B) (hk : k.kind = .lineComment)
    (hB : spell B ≠ []) :
    ∃ br y, (br = ['\n'] ∨ br = ['\r', '\n']) ∧ spell B = br ++ y := by
  have hy := ((Lexis.reads_of_lexemes hs).unbroken_of_lineComment hk).2
  cases B with
  | nil => exact absurd rfl hB
  | cons w B =>
    have hw : language.lexis.Reads w (spell B) :=
      Lexis.reads_of_lexemes (A := A ++ [k]) (by rw [hs]; simp)
    have hbreak := (Lexis.untilBreak_eq_nil_iff.1 hy).resolve_left hB
    exact ⟨w.text, spell B, hw.text_of_newline (hw.kind_of_isBreak hbreak), rfl⟩

/-- Between a comment and a place below it stands a text with one line feed. -/
theorem BelowComment.exists_cut (hle : n ≤ d.text.length) (h : BelowComment language d n) :
    ∃ A k B x r, language.lexis.lexemes d.text = A ++ k :: B ∧ k.kind = .lineComment ∧
      spell B = x ++ r ∧ n = (spell A ++ k.text ++ x).length ∧ x.count '\n' = 1 := by
  obtain ⟨hpos, -, t, ht, hk, hstop⟩ := h
  obtain ⟨A, k, B, hs, rfl⟩ := Lexis.exists_lexeme_of_mem_tokens ht (by rw [hk]; decide)
  rw [Lexeme.stop_behind, Lexeme.spell_concat] at hstop
  have htext : d.text = spell A ++ k.text ++ spell B := by
    rw [(Lexis.lexemes_eq_append hs).1, Lexeme.spell_cons, List.append_assoc]
  have hline : d.lineNumber n = d.lineNumber ((spell A ++ k.text).length : Nat) + 1 := by
    have hlast := d.lineNumber_lt_lineCount hle
    rw [hstop, Document.lineNumber_endOf (by omega)]
    omega
  have hlt : (spell A ++ k.text).length ≤ n := by
    rw [← Nat.not_lt]
    intro hlt
    have hmono := Document.lineNumber_mono (d := d) (Nat.le_of_lt hlt)
      (by rw [htext]; exact (List.prefix_append (spell A ++ k.text) _).length_le)
    omega
  rw [htext] at hle
  obtain ⟨x, r, hxr, rfl⟩ := exists_append_of_le hlt hle
  obtain ⟨hbehind, hcomment⟩ := lineNumber_behind_comment hs hk hxr
  exact ⟨A, k, B, x, r, hs, hk, hxr, rfl, by omega⟩

/-- The text around a place on the line below a comment: the comment, a line break, blanks.  Nothing
else fits between the two lines. -/
theorem BelowComment.exists_text (hle : n ≤ d.text.length) (h : BelowComment language d n) :
    ∃ A k B br b r, language.lexis.lexemes d.text = A ++ k :: B ∧ k.kind = .lineComment ∧
      (br = ['\n'] ∨ br = ['\r', '\n']) ∧ (∀ c ∈ b, isBlank c = true) ∧
      spell B = br ++ (b ++ r) ∧ n = (spell A ++ k.text ++ (br ++ b)).length := by
  obtain ⟨A, k, B, x, r, hs, hk, hxr, rfl, hcount⟩ := h.exists_cut hle
  have hx : '\n' ∈ x := List.count_pos_iff.1 (by omega)
  -- the line feed belongs to the whole break that ends the comment
  obtain ⟨br, y, hbr, hB⟩ := exists_break_behind_comment hs hk
    (by rw [hxr]; exact List.append_ne_nil_of_left_ne_nil (List.ne_nil_of_mem hx) r)
  obtain ⟨b, rfl, rfl⟩ := Text.exists_append_of_break hbr (hB.symm.trans hxr) hx
  refine ⟨A, k, B, br, b, r, hs, hk, hbr, ?_, hB, rfl⟩
  have hnlb : '\n' ∉ b := by
    rw [List.count_append, Text.count_break hbr] at hcount
    exact List.count_eq_zero.1 (by omega)
  have hstart : StartsLine (spell A ++ k.text ++ br) := by
    refine .inr ?_
    rw [List.getLast?_append]
    rcases hbr with rfl | rfl <;> rfl
  have htext : d.text = spell A ++ k.text ++ br ++ b ++ r := by
    rw [(Lexis.lexemes_eq_append hs).1, Lexeme.spell_cons, hB]
    simp only [List.append_assoc]
  have hblank := h.blank
  rwa [← List.append_assoc, Document.slice_startOf htext hstart hnlb] at hblank

/-- The place below a comment is covered by layout, with nothing but layout up to the comment. -/
theorem BelowComment.exists_layout (hle : n ≤ d.text.length) (h : BelowComment language d n) :
    ∃ A k W l B, language.lexis.lexemes d.text = A ++ k :: W ++ l :: B ∧ k.kind = .lineComment ∧
      (∀ w ∈ W ++ [l], w.kind ∈ [.ws, .newline]) ∧ (spell (A ++ k :: W)).length < n ∧
      n ≤ (spell (A ++ k :: W ++ [l])).length ∧
      d.lineNumber n = d.lineNumber ((spell A).length : Nat) + 1 := by
  obtain ⟨A, k, B, br, b, r, hs, hk, hbr, hb, hB, rfl⟩ := h.exists_text hle
  obtain ⟨W, l, B', hlex, hW, hA, hn⟩ := language.lexis.exists_layout_covering hbr hb r
  rw [← hB, (Lexis.lexemes_eq_append (A := A ++ [k]) (by rw [hs]; simp)).2] at hlex
  refine ⟨A, k, W, l, B', by rw [hs, hlex]; simp, hk, hW, ?_, ?_, ?_⟩
  · simp only [Lexeme.spell_append, Lexeme.spell_cons, List.length_append] at hA ⊢
    omega
  · simp only [Lexeme.spell_append, Lexeme.spell_cons, List.length_append] at hn ⊢
    omega
  · rw [← List.append_assoc] at hB
    rw [(lineNumber_behind_comment hs hk hB).1, List.count_append, Text.count_break hbr,
      Text.count_of_isBlank hb]

/-- A comment that ends the line above is found over the blanks before a place. -/
theorem comment_isSome_of_belowComment (hl : language.Lawful) (hle : n ≤ d.text.length)
    (h : BelowComment language d n) :
    ((Site.of language d n).comment language).isSome := by
  obtain ⟨A, k, W, l, B, hs, hk, hW, hA, hn, hline⟩ := h.exists_layout hle
  refine (comment_isSome_iff_lexemes hl hle hs hA hn).2 ⟨A, k, W ++ [l], by simp, hk, hW, ?_⟩
  omega

theorem not_insideComment_of_belowComment (hle : n ≤ d.text.length)
    (h : BelowComment language d n) : ¬InsideComment language d n := by
  intro hinside
  obtain ⟨A, k, W, l, B, hs, -, hW, hA, hn, -⟩ := h.exists_layout hle
  obtain ⟨A', k', B', hs', hk', hstart, hstop⟩ := insideComment_iff_lexemes.1 hinside
  -- only the layout covers the place
  obtain ⟨-, rfl, -⟩ := Lexeme.covering_unique (hs.symm.trans hs') hA hn hstart
    (Nat.le_of_lt hstop)
  have hkind := hW l (List.mem_append_right W List.mem_cons_self)
  rw [hk'] at hkind
  exact absurd hkind (by decide)

/-- **When a comment is found.**  If the line goes on behind the caret, the search before the caret
ends at a line comment exactly if the caret is inside the comment, or on the line below it with only
blanks before. -/
theorem comment_isSome_iff (hl : language.Lawful) (hpos : 0 < n) (hle : n ≤ d.text.length)
    (hrest : HasRest d n) :
    ((Site.of language d n).comment language).isSome ↔
      InsideComment language d n ∨ BelowComment language d n := by
  refine ⟨fun h => ?_, ?_⟩
  · obtain ⟨A, l, B, hs, hA, hn⟩ := language.lexis.exists_covering hpos hle
    obtain ⟨A', k, W, hW, hk, hlayout, hline⟩ := (comment_isSome_iff_lexemes hl hle hs hA hn).1 h
    rcases Lexeme.eq_last_or_of_concat_eq hW with ⟨rfl, rfl, rfl⟩ | ⟨W', rfl, rfl⟩
    · -- behind the comment nothing would be left of the line
      have hne : n ≠ (spell (A ++ [l])).length := by
        rintro rfl
        have hy := ((Lexis.reads_of_lexemes hs).unbroken_of_lineComment hk).2
        have hrest' := hrest.untilBreak_ne_nil hle
        rw [(Lexis.lexemes_eq_append hs).1, Lexeme.spell_cons, ← List.append_assoc,
          ← Lexeme.spell_concat, List.drop_left] at hrest'
        exact hrest' hy
      exact .inl (insideComment_iff_lexemes.2 ⟨A, l, B, hs, hk, hA, Nat.lt_of_le_of_ne hn hne⟩)
    · refine .inr (belowComment_of_layout hle hrest (A := A') (W := W' ++ [l]) (B := B) (k := k)
        ?_ hk hlayout ?_ ?_ hline)
      · rw [hs]
        simp
      · refine Nat.lt_of_le_of_lt ?_ hA
        simp only [Lexeme.spell_append, Lexeme.spell_cons, Lexeme.spell_nil, List.append_nil,
          List.length_append]
        omega
      · simpa using hn
  · rintro (h | h)
    · exact comment_isSome_of_insideComment hl hle h
    · exact comment_isSome_of_belowComment hl hle h

end SmartEnter.Enter
