/-
# The caret on a line that Enter made

After a press that put something in, the caret stands on a new line.  Three facts about the site
there tell what the next press does.

* If a comment was split, the next press splits it again (`Row.Applies.split_again`): the opener
  that was put in is read as the start of a comment.
* If the line above has nothing but layout, no token is found (`token_eq_none`), so nothing asks for
  another indent.
* If the caret was on the line below a comment, its line had nothing but layout before it
  (`Row.Applies.layout_of_below`), and the line above has nothing more after the press.

For the first fact no block comment may go over the line feed that was put in, or the opener behind
it would be part of that comment.  This is where the form of block comments comes in: they open with
two characters in all built-in languages (`Language.opensWithTwo_of_mem_builtin`).
-/
import SmartEnter.Proofs.Enter.Alike
import SmartEnter.Proofs.Enter.SplitComment
import SmartEnter.Proofs.Token.NewBreak

namespace SmartEnter

open Lexeme (spell)
open Lexis (untilBreak IsLayout)
open Text (isBlank Unbroken)

/-- Block comments of a built-in language open with two characters, which a line feed cannot be one
of. -/
theorem Language.opensWithTwo_of_mem_builtin {language : Language} (h : language ∈ builtin) :
    language.lexis.OpensWithTwo := by
  refine ⟨(lawful_of_mem_builtin h).short, ?_⟩
  intro m q hm
  rw [(blockComment_of_mem_builtin h hm).1]
  rfl

namespace Lexis

variable {L : Lexis} {w : List Char}

/-- A lexeme that starts in layout is white space or a line break.  It may be longer than the
layout, but its first character says of which kind it is. -/
theorem Reads.kind_of_isLayout {l : Lexeme} {y z : List Char} (h : L.Reads l y)
    (hw : l.text ++ y = w ++ z) (hne : w ≠ []) (hlayout : IsLayout w) :
    l.kind ∈ [.ws, .newline] := by
  cases w with
  | nil => exact absurd rfl hne
  | cons c w =>
    obtain ⟨d, t, ht, -⟩ := id h
    have hd : d = c := by
      rw [ht] at hw
      exact (List.cons.inj hw).1
    subst hd
    have hbreak : Text.isBreak (d :: (w ++ z)) = true → l.kind = .newline := by
      intro hb
      refine h.kind_of_isBreak ?_
      rw [hw]
      exact hb
    rcases hlayout [] d w rfl with hblank | rfl | ⟨rfl, hn⟩
    · simp [h.kind_of_isBlank ht hblank]
    · simp [hbreak rfl]
    · cases w with
      | nil => cases hn
      | cons e w =>
        obtain rfl := Option.some.inj hn
        simp [hbreak rfl]

end Lexis

namespace Enter

variable {language : Language} {formatters : Formatters} {d d' : Document} {a b p r x : List Char}

/-! ## 1. No token on two lines of layout

The token before the caret is looked for on the line of the caret and on the line above.  So it is
enough that these two hold nothing but layout, whatever comes before them. -/

/-- **No token is found on two lines of layout.**  The lexeme that covers the caret's line may have
started further up, as a block comment may; then it starts too far up to be looked at. -/
theorem Site.token_eq_none (hl : language.Lawful) (h : d.text = a ++ (x ++ '\n' :: b) ++ r)
    (ha : StartsLine a) (hx : '\n' ∉ x) (hb : '\n' ∉ b) (hlayout : IsLayout (x ++ '\n' :: b)) :
    (Site.of language d ((a ++ (x ++ '\n' :: b)).length : Nat)).token = none := by
  have hsecond : d.text = a ++ x ++ ['\n'] ++ b ++ r := by
    rw [h]
    simp
  have hline : d.lineNumber ((a ++ (x ++ '\n' :: b)).length : Nat) = a.count '\n' + 1 := by
    have hline := Document.lineNumber_eq hsecond hb
    rw [List.count_append, List.count_append, List.count_eq_zero.2 hx,
      List.count_singleton_self] at hline
    simpa using hline
  cases htoken : (Site.of language d ((a ++ (x ++ '\n' :: b)).length : Nat)).token with
  | none => rfl
  | some t =>
    -- a token before the caret would start in the layout, where there are only blanks and breaks
    exfalso
    obtain ⟨hmem, hlow, hstart, hkind⟩ := Site.mem_of_token htoken
    rw [hline, Nat.add_sub_cancel,
      Document.startOf_eq (h.trans (List.append_assoc a _ r)) ha] at hlow
    rw [hl.blanks_eq] at hkind
    rcases Lexis.mem_tokens_iff.1 hmem with ⟨A, l, B, hs, rfl⟩ | rfl
    · -- the lexeme starts on one of the lines
      rw [Lexeme.start_behind] at hlow hstart
      obtain ⟨v, w, hvw, hA⟩ := exists_append_of_le hlow (Nat.le_of_lt hstart)
      have htext := (Lexis.lexemes_eq_append hs).1
      rw [h, hvw, ← List.append_assoc, List.append_assoc, Lexeme.spell_cons] at htext
      have hw := (List.append_inj htext hA.symm).2
      have hne : w ≠ [] := by
        rintro rfl
        rw [hvw, List.append_nil] at hstart
        omega
      rw [hvw] at hlayout
      exact hkind ((Lexis.reads_of_lexemes hs).kind_of_isLayout hw.symm hne hlayout.of_append)
    · rw [Lexis.endMark, Position.offset_start_advance, h] at hstart
      simp only [List.length_append] at hstart
      omega

/-! ## 2. Below a comment

The token before the caret is a comment that starts above the line of the caret.  It ends with its
line, so what lies between it and the caret is layout. -/

/-- A part without line feeds that starts above a line ends above it. -/
theorem exists_comment_append {c k y z : List Char} (ha : StartsLine a)
    (h : a ++ y = c ++ (k ++ z)) (hk : '\n' ∉ k) (hc : c.length < a.length) :
    ∃ w, a = c ++ (k ++ w) := by
  obtain ⟨v, rfl⟩ : c <+: a := List.prefix_of_prefix_length_le
    (h ▸ List.prefix_append c (k ++ z)) (List.prefix_append a y) (Nat.le_of_lt hc)
  rw [List.append_assoc] at h
  have hv : v ≠ [] := by
    rintro rfl
    simp at hc
  rcases List.append_eq_append_iff.1 (List.append_cancel_left h) with ⟨w, rfl, -⟩ | ⟨w, rfl, -⟩
  · -- the line feed that ends the lines above would be in the part
    have hlast : v.getLast? = some '\n' := by
      rw [← List.getLast?_append_of_ne_nil c hv]
      exact ha.resolve_left (List.append_ne_nil_of_right_ne_nil c hv)
    exact absurd (List.mem_append_left w (List.mem_of_getLast? hlast)) hk
  · exact ⟨w, rfl⟩

/-- On the line below a comment, the line has nothing but layout before the caret. -/
theorem Row.Applies.layout_of_below (hl : language.Lawful) (h : d.text = p ++ r) (hp : p ≠ [])
    (hrow : Row.below.Applies language formatters (Site.of language d (p.length : Nat))) :
    ∃ a x, p = a ++ x ∧ StartsLine a ∧ '\n' ∉ x ∧ IsLayout (x ++ ['\n']) := by
  obtain ⟨a, x, rfl, ha, hx⟩ := exists_startsLine_append p
  refine ⟨a, x, rfl, ha, hx, ?_⟩
  cases hrow with
  | below hc _ =>
    obtain ⟨t, ht, hk, hstart⟩ := hc
    rw [Site.lineStart_of language h ha hx] at hstart
    rw [hl.commentKind_eq] at hk
    obtain ⟨A, l, B, hs, hA, hn⟩ :=
      language.lexis.exists_covering (List.length_pos_iff.2 hp) (Document.length_le h)
    obtain ⟨A', k, W, hW, rfl, -, hlayout, -⟩ := (Lexis.nearest?_tokens_eq_some_iff hs hA hn).1 ht
    rw [hl.blanks_eq] at hlayout
    rw [Lexeme.start_behind] at hstart
    have hs' : language.lexis.lexemes d.text = A' ++ k :: (W ++ B) := by
      rw [hs, List.append_cons, hW]
      simp
    have hcomment := (Lexis.reads_of_lexemes hs').unbroken_of_lineComment hk
    have htext : a ++ (x ++ r) = spell A' ++ (k.text ++ (spell W ++ spell B)) := by
      rw [← List.append_assoc, ← h, (Lexis.lexemes_eq_append hs').1, Lexeme.spell_cons,
        Lexeme.spell_append]
    -- the comment ends above, so the layout behind it goes over the line
    obtain ⟨c, hc⟩ := exists_comment_append ha htext hcomment.1.1 hstart
    rw [hc, List.append_assoc, List.append_assoc] at htext
    have hrest := List.append_cancel_left (List.append_cancel_left htext)
    rw [hW, Lexeme.spell_append, Lexeme.spell_cons, hc] at hn
    simp only [List.length_append] at hn
    obtain ⟨w, hw⟩ : c ++ x <+: spell W := by
      refine List.prefix_of_prefix_length_le ?_ (List.prefix_append _ (spell B)) ?_
      · rw [← hrest, ← List.append_assoc]
        exact List.prefix_append _ r
      · rw [List.length_append]
        omega
    have hspell := Lexis.isLayout_spell (A := A' ++ [k]) (B := B) (W := W) (s := d.text)
      (by rw [hs']; simp) hlayout
    rw [← hw] at hspell
    exact hspell.line hx

/-! ## 3. A comment that was split

The text that was put in is the indent and the opener of a comment.  The caret stands behind the
opener, in a comment that runs to the end of the line, and that is where a comment is split. -/

/-- The indent of a line that starts with blanks, with no blank right behind them: it is those
blanks, whatever the rest of the line holds. -/
theorem Site.indent_of_blanks (language : Language) (h : d.text = a ++ (b ++ x) ++ r)
    (ha : StartsLine a) (hb : ∀ c ∈ b, isBlank c = true) (hx : Unbroken x r)
    (hhead : (x ++ untilBreak r).head?.any isBlank = false) :
    (Site.of language d ((a ++ (b ++ x)).length : Nat)).indent = b := by
  have hline : '\n' ∉ b ++ x := by
    rw [List.mem_append, not_or]
    exact ⟨Text.not_mem_of_isBlank hb, hx.1⟩
  have hbx : Unbroken (b ++ x) r := (Text.unbroken_of_isBlank hb (x ++ r)).append hx
  have hnone : (x ++ untilBreak r).takeWhile isBlank = [] := by
    cases hy : x ++ untilBreak r with
    | nil => rfl
    | cons c y =>
      rw [hy] at hhead
      exact List.takeWhile_cons_of_neg (by simpa using hhead)
  rw [Site.indent_of language h ha hline, Lexis.untilBreak_append hbx, List.append_assoc,
    List.takeWhile_append_of_pos hb, hnone, List.append_nil]

/-- The opener of a comment that was put in, at a place that no block comment covers, is read as the
start of a comment. -/
theorem insideComment_lead (hl : language.Lawful) (hL : language.lexis.OpensWithTwo)
    {A B : List Lexeme} {l : Lexeme} (hs : language.lexis.lexemes (p ++ r) = A ++ l :: B)
    (hA : (spell A).length < p.length) (hp : p.length ≤ (spell (A ++ [l])).length)
    (hk : l.kind ≠ .blockComment) (hb : ∀ c ∈ b, isBlank c = true) (hr : untilBreak r ≠ [])
    (h : d.text = p ++ ('\n' :: (b ++ language.commentLead)) ++ r) :
    InsideComment language d (p ++ ('\n' :: (b ++ language.commentLead))).length := by
  have hlead := head_isBlank_of_startsLineComment hl hl.lead_starts
  have hhead : (language.commentLead ++ r).head?.any isBlank = false := by
    obtain ⟨c, t, ht, hc⟩ := hlead
    rw [ht]
    simpa using hc
  obtain ⟨C, hC, hCspell⟩ := Lexis.lexemes_break_behind hL hs hA hp hk
    (b ++ (language.commentLead ++ r))
  obtain ⟨W, hW, -, hWspell⟩ := lexemes_indent language.lexis hb hhead
  obtain ⟨D, hD⟩ := Lexis.lexemes_lineComment hlead hl.lead_starts
    (Text.unbroken_of_not_mem hl.lead_inLine.1 hl.lead_inLine.2 r)
  have htext : d.text = p ++ '\n' :: (b ++ (language.commentLead ++ r)) := by
    rw [h]
    simp
  have hlength : 0 < language.commentLead.length := by
    obtain ⟨c, t, ht, -⟩ := hlead
    rw [ht]
    exact Nat.zero_lt_succ _
  have hrest : 0 < (untilBreak r).length := List.length_pos_iff.2 hr
  refine insideComment_iff_lexemes.2
    ⟨C ++ W, ⟨.lineComment, language.commentLead ++ untilBreak r⟩, D, ?_, rfl, ?_, ?_⟩
  · rw [htext, hC, hW, hD]
    simp
  · rw [Lexeme.spell_append, hCspell, hWspell]
    simp only [List.length_append, List.length_cons, List.length_nil]
    omega
  · rw [Lexeme.spell_concat, Lexeme.spell_append, hCspell, hWspell]
    simp only [List.length_append, List.length_cons, List.length_nil]
    omega

/-- **A comment that was split is split again**, with the same indent.  What stood behind the caret
has not changed, so it is still a comment that goes on there. -/
theorem Row.Applies.split_again (hl : language.Lawful) (hL : language.lexis.OpensWithTwo)
    (h : d.text = p ++ r) (hp : p ≠ [])
    (hrow : Row.split.Applies language formatters (Site.of language d (p.length : Nat)))
    (hb : ∀ c ∈ b, isBlank c = true)
    (h' : d'.text = p ++ ('\n' :: (b ++ language.commentLead)) ++ r) :
    Row.split.Applies language formatters
      (Site.of language d' ((p ++ ('\n' :: (b ++ language.commentLead))).length : Nat)) := by
  cases hrow with
  | split hc hr =>
    have hle := Document.length_le h
    obtain ⟨A, l, B, hs, hA, hn⟩ :=
      language.lexis.exists_covering (List.length_pos_iff.2 hp) hle
    obtain ⟨A', k, W, hW, hk, hlayout, -⟩ :=
      (comment_isSome_iff_lexemes hl hle hs hA hn).1 (Site.isSome_comment_iff.2 hc)
    have hkind : l.kind ≠ .blockComment := by
      rcases Lexeme.eq_last_or_of_concat_eq hW with ⟨-, -, rfl⟩ | ⟨W', rfl, -⟩
      · rw [hk]
        decide
      · intro hblock
        have hmem := hlayout l (List.mem_append_right W' List.mem_cons_self)
        rw [hblock] at hmem
        exact absurd hmem (by decide)
    have hbehind : untilBreak r ≠ [] := by
      obtain ⟨c, hc, -⟩ := hr
      rw [Site.behind_of language h] at hc
      exact List.ne_nil_of_mem hc
    rw [h] at hs
    have hcomment := comment_isSome_of_insideComment hl (Document.length_le h')
      (insideComment_lead hl hL hs hA hn hkind hb hbehind h')
    refine .split (Site.isSome_comment_iff.1 hcomment) ?_
    rw [Site.HasRest, Site.behind_of language h', ← Site.behind_of language h]
    exact hr

theorem Site.indent_of_split (hl : language.Lawful) (hb : ∀ c ∈ b, isBlank c = true)
    (h : d.text = p ++ ('\n' :: (b ++ language.commentLead)) ++ r) :
    (Site.of language d ((p ++ ('\n' :: (b ++ language.commentLead))).length : Nat)).indent =
      b := by
  have htext : d.text = p ++ ['\n'] ++ (b ++ language.commentLead) ++ r := by
    rw [h]
    simp
  have hindent := Site.indent_of_blanks language htext (startsLine_append_newline p) hb
    (Text.unbroken_of_not_mem hl.lead_inLine.1 hl.lead_inLine.2 r) ?_
  · rwa [List.append_assoc, List.singleton_append] at hindent
  · obtain ⟨c, t, ht, hc⟩ := head_isBlank_of_startsLineComment hl hl.lead_starts
    rw [ht]
    simpa using hc

end Enter

end SmartEnter
