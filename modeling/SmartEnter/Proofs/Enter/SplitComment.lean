/-
# Splitting a line comment

A press inside a line comment moves the rest of the comment to a line of its own, behind the indent
and a new opener.  The code around the comment stays, and both parts stay comments, exactly if the
part before the caret still starts with the marker and does not end with a carriage return
(`split_keeps_code_iff`).

* If so, the text is read as before up to the comment, and then as a comment, a line break, an
  indent, a comment, and the rest (`lexemes_split`).
* If not, no comment of the new text covers the part before the caret
  (`startsLineComment_of_covered`): half a marker is an operator, and a carriage return before the
  line feed belongs to the line break.

The first direction reads the new text from left to right.  Up to the comment nothing has changed;
the part before the caret is a comment that the new break ends; and behind the opener the rest is a
comment again, up to where the old one ended.

The second direction is about a comment of the new text of which nothing is known but that it covers
the part before the caret.  It cannot start earlier, for then it would have started earlier in the
old text too, and it cannot go over the break.  So it is the part, and the part is a comment by
itself.
-/
import SmartEnter.Proofs.Enter.CommentLead

namespace SmartEnter.Enter

open Lexeme (spell)
open Lexis (untilBreak)
open Text (isBlank isBreak Unbroken)

variable {language : Language} {s p q indent : List Char} {A B : List Lexeme} {k : Lexeme}

/-! ## 1. Both parts are comments

The new text is read from left to right, lexeme by lexeme. -/

/-- Blanks before something that is no blank are white space of their own. -/
theorem lexemes_indent (L : Lexis) (hb : ∀ c ∈ indent, isBlank c = true)
    (hs : s.head?.any isBlank = false) :
    ∃ W, L.lexemes (indent ++ s) = W ++ L.lexemes s ∧ (∀ w ∈ W, w.kind = .ws) ∧
      spell W = indent := by
  by_cases hne : indent = []
  · exact ⟨[], by rw [hne]; rfl, nofun, hne.symm⟩
  · have htake : s.takeWhile isBlank = [] := by
      cases s with
      | nil => rfl
      | cons c s => exact List.takeWhile_cons_of_neg (by simpa using hs)
    have hdrop : s.dropWhile isBlank = s := by
      have := s.takeWhile_append_dropWhile (p := isBlank)
      rwa [htake, List.nil_append] at this
    refine ⟨[⟨.ws, indent⟩], ?_, by simp, by simp⟩
    rw [Lexis.lexemes_blanks hne hb, htake, hdrop, List.append_nil]
    rfl

theorem head_isBlank_of_startsLineComment (hl : language.Lawful)
    (h : language.lexis.startsLineComment s = true) : ∃ c t, s = c :: t ∧ isBlank c = false := by
  obtain ⟨m, hm, hp⟩ := Lexis.startsLineComment_iff.1 h
  have hhead := hl.marker_head m hm
  cases m with
  | nil => cases hhead
  | cons c m =>
    obtain ⟨t, rfl⟩ := hp
    exact ⟨c, m ++ t, rfl, by simpa using hhead⟩

/-- **The lexemes of a text in which a line comment is split.**  The first half of the comment is
one, the break and the indent are layout, and the second half is a comment again, behind the
opener. -/
theorem lexemes_split (hl : language.Lawful) (h : language.lexis.lexemes s = A ++ k :: B)
    (hk : k.kind = .lineComment) (hpq : k.text = p ++ q)
    (hp : language.lexis.startsLineComment p = true) (hcr : p.getLast? ≠ some '\r')
    (hb : ∀ c ∈ indent, isBlank c = true) :
    ∃ W, language.lexis.lexemes
        (spell A ++ (p ++ '\n' :: (indent ++ (language.commentLead ++ q ++ spell B)))) =
        A ++ ⟨.lineComment, p⟩ :: ⟨.newline, ['\n']⟩ ::
          (W ++ ⟨.lineComment, language.commentLead ++ q⟩ :: B) ∧
      (∀ w ∈ W, w.kind = .ws) ∧ spell W = indent := by
  have hL := hl.short.toRegular
  obtain ⟨hu, hy⟩ := (Lexis.reads_of_lexemes h).unbroken_of_lineComment hk
  rw [hpq] at hu
  obtain ⟨c, t, rfl, hc⟩ := head_isBlank_of_startsLineComment hl hp
  obtain ⟨d, u, hlead, hd⟩ := head_isBlank_of_startsLineComment hl hl.lead_starts
  have hB : language.lexis.lexemes (spell B) = B :=
    (Lexis.lexemes_eq_append (A := A ++ [k]) (by rw [h]; simp)).2
  -- the part after the caret is a comment behind the new opener
  have hright : language.lexis.lexemes (language.commentLead ++ q ++ spell B) =
      ⟨.lineComment, language.commentLead ++ q⟩ :: B := by
    have hu' : Unbroken (language.commentLead ++ q) (spell B) :=
      (Text.unbroken_of_not_mem hl.lead_inLine.1 hl.lead_inLine.2 _).append hu.of_append
    have hs' : language.lexis.startsLineComment (language.commentLead ++ q) = true := by
      obtain ⟨m, hm, hmp⟩ := Lexis.startsLineComment_iff.1 hl.lead_starts
      exact Lexis.startsLineComment_iff.2 ⟨m, hm, hmp.trans (List.prefix_append _ q)⟩
    have hw : ∃ c t, language.commentLead ++ q = c :: t ∧ isBlank c = false :=
      ⟨d, u ++ q, by rw [hlead]; rfl, hd⟩
    rw [(Lexis.reads_lineComment hw hs' hu' hy).lexemes_append, hB]
  obtain ⟨W, hW, hkind, hspell⟩ := lexemes_indent language.lexis hb
    (s := language.commentLead ++ q ++ spell B) (by rw [hlead]; simpa using hd)
  -- the part before the caret is a comment on its own
  have hleft (x : List Char) : language.lexis.lexemes (c :: t ++ '\n' :: x) =
      ⟨.lineComment, c :: t⟩ :: ⟨.newline, ['\n']⟩ :: language.lexis.lexemes x := by
    have hu' : Unbroken (c :: t) ('\n' :: x) :=
      ⟨fun hm => hu.1 (List.mem_append_left q hm), fun hlast => absurd hlast hcr⟩
    have hbreak := language.lexis.lexemes_break (.inl rfl) x
    rw [List.singleton_append] at hbreak
    have hr := Lexis.reads_lineComment ⟨c, t, rfl, hc⟩ hp hu'
      (Lexis.untilBreak_eq_nil_iff.2 (.inr rfl))
    rw [hr.lexemes_append, hbreak]
  refine ⟨W, ?_, hkind, hspell⟩
  rw [Lexis.lexemes_comment hL h hk hpq (List.cons_ne_nil c t) hp (.inr rfl), hleft, hW, hright]

/-! ## 2. The part before the caret is no comment

A comment of the new text covers the part before the caret.  Where can it start, and where can it
end? -/

/-- A line comment that covers the text before a line feed ends there. -/
theorem eq_append_of_covered {A' B' : List Lexeme} {k' : Lexeme} {x : List Char}
    (hnl : '\n' ∉ k'.text) (h : spell A' ++ k'.text ++ spell B' = spell A ++ p ++ '\n' :: x)
    (hstart : (spell A').length ≤ (spell A).length)
    (hstop : (spell A ++ p).length ≤ (spell A' ++ k'.text).length) :
    ∃ v, spell A = spell A' ++ v ∧ k'.text = v ++ p ∧ spell B' = '\n' :: x := by
  obtain ⟨v, hv⟩ : spell A' <+: spell A := by
    have hl : spell A' <+: spell A ++ p ++ '\n' :: x := by
      rw [← h, List.append_assoc]
      exact List.prefix_append _ _
    have hr : spell A <+: spell A ++ p ++ '\n' :: x := by
      rw [List.append_assoc]
      exact List.prefix_append _ _
    exact List.prefix_of_prefix_length_le hl hr hstart
  rw [← hv, List.append_assoc, List.append_assoc, List.append_assoc] at h
  have h' := List.append_cancel_left h
  rw [← List.append_assoc v] at h'
  refine ⟨v, hv.symm, ?_⟩
  rcases List.append_eq_append_iff.1 h' with ⟨u, hu, hx⟩ | ⟨u, hu, hx⟩
  · obtain rfl : u = [] := by
      have hlen := congrArg List.length hu
      rw [← hv] at hstop
      simp only [List.length_append] at hlen hstop
      exact List.length_eq_zero_iff.1 (by omega)
    exact ⟨by rw [hu, List.append_nil], hx⟩
  · cases u with
    | nil => exact ⟨by rw [hu, List.append_nil], hx.symm⟩
    | cons c u =>
      obtain rfl := (List.cons.inj hx).1
      exact absurd (by rw [hu]; simp) hnl

/-- A comment that covers the part before the caret does not start before it: the text up to there
would have been read as a comment already. -/
theorem eq_nil_of_covered (hl : language.Lawful)
    (h : language.lexis.lexemes s = A ++ k :: B) (hpq : k.text = p ++ q) (hp : p ≠ [])
    {x v : List Char} {A' B' : List Lexeme} {k' : Lexeme}
    (h' : language.lexis.lexemes (spell A ++ p ++ '\n' :: x) = A' ++ k' :: B')
    (hk' : k'.kind = .lineComment) (hA : spell A = spell A' ++ v) (hv : k'.text = v ++ p)
    (hcr : p.getLast? ≠ some '\r') : v = [] := by
  by_contra hne
  have hL := hl.short.toRegular
  have hr := Lexis.reads_of_lexemes h'
  have hstarts := hr.startsLineComment hL hk'
  have hlenp := List.length_pos_iff.2 hp
  have hlenv := List.length_pos_iff.2 hne
  have hlen : 2 ≤ k'.text.length := by
    rw [hv, List.length_append]
    omega
  have hs : s = spell A' ++ (k'.text ++ (q ++ spell B)) := by
    rw [(Lexis.lexemes_eq_append h).1, Lexeme.spell_cons, hpq, hA, hv]
    simp only [List.append_assoc]
  have hu : Unbroken k'.text (q ++ spell B) := by
    refine ⟨(hr.unbroken_of_lineComment hk').1.1, fun hlast => absurd ?_ hcr⟩
    rwa [hv, List.getLast?_append_of_ne_nil v hp] at hlast
  -- the old text has a comment there as well, and it goes over the start of `k`
  obtain ⟨C, hC⟩ :=
    Lexis.lexemes_lineComment (head_isBlank_of_startsLineComment hl hstarts) hstarts hu
  have hold := Lexis.lexemes_of_take hl.short h' (v := k'.text ++ (q ++ spell B))
    (List.cons_ne_nil k' B') (by
      rw [Lexeme.spell_cons, List.take_append_of_le_length hlen,
        List.take_append_of_le_length hlen])
  rw [← hs, h, hC] at hold
  have hcover : (spell A).length + 1 ≤ (spell (A ++ [k])).length := by
    rw [Lexeme.spell_concat, hpq, List.length_append, List.length_append]
    omega
  have hstart : (spell A').length < (spell A).length + 1 := by
    rw [hA, List.length_append]
    omega
  have hcover' : (spell A).length + 1 ≤
      (spell (A' ++ [⟨.lineComment, k'.text ++ untilBreak (q ++ spell B)⟩])).length := by
    rw [Lexeme.spell_concat, List.length_append, List.length_append, hA, hv, List.length_append,
      List.length_append]
    omega
  obtain ⟨rfl, -, -⟩ :=
    Lexeme.covering_unique hold (Nat.lt_succ_self _) hcover hstart hcover'
  exact hne (List.append_right_eq_self.1 hA.symm)

/-- **A comment that covers the part before the caret starts there.**  So the part starts with a
marker, and no carriage return is at its end. -/
theorem startsLineComment_of_covered (hl : language.Lawful)
    (h : language.lexis.lexemes s = A ++ k :: B) (hpq : k.text = p ++ q) (hp : p ≠ [])
    {x : List Char} {A' B' : List Lexeme} {k' : Lexeme}
    (h' : language.lexis.lexemes (spell A ++ p ++ '\n' :: x) = A' ++ k' :: B')
    (hk' : k'.kind = .lineComment) (hstart : (spell A').length ≤ (spell A).length)
    (hstop : (spell A ++ p).length ≤ (spell (A' ++ [k'])).length) :
    language.lexis.startsLineComment p = true ∧ p.getLast? ≠ some '\r' := by
  have hr := Lexis.reads_of_lexemes h'
  have hu := (hr.unbroken_of_lineComment hk').1
  have htext := (Lexis.lexemes_eq_append h').1
  rw [Lexeme.spell_cons, ← List.append_assoc] at htext
  rw [Lexeme.spell_concat] at hstop
  obtain ⟨v, hA, hv, hB⟩ := eq_append_of_covered hu.1 htext.symm hstart hstop
  have hcr : p.getLast? ≠ some '\r' := by
    intro hlast
    refine hu.2 ?_ (by rw [hB]; rfl)
    rw [hv, List.getLast?_append_of_ne_nil v hp, hlast]
  obtain rfl : v = [] := eq_nil_of_covered hl h hpq hp h' hk' hA hv hcr
  rw [List.nil_append] at hv
  rw [← hv]
  exact ⟨hr.startsLineComment hl.short.toRegular hk', hv ▸ hcr⟩

/-! ## 3. The press

The two directions are put together for a caret strictly inside a comment, at which the press is
known to split. -/

/-- The part of a text between two offsets lies in a line comment, which may start before it and go
on behind it. -/
def LiesInComment (language : Language) (s : List Char) (a b : Nat) : Prop :=
  ∃ t ∈ language.tokens s, t.kind = .lineComment ∧ t.start.offset ≤ a ∧ b ≤ t.stop.offset

theorem liesInComment_of_lexemes {C D : List Lexeme} {w : List Char} {a b : Nat}
    (h : language.lexis.lexemes s = C ++ ⟨.lineComment, w⟩ :: D) (ha : (spell C).length ≤ a)
    (hb : b ≤ (spell C).length + w.length) : LiesInComment language s a b := by
  refine ⟨_, Lexis.behind_mem_tokens h, rfl, ?_, ?_⟩
  · rwa [Lexeme.start_behind]
  · rwa [Lexeme.stop_behind, Lexeme.spell_concat, List.length_append]

/-- The kinds of token that are no code.  What is left of the tokens without them is what a compiler
would see. -/
def noCode : List TokenKind := [.ws, .newline, .lineComment, .blockComment, .eof]

theorem filter_noCode_cons {l : Lexeme} (h : l.kind ∈ noCode) (ls : List Lexeme) :
    (l :: ls).filter (·.kind ∉ noCode) = ls.filter (·.kind ∉ noCode) :=
  List.filter_cons_of_neg (by simpa using h)

/-- A text with a split comment has the code of the text before, and both parts of the comment in
comments, exactly if the part before the caret is a comment that does not end with a carriage
return. -/
theorem split_text_iff (hl : language.Lawful) (h : language.lexis.lexemes s = A ++ k :: B)
    (hk : k.kind = .lineComment) (hpq : k.text = p ++ q) (hp : p ≠ [])
    (hb : ∀ c ∈ indent, isBlank c = true) {new : List Char}
    (hnew : new = spell A ++ p ++ '\n' :: (indent ++ (language.commentLead ++ q ++ spell B)))
    {added : Nat} (hadded : added = ('\n' :: indent ++ language.commentLead).length) :
    (language.lexis.reading noCode new = language.lexis.reading noCode s ∧
        LiesInComment language new (spell A).length (spell A ++ p).length ∧
        LiesInComment language new ((spell A ++ p).length + added)
          ((spell A ++ k.text).length + added)) ↔
      language.lexis.startsLineComment p = true ∧ p.getLast? ≠ some '\r' := by
  constructor
  · rintro ⟨-, ⟨u, hu, huk, hstart, hstop⟩, -⟩
    obtain ⟨A', k', B', hs', rfl⟩ := Lexis.exists_lexeme_of_mem_tokens hu (by rw [huk]; decide)
    rw [Lexeme.start_behind] at hstart
    rw [Lexeme.stop_behind] at hstop
    rw [hnew] at hs'
    exact startsLineComment_of_covered hl h hpq hp hs' huk hstart hstop
  · rintro ⟨hstarts, hcr⟩
    obtain ⟨W, hsplit, hW, hspell⟩ := lexemes_split hl h hk hpq hstarts hcr hb
    rw [← List.append_assoc, ← hnew] at hsplit
    have hW' : W.filter (·.kind ∉ noCode) = [] := by
      rw [List.filter_eq_nil_iff]
      intro w hw
      rw [hW w hw]
      decide
    have hcomment : TokenKind.lineComment ∈ noCode := by decide
    refine ⟨?_, ?_, ?_⟩
    · rw [Lexis.reading_eq_filter _ (by decide), Lexis.reading_eq_filter _ (by decide), hsplit, h,
        List.filter_append, List.filter_append, filter_noCode_cons hcomment,
        filter_noCode_cons (by decide), List.filter_append, hW', List.nil_append,
        filter_noCode_cons hcomment, filter_noCode_cons (by rw [hk]; exact hcomment)]
    · exact liesInComment_of_lexemes hsplit (Nat.le_refl _) (Nat.le_of_eq List.length_append)
    · refine liesInComment_of_lexemes (C := A ++ ⟨.lineComment, p⟩ :: ⟨.newline, ['\n']⟩ :: W)
        (w := language.commentLead ++ q) (D := B) (by rw [hsplit]; simp) ?_ ?_
      · simp only [hadded, Lexeme.spell_append, Lexeme.spell_cons, hspell, List.length_append,
          List.length_cons, List.length_nil]
        omega
      · simp only [hadded, hpq, Lexeme.spell_append, Lexeme.spell_cons, hspell, List.length_append,
          List.length_cons, List.length_nil]
        omega

/-- **Splitting a line comment keeps the code, and both parts in comments, exactly if** the part
before the caret starts with the marker of the comment and no carriage return is right before the
caret. -/
theorem split_keeps_code_iff [Text.Memory] {language : Language} (hl : language ∈ Language.builtin)
    {formatters : Formatters} {options : Indent.Options} {e : Editor} {n : Nat}
    (hacc : e.Accepts language) (hcaret : e.caret = n) {t : Token}
    (ht : t ∈ language.tokens e.document.text) (hk : t.kind = .lineComment)
    (hstart : t.start.offset < n) (hstop : n < t.stop.offset) (hrest : HasRest e.document n) :
    ∃ r i, press language formatters options (some e) = .ok r ∧ r.outcome = .stop ∧
      r.insertion = some i ∧
      ((language.lexis.reading noCode (r.apply e.document).text =
            language.lexis.reading noCode e.document.text ∧
          LiesInComment language (r.apply e.document).text t.start.offset n ∧
          LiesInComment language (r.apply e.document).text (n + i.text.length)
            (t.stop.offset + i.text.length)) ↔
        language.lexis.startsLineComment (t.text.take (n - t.start.offset)) = true ∧
          e.document.text[n - 1]? ≠ some '\r') := by
  have hlawful := Language.lawful_of_mem_builtin hl
  have hinside : InsideComment language e.document n := ⟨t, ht, hk, hstart, hstop⟩
  obtain ⟨A, k, B, hs, rfl⟩ := Lexis.exists_lexeme_of_mem_tokens ht (by rw [hk]; decide)
  rw [Lexeme.start_behind] at hstart
  rw [Lexeme.stop_behind, Lexeme.spell_concat] at hstop
  -- the comment is cut in two at the caret
  obtain ⟨p, q, hpq, rfl⟩ := exists_append_of_le (Nat.le_of_lt hstart) (Nat.le_of_lt hstop)
  have hp : p ≠ [] := by
    rintro rfl
    simp at hstart
  have htext : e.document.text = spell A ++ p ++ (q ++ spell B) := by
    rw [(Lexis.lexemes_eq_append hs).1, Lexeme.spell_cons, hpq]
    simp only [List.append_assoc]
  have hle : (spell A ++ p).length ≤ e.document.text.length := by
    rw [htext]
    exact (List.prefix_append (spell A ++ p) _).length_le
  have hlast : e.document.text[(spell A ++ p).length - 1]? = p.getLast? := by
    have hpos := List.length_pos_iff.2 hp
    rw [htext, List.getElem?_append_left (by rw [List.length_append]; omega),
      ← List.getLast?_eq_getElem?, List.getLast?_append_of_ne_nil _ hp]
  have htake : k.text.take ((spell A ++ p).length - (spell A).length) = p := by
    rw [List.length_append, Nat.add_sub_cancel_left, hpq, List.take_left]
  obtain ⟨indent, hd⟩ : ∃ indent, Decision.of language formatters options e =
      .ok (.splitComment indent language.commentLead) :=
    (splitComment_iff hlawful hcaret (by omega) hle).2 ⟨hacc, hrest, .inl hinside⟩
  obtain ⟨-, -, hindent, -⟩ := Decision.of_eq_splitComment_iff.1 hd
  have hb : ∀ c ∈ indent, isBlank c = true := by
    rw [← hindent]
    exact isBlank_indent language e.document e.caret
  have hinserted : (Decision.splitComment indent language.commentLead).inserted =
      some ('\n' :: indent ++ language.commentLead) := rfl
  have happly := Decision.apply_text hinserted hcaret hle
  rw [htext, List.take_left, List.drop_left] at happly
  refine ⟨_, _, press_eq_ok_iff.2 ⟨_, hd, rfl⟩, rfl, rfl, ?_⟩
  rw [Lexeme.start_behind, Lexeme.stop_behind, Lexeme.text_behind, Lexeme.spell_concat, htake,
    hlast]
  refine split_text_iff hlawful hs hk hpq hp hb ?_ rfl
  rw [happly]
  simp only [List.append_assoc, List.cons_append]

/-- The statement right behind the marker of a comment, where the first half is a marker and nothing
else. -/
theorem split_keeps_code_iff_behind_marker :
    let _ := Text.Memory.kilobyte
    Language.c ∈ Language.builtin ∧
      (⟨⟨['/', '/', 'x'], true⟩, 2, ⟨["c"], false, 4⟩⟩ : Editor).Accepts .c ∧
      ⟨.lineComment, ['/', '/', 'x'], ⟨1, 1, 0⟩, ⟨1, 4, 3⟩⟩ ∈ Language.c.tokens ['/', '/', 'x'] ∧
      HasRest ⟨['/', '/', 'x'], true⟩ 2 ∧
      ∃ r i, press .c [] {} (some ⟨⟨['/', '/', 'x'], true⟩, 2, ⟨["c"], false, 4⟩⟩) = .ok r ∧
        r.outcome = .stop ∧ r.insertion = some i ∧
        ((Language.c.lexis.reading noCode (r.apply ⟨['/', '/', 'x'], true⟩).text =
              Language.c.lexis.reading noCode ['/', '/', 'x'] ∧
            LiesInComment .c (r.apply ⟨['/', '/', 'x'], true⟩).text 0 2 ∧
            LiesInComment .c (r.apply ⟨['/', '/', 'x'], true⟩).text (2 + i.text.length)
              (3 + i.text.length)) ↔
          Language.c.lexis.startsLineComment ['/', '/'] = true ∧
            ['/', '/', 'x'][1]? ≠ some '\r') := by
  intro _
  have hlexemes : Language.c.lexis.lexemes ['/', '/', 'x'] =
      [⟨.lineComment, ['/', '/', 'x']⟩] := by cbv
  have hl : Language.c ∈ Language.builtin := by decide
  have hacc : (⟨⟨['/', '/', 'x'], true⟩, 2, ⟨["c"], false, 4⟩⟩ : Editor).Accepts .c :=
    ⟨by decide, rfl, rfl, by decide⟩
  have ht : ⟨.lineComment, ['/', '/', 'x'], ⟨1, 1, 0⟩, ⟨1, 4, 3⟩⟩ ∈
      Language.c.tokens ['/', '/', 'x'] := by
    rw [Language.tokens, Lexis.tokens, hlexemes]
    decide
  have hrest : HasRest ⟨['/', '/', 'x'], true⟩ 2 := ⟨'x', by decide, by decide⟩
  exact ⟨hl, hacc, ht, hrest, split_keeps_code_iff hl hacc rfl ht rfl (Nat.zero_lt_succ 1)
    (Nat.lt_succ_self 2) hrest⟩

/-- **Half a marker is no comment.**  Between the two slashes of a marker the comment is split, too,
and the first slash is left over as an operator. -/
theorem split_inside_marker :
    let _ := Text.Memory.kilobyte
    (⟨⟨['/', '/', 'x'], true⟩, 1, ⟨["c"], false, 4⟩⟩ : Editor).Accepts .c ∧
      InsideComment .c ⟨['/', '/', 'x'], true⟩ 1 ∧ HasRest ⟨['/', '/', 'x'], true⟩ 1 ∧
      ∃ r, press .c [] {} (some ⟨⟨['/', '/', 'x'], true⟩, 1, ⟨["c"], false, 4⟩⟩) = .ok r ∧
        r.insertion = some ⟨1, ['\n', '/', '/', ' ']⟩ ∧
        Language.c.lexis.reading noCode (r.apply ⟨['/', '/', 'x'], true⟩).text =
          [⟨.operator, ['/']⟩] ∧
        Language.c.lexis.reading noCode ['/', '/', 'x'] = [] := by
  intro _
  have hlexemes : Language.c.lexis.lexemes ['/', '/', 'x'] =
      [⟨.lineComment, ['/', '/', 'x']⟩] := by cbv
  have hd : Decision.of .c [] {} ⟨⟨['/', '/', 'x'], true⟩, 1, ⟨["c"], false, 4⟩⟩ =
      .ok (.splitComment [] Language.c.commentLead) := by
    rw [Decision.of, Site.of, Language.tokens, Lexis.tokens, hlexemes]
    decide
  have hnew : Language.c.lexis.reading noCode ['/', '\n', '/', '/', ' ', '/', 'x'] =
      [⟨.operator, ['/']⟩] := by cbv
  refine ⟨⟨by decide, rfl, rfl, by decide⟩, ?_, ⟨'/', by decide, by decide⟩,
    _, press_eq_ok_iff.2 ⟨_, hd, rfl⟩, rfl, ?_, by cbv⟩
  · rw [InsideComment, Language.tokens, Lexis.tokens, hlexemes]
    decide
  · exact hnew

end SmartEnter.Enter
