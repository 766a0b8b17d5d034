/-
# What a decision looks at

Two sites are alike if the lines have the same indent, and the same behind the caret, and if what is
seen of the token before the caret is the same: its kind, and if it starts above the line
(`Site.Alike`).  Alike sites follow the same row of the table (`Row.Applies.congr`).

What is seen of the token is read off the outline of the text (`Site.seen_of`).  So it does not
matter where the places of the outline are, as long as they keep their order (`seenAmong_map_move`),
nor what marks lie before the line above (`seenAmong_append`).

The result of a row comes of the text that it puts in and of the caret that it chooses
(`Row.result_eq`), so two results are compared by these.

This is the common part of all statements that compare a press with another one: in a text with
other line ends, in a text with something else around the two lines, or in the text that came out of
the press before.  Each of them shows that two sites are alike, and what follows from that is here.
The text and the place of the token do not count, which is the reason why so much may differ.
-/
import SmartEnter.Proofs.Enter.Table

namespace SmartEnter

open Lexis (untilBreak)
open Text (isBlank)

namespace Enter

variable {language : Language} {formatters : Formatters} {s t : Site} {row : Row}

/-! ## 1. What a site is in the text

The parts of a site, for a caret behind a first part of the text. -/

section Text

variable {d : Document} {a b p r : List Char}

theorem Site.behind_of (language : Language) (h : d.text = p ++ r) :
    (Site.of language d (p.length : Nat)).behind = untilBreak r := by
  rw [Site.of]
  dsimp only
  rw [Document.slice_endOf (Document.length_le h), h, List.drop_left]

theorem Site.indent_of (language : Language) (h : d.text = a ++ b ++ r) (ha : StartsLine a)
    (hb : '\n' ∉ b) :
    (Site.of language d ((a ++ b).length : Nat)).indent =
      (untilBreak (b ++ r)).takeWhile isBlank := by
  rw [Site.of]
  dsimp only
  rw [Document.lineNumber_eq h hb, Document.indentOf,
    Document.contentOf_eq (h.trans (List.append_assoc a b r)) ha]

theorem Site.lineStart_of (language : Language) (h : d.text = a ++ b ++ r) (ha : StartsLine a)
    (hb : '\n' ∉ b) :
    (Site.of language d ((a ++ b).length : Nat)).lineStart = a.length := by
  rw [Site.of]
  dsimp only
  rw [Document.lineNumber_eq h hb, Document.startOf_eq (h.trans (List.append_assoc a b r)) ha]

/-- The token before the caret is a token of the text that starts before the caret, not above the
line above, and is not blank. -/
theorem Site.mem_of_token {n : Nat} {t : Token} (h : (Site.of language d n).token = some t) :
    t ∈ language.tokens d.text ∧ d.startOf (d.lineNumber n - 1) ≤ t.start.offset ∧
      t.start.offset < n ∧ t.kind ∉ language.blanks := by
  rw [Site.of, Language.tokens, Lexis.nearest?_tokens, Option.filter_eq_some_iff] at h
  obtain ⟨hmem, hstart, hkind⟩ := Token.lastBefore?_eq_some h.1
  exact ⟨hmem, by simpa using h.2, hstart, hkind⟩

end Text

/-! ## 2. Alike sites

Likeness is an equality of three values, so it is symmetric and is rewritten with like one. -/

/-- What is seen of a token: its kind, and if it starts above the caret's line. -/
structure Seen where
  kind : TokenKind
  above : Bool
  deriving Repr, DecidableEq

/-- What is seen of the token before the caret: its kind, and whether it lies on the line above. -/
def Site.seen (site : Site) : Option Seen :=
  site.token.map fun t => ⟨t.kind, t.start.offset < site.lineStart⟩

/-- The sites differ in nothing that a decision looks at.  Where their lines start, and what the
token is spelled like, may differ. -/
structure Site.Alike (s t : Site) : Prop where
  indent : s.indent = t.indent
  behind : s.behind = t.behind
  seen : s.seen = t.seen

theorem Site.Alike.symm (h : s.Alike t) : t.Alike s :=
  ⟨h.indent.symm, h.behind.symm, h.seen.symm⟩

theorem Site.hasComment_iff :
    s.HasComment language ↔ ∃ above, s.seen = some ⟨language.commentKind, above⟩ := by
  simp only [Site.HasComment, Site.seen, Option.map_eq_some_iff, Seen.mk.injEq]
  constructor
  · rintro ⟨t, ht, hk⟩
    exact ⟨_, t, ht, hk, rfl⟩
  · rintro ⟨-, t, ht, hk, -⟩
    exact ⟨t, ht, hk⟩

theorem Site.hasCommentAbove_iff :
    s.HasCommentAbove language ↔ s.seen = some ⟨language.commentKind, true⟩ := by
  simp only [Site.HasCommentAbove, Site.seen, Option.map_eq_some_iff, Seen.mk.injEq,
    decide_eq_true_eq]

theorem Site.hasOpener_iff :
    s.HasOpener language ↔ ∃ seen, s.seen = some seen ∧ seen.kind ∈ language.openers := by
  simp only [Site.HasOpener, Site.seen, Option.map_eq_some_iff]
  constructor
  · rintro ⟨t, ht, hk⟩
    exact ⟨_, ⟨t, ht, rfl⟩, hk⟩
  · rintro ⟨_, ⟨t, ht, rfl⟩, hk⟩
    exact ⟨t, ht, hk⟩

namespace Site.Alike

theorem hasComment_iff (h : s.Alike t) : s.HasComment language ↔ t.HasComment language := by
  rw [Site.hasComment_iff, Site.hasComment_iff, h.seen]

theorem hasCommentAbove_iff (h : s.Alike t) :
    s.HasCommentAbove language ↔ t.HasCommentAbove language := by
  rw [Site.hasCommentAbove_iff, Site.hasCommentAbove_iff, h.seen]

theorem hasOpener_iff (h : s.Alike t) : s.HasOpener language ↔ t.HasOpener language := by
  rw [Site.hasOpener_iff, Site.hasOpener_iff, h.seen]

theorem hasRest_iff (h : s.Alike t) : s.HasRest ↔ t.HasRest := by
  rw [Site.HasRest, Site.HasRest, h.behind]

theorem passesComment (h : s.Alike t) (hs : s.PassesComment language) :
    t.PassesComment language where
  not_split ht := hs.not_split ⟨h.hasComment_iff.2 ht.1, h.hasRest_iff.2 ht.2⟩
  not_above ht := hs.not_above (h.hasCommentAbove_iff.2 ht)

end Site.Alike

/-- **Alike sites follow the same row.**  The condition of every row is about fields that alike
sites share. -/
theorem Row.Applies.congr (h : s.Alike t) (hs : row.Applies language formatters s) :
    row.Applies language formatters t := by
  cases hs with
  | split hc hr => exact .split (h.hasComment_iff.1 hc) (h.hasRest_iff.1 hr)
  | below hc hr => exact .below (h.hasCommentAbove_iff.1 hc) (h.hasRest_iff.not.1 hr)
  | formatter hp hf => exact .formatter (h.passesComment hp) hf
  | opener hp hf ho => exact .opener (h.passesComment hp) hf (h.hasOpener_iff.1 ho)
  | copy hp hf ho => exact .copy (h.passesComment hp) hf (h.hasOpener_iff.not.1 ho)

/-! ## 3. What is seen in the outline

An outline has a mark for each lexeme that counts, with its kind and the place where it starts.  The
token before the caret is the last mark before it, if that does not lie too far back. -/

/-- What is seen among marks: of the last one before `n`, unless it lies before `lowest`. -/
def seenAmong (marks : List Token.Mark) (lowest lineStart n : Nat) : Option Seen :=
  ((marks.filter (·.place < n)).getLast?.filter (lowest ≤ ·.place)).map
    fun m => ⟨m.kind, m.place < lineStart⟩

variable {marks before : List Token.Mark} {lowest lineStart n : Nat}

/-- **What is seen of the token before a caret** is what is seen in the outline of the text. -/
theorem Site.seen_of {d : Document} (hn : n ≤ d.text.length) :
    (Site.of language d n).seen =
      seenAmong (Lexeme.outline language.blanks 0 (language.lexis.lexemes d.text))
        (d.startOf (d.lineNumber n - 1)) (d.startOf (d.lineNumber n)) n := by
  rw [seenAmong, ← Lexis.lastBefore?_tokens hn, Site.seen, Site.of, Language.tokens,
    Lexis.nearest?_tokens]
  cases Token.lastBefore? language.blanks n (language.lexis.tokens d.text) with
  | none => rfl
  | some t =>
    by_cases h : d.startOf (d.lineNumber n - 1) ≤ t.start.offset
    · simp [Token.mark, Option.filter_some, h]
    · simp [Token.mark, Option.filter_some, h]

/-- What is seen does not change when places move and keep their order. -/
theorem seenAmong_map_move {f : Nat → Nat}
    (hf : ∀ m ∈ marks, ∀ k ∈ [lowest, lineStart, n], f m.place < f k ↔ m.place < k) :
    seenAmong (marks.map (Token.Mark.move f)) (f lowest) (f lineStart) (f n) =
      seenAmong marks lowest lineStart n := by
  have hfilter : (marks.map (Token.Mark.move f)).filter (·.place < f n) =
      (marks.filter (·.place < n)).map (Token.Mark.move f) := by
    rw [List.filter_map]
    congr 1
    refine List.filter_congr fun m hm => ?_
    simp [Token.Mark.move, hf m hm n (by simp)]
  rw [seenAmong, seenAmong, hfilter, List.getLast?_map]
  cases hlast : (marks.filter (·.place < n)).getLast? with
  | none => rfl
  | some m =>
    have hm : m ∈ marks := (List.mem_filter.1 (List.mem_of_getLast? hlast)).1
    have hlow := hf m hm lowest (by simp)
    have hline := hf m hm lineStart (by simp)
    by_cases h : lowest ≤ m.place
    · have h' : f lowest ≤ f m.place := by omega
      simp [Token.Mark.move, Option.filter_some, h, h', hline]
    · have h' : ¬f lowest ≤ f m.place := by omega
      simp [Token.Mark.move, Option.filter_some, h, h']

theorem seenAmong_outline (blanks : List TokenKind) (k : Nat) (ls : List Lexeme)
    (lineStart n : Nat) :
    seenAmong (Lexeme.outline blanks k ls) k (k + lineStart) (k + n) =
      seenAmong (Lexeme.outline blanks 0 ls) 0 lineStart n := by
  have hmove : Lexeme.outline blanks (k + 0) ls = _ := Lexeme.outline_add k ls
  rw [Nat.add_zero] at hmove
  rw [hmove]
  show seenAmong _ (k + 0) (k + lineStart) (k + n) = _
  exact seenAmong_map_move fun m _ i _ => Nat.add_lt_add_iff_left

theorem seenAmong_congr {others : List Token.Mark}
    (h : marks.filter (·.place < n) = others.filter (·.place < n)) :
    seenAmong marks lowest lineStart n = seenAmong others lowest lineStart n := by
  rw [seenAmong, seenAmong, h]

theorem seenAmong_append (h : ∀ m ∈ before, m.place < lowest) :
    seenAmong (before ++ marks) lowest lineStart n = seenAmong marks lowest lineStart n := by
  rw [seenAmong, seenAmong, List.filter_append, List.getLast?_append]
  cases (marks.filter (·.place < n)).getLast? with
  | some m => rfl
  | none =>
    rw [Option.none_or]
    cases hlast : (before.filter (·.place < n)).getLast? with
    | none => rfl
    | some m =>
      have hm := h m (List.mem_filter.1 (List.mem_of_getLast? hlast)).1
      rw [Option.filter_some, if_neg (by simpa using hm)]
      rfl

/-! ## 4. What a row puts in

The row and the site decide what is put in, and the document does so in one case only, which is the
style of a level. -/

/-- The text that a row puts in, if any.  Of the rows only that of an opener may fail, and only that
of a formatter puts nothing in. -/
def Row.inserted [Text.Memory] (language : Language) (options : Indent.Options) (d : Document)
    (site : Site) :
    Row → Except Indent.Failure (Option (List Char))
  | split => .ok (some ('\n' :: site.indent ++ language.commentLead))
  | formatter => .ok none
  | opener => (fun indent => some ('\n' :: indent)) <$> Indent.deepen site.indent d options
  | below | copy => .ok (some ('\n' :: site.indent))

/-- The caret that a row chooses, if any; `line` is the line the caret is on. -/
def Row.caret (line : Nat) (tabWidth : Int) (site : Site) : Row → Option Caret
  | split => some ⟨line + 1, 1⟩
  | copy => some ⟨line + 1, Indent.displayWidth site.indent tabWidth⟩
  | below | formatter | opener => none

/-- The result of putting a text in at the caret, if there is one to be put in, and the deferred
result if there is none. -/
def Editor.resultOf (e : Editor) (caret : Option Caret) : Option (List Char) → Result
  | none => .deferred
  | some text => e.stop text caret

/-- **The result of a row** comes of what it puts in and of the caret it chooses. -/
theorem Row.result_eq [Text.Memory] (language : Language) (options : Indent.Options) (e : Editor)
    (line : Nat) (site : Site) (row : Row) :
    row.result language options e line site =
      e.resultOf (row.caret line e.session.tabWidth site) <$>
        row.inserted language options e.document site := by
  cases row with
  | split => rfl
  | below => rfl
  | formatter => rfl
  | opener =>
    rw [Row.result, Row.inserted]
    cases Indent.deepen site.indent e.document options <;> rfl
  | copy => rfl

/-- Alike sites get the same text, if a level added to their indent is the same. -/
theorem Row.inserted_congr [Text.Memory] {options : Indent.Options} {d d' : Document}
    (h : s.Alike t) (hdeepen : row = opener →
      Indent.deepen s.indent d options = Indent.deepen t.indent d' options) :
    row.inserted language options d s = row.inserted language options d' t := by
  cases row with
  | split => rw [Row.inserted, Row.inserted, h.indent]
  | below => rw [Row.inserted, Row.inserted, h.indent]
  | formatter => rfl
  | opener => rw [Row.inserted, Row.inserted, hdeepen rfl]
  | copy => rw [Row.inserted, Row.inserted, h.indent]

theorem Row.caret_congr {line : Nat} {tabWidth : Int} (h : s.Alike t) :
    row.caret line tabWidth s = row.caret line tabWidth t := by
  cases row with
  | copy => rw [Row.caret, Row.caret, h.indent]
  | split => rfl
  | below => rfl
  | formatter => rfl
  | opener => rfl

/-- What a row puts in can be written if a level of the options can. -/
theorem Row.inserted_eq_ok [Text.Memory] {options : Indent.Options} (hsize : 0 < options.size)
    (htab : 0 < options.tabSize) (hwidth : options.size ≤ Text.Memory.limit) (d : Document) :
    ∃ text, row.inserted language options d s = .ok text := by
  cases row with
  | split => exact ⟨_, rfl⟩
  | below => exact ⟨_, rfl⟩
  | formatter => exact ⟨_, rfl⟩
  | opener =>
    obtain ⟨indent, hindent⟩ := Indent.exists_deepen hsize htab hwidth s.indent d
    rw [Row.inserted, hindent]
    exact ⟨_, rfl⟩
  | copy => exact ⟨_, rfl⟩

/-- Only a formatter keeps a press from putting something in, once the editor accepts the key. -/
theorem Row.eq_formatter [Text.Memory] {options : Indent.Options} {d : Document}
    (h : row.inserted language options d s = .ok none) : row = formatter := by
  cases row with
  | split => cases h
  | below => cases h
  | formatter => rfl
  | opener =>
    rw [Row.inserted] at h
    cases hd : Indent.deepen s.indent d options <;> rw [hd] at h <;> cases h
  | copy => cases h

/-- Only a level keeps a press from having a result; every other row says what to put in from what
is at the site. -/
theorem Row.eq_opener [Text.Memory] {options : Indent.Options} {d : Document} {f : Indent.Failure}
    (h : row.inserted language options d s = .error f) :
    row = opener ∧ Indent.deepen s.indent d options = .error f := by
  cases row with
  | split => cases h
  | below => cases h
  | formatter => cases h
  | opener =>
    rw [Row.inserted] at h
    cases hd : Indent.deepen s.indent d options with
    | error g =>
      rw [hd] at h
      cases h
      exact ⟨rfl, rfl⟩
    | ok new =>
      rw [hd] at h
      cases h
  | copy => cases h

/-- If no comment is split, what is put in is a line feed and blanks. -/
theorem Row.isBlank_inserted [Text.Memory] {options : Indent.Options} {d : Document}
    {text : List Char} (hsplit : row ≠ split) (hindent : ∀ c ∈ s.indent, isBlank c = true)
    (h : row.inserted language options d s = .ok (some text)) :
    ∃ b, text = '\n' :: b ∧ ∀ c ∈ b, isBlank c = true := by
  cases row with
  | split => exact absurd rfl hsplit
  | below =>
    obtain rfl := Option.some.inj (Except.ok.inj h)
    exact ⟨_, rfl, hindent⟩
  | formatter => cases h
  | opener =>
    rw [Row.inserted] at h
    cases hd : Indent.deepen s.indent d options with
    | error f =>
      rw [hd] at h
      cases h
    | ok indent =>
      rw [hd] at h
      obtain rfl := Option.some.inj (Except.ok.inj h)
      exact ⟨_, rfl, Indent.isBlank_of_deepen hindent hd⟩
  | copy =>
    obtain rfl := Option.some.inj (Except.ok.inj h)
    exact ⟨_, rfl, hindent⟩

/-- What is put in starts with a line feed and has no other, so it breaks one line in two. -/
theorem Row.exists_inserted [Text.Memory] {options : Indent.Options} {d : Document}
    {text : List Char}
    (hlead : '\n' ∉ language.commentLead) (hindent : ∀ c ∈ s.indent, isBlank c = true)
    (h : row.inserted language options d s = .ok (some text)) :
    ∃ b, text = '\n' :: b ∧ '\n' ∉ b := by
  by_cases hsplit : row = split
  · subst hsplit
    obtain rfl := Option.some.inj (Except.ok.inj h)
    refine ⟨s.indent ++ language.commentLead, rfl, ?_⟩
    rw [List.mem_append, not_or]
    exact ⟨Text.not_mem_of_isBlank hindent, hlead⟩
  · obtain ⟨b, rfl, hb⟩ := Row.isBlank_inserted hsplit hindent h
    exact ⟨b, rfl, Text.not_mem_of_isBlank hb⟩

end Enter

end SmartEnter
