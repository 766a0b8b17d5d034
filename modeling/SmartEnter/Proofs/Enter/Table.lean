/-
# The decision table

What Enter does can be read off a table.  Its first rows refuse the key; the others go by what the
text around the caret says (`Site.read`): the line as the text between two line feeds, its indent,
what it has behind the caret, and the last token before the caret that is not blank, if it does not
start above the line above.  From top to bottom:

* a line comment before the caret, and more than blanks behind it: the comment is split;
* a line comment before the caret that starts above the line: the indent is copied;
* a formatter of the language: the key is left to it;
* a token before the caret that opens a block: the indent and one more level;
* otherwise: the indent is copied, and the caret is put behind it.

A press follows the table in every editor (`press_eq_iff_table`).  A press has no result only if the
level it would put in cannot be written.

The table is a relation, with one case for each row that says when the row applies and what it
gives.  It does not mention how the lines and the token are found: no index of line starts, no
search by halves, and no walk over tokens.  All of that is in the proof that the site of a caret is
what the text says (`Site.of_eq_read`), and from there on the table and the decision ask the same
questions in the same order.

An equality with a table is more than soundness.  There is a row for every editor
(`Table.exists_result`), so a press has no other result than the one that the table gives.
-/
import SmartEnter.Proofs.Document.SourceLines
import SmartEnter.Proofs.Enter.Press
import SmartEnter.Proofs.Indent.Level
import SmartEnter.Proofs.Token.Outline

namespace SmartEnter

open Text (isBlank)

namespace Enter

variable {language : Language} {formatters : Formatters} {options : Indent.Options} {site : Site}

/-! ## 1. What the text says

The site of a caret without the index of a document and without the search among its tokens, and
that it is the same site. -/

/-- The site of a caret, read off the text of a document.  The line is the text between two line
feeds, and the token is found among all tokens of the text. -/
def Site.read (language : Language) (s : List Char) (n : Nat) : Site :=
  let line := (s.take n).count '\n'
  { lineStart := Text.lineOffset s line
    indent := (Text.lineContent s line).takeWhile isBlank
    behind := (Text.lineContent s line).drop (n - Text.lineOffset s line)
    token := (Token.lastBefore? language.blanks n (language.tokens s)).filter
      (Text.lineOffset s (line - 1) ≤ ·.start.offset) }

/-- **The site of a caret is what the text says.**  On the left it is looked up in the index of the
document and among the tokens; on the right it is read off the text. -/
theorem Site.of_eq_read {d : Document} {n : Nat} (hn : n ≤ d.text.length) :
    Site.of language d n = Site.read language d.text n := by
  have hline := d.lineNumber_lt_lineCount hn
  have hbehind : Text.slice d.text n (d.endOf (d.lineNumber n)) =
      (d.contentOf (d.lineNumber n)).drop (n - d.startOf (d.lineNumber n)) := by
    rw [Document.slice_endOf hn]
    obtain ⟨a, b, r, ht, rfl, ha, hb⟩ := Document.exists_line hn
    have ht' := ht.trans (List.append_assoc a b r)
    rw [Document.lineNumber_eq ht hb, Document.contentOf_eq ht' ha, Document.startOf_eq ht' ha, ht,
      List.drop_left, List.length_append, Nat.add_sub_cancel_left, Lexis.drop_untilBreak hb]
  have hcount := Document.lineNumber_eq_count hn
  rw [Site.of, Site.read, hbehind, Document.indentOf, Document.contentOf_eq_lineContent hline,
    Document.startOf_eq_lineOffset hline, Document.startOf_eq_lineOffset (by omega), hcount]
  congr 1
  rw [Language.tokens, Lexis.nearest?_tokens]
  simp only [Int.ofNat_le]

/-! ## 2. The rows

The conditions of the rows, as they would be said of the text, and what each row gives. -/

/-- The rows of the table for a key that is not refused.  They are tried in this order, and the last
one applies where no other does. -/
inductive Row where
  | split
  | below
  | formatter
  | opener
  | copy
  deriving Repr, DecidableEq

namespace Site

/-- The token before the caret is a line comment. -/
def HasComment (site : Site) (language : Language) : Prop :=
  ∃ t, site.token = some t ∧ t.kind = language.commentKind

/-- The token before the caret is a line comment that starts above the caret's line. -/
def HasCommentAbove (site : Site) (language : Language) : Prop :=
  ∃ t, site.token = some t ∧ t.kind = language.commentKind ∧ t.start.offset < site.lineStart

def HasOpener (site : Site) (language : Language) : Prop :=
  ∃ t, site.token = some t ∧ t.kind ∈ language.openers

def HasRest (site : Site) : Prop := ∃ c ∈ site.behind, isBlank c = false

/-- No comment asks for anything: none is split at the caret, and none ends the line above. -/
structure PassesComment (site : Site) (language : Language) : Prop where
  not_split : ¬(site.HasComment language ∧ site.HasRest)
  not_above : ¬site.HasCommentAbove language

end Site

/-- When a row is the one to follow: its condition holds, and none of a row above it.  So at most
one row applies at a site. -/
inductive Row.Applies (language : Language) (formatters : Formatters) (site : Site) : Row → Prop
  | split (hc : site.HasComment language) (hr : site.HasRest) :
      Applies language formatters site split
  | below (hc : site.HasCommentAbove language) (hr : ¬site.HasRest) :
      Applies language formatters site below
  | formatter (h : site.PassesComment language) (hf : language.id ∈ formatters) :
      Applies language formatters site formatter
  | opener (h : site.PassesComment language) (hf : language.id ∉ formatters)
      (ho : site.HasOpener language) : Applies language formatters site opener
  | copy (h : site.PassesComment language) (hf : language.id ∉ formatters)
      (ho : ¬site.HasOpener language) : Applies language formatters site copy

/-- The result that puts a text in at the caret. -/
def Editor.stop (e : Editor) (text : List Char) (caret : Option Caret) : Result :=
  { outcome := .stop, insertion := some ⟨e.caret, text⟩, caret := caret }

/-- What a row says of an editor with the caret on a line, at a site.  Only the row that puts in a
level may have no result. -/
def Row.result [Text.Memory] (language : Language) (options : Indent.Options) (e : Editor)
    (line : Nat) (site : Site) : Row → Except Indent.Failure Result
  | split => .ok (e.stop ('\n' :: site.indent ++ language.commentLead) (some ⟨line + 1, 1⟩))
  | below => .ok (e.stop ('\n' :: site.indent) none)
  | formatter => .ok .deferred
  | opener => (fun indent => e.stop ('\n' :: indent) none) <$>
      Indent.deepen site.indent e.document options
  | copy => .ok (e.stop ('\n' :: site.indent)
      (some ⟨line + 1, Indent.displayWidth site.indent e.session.tabWidth⟩))

/-- Some row is the one to follow, because the last one has no condition of its own. -/
theorem Row.exists_applies (language : Language) (formatters : Formatters) (site : Site) :
    ∃ row, Row.Applies language formatters site row := by
  by_cases hsplit : site.HasComment language ∧ site.HasRest
  · exact ⟨_, .split hsplit.1 hsplit.2⟩
  by_cases habove : site.HasCommentAbove language
  · refine ⟨_, .below habove fun hr => hsplit ⟨?_, hr⟩⟩
    obtain ⟨t, ht, hk, -⟩ := habove
    exact ⟨t, ht, hk⟩
  have hpass : site.PassesComment language := ⟨hsplit, habove⟩
  by_cases hf : language.id ∈ formatters
  · exact ⟨_, .formatter hpass hf⟩
  by_cases ho : site.HasOpener language
  · exact ⟨_, .opener hpass hf ho⟩
  · exact ⟨_, .copy hpass hf ho⟩

/-! ## 3. A press follows the table

The conditions of the rows are those that the decision asks about, one after the other; refused keys
are those of an editor that does not accept the key, and there is no third kind. -/

theorem Site.isSome_comment_iff : (site.comment language).isSome ↔ site.HasComment language := by
  simp only [Site.comment, Option.isSome_iff_exists, Option.filter_eq_some_iff, decide_eq_true_eq,
    Site.HasComment]

theorem Site.any_comment_iff :
    (site.comment language).any (·.start.offset < site.lineStart) = true ↔
      site.HasCommentAbove language := by
  simp only [Site.comment, Option.any_eq_true, Option.filter_eq_some_iff, decide_eq_true_eq,
    Site.HasCommentAbove, and_assoc]

theorem Site.any_behind_iff : site.behind.any (!isBlank ·) = true ↔ site.HasRest := by
  simp only [List.any_eq_true, Bool.not_eq_true', Site.HasRest]

theorem Site.opener_eq_none_iff :
    site.opener language = none ↔ ¬site.HasOpener language := by
  simp only [Site.opener, Option.filter_eq_none_iff, decide_eq_true_eq, Site.HasOpener, not_exists,
    not_and]

/-- The decision at a site that no comment asks anything of: it is the formatter's business, or the
token decides. -/
theorem Site.PassesComment.ofSite_eq [Text.Memory] {d : Document}
    (h : site.PassesComment language) :
    Decision.ofSite language formatters options d site =
      if language.id ∈ formatters then .ok (.formatter language.id)
      else match site.opener language with
        | some token => .deepen token.kind <$> Indent.deepen site.indent d options
        | none => .ok (.copyIndent site.indent) := by
  have hsplit : ¬((site.comment language).isSome ∧ site.behind.any (!isBlank ·)) := fun hc =>
    h.not_split ⟨Site.isSome_comment_iff.1 hc.1, Site.any_behind_iff.1 hc.2⟩
  have habove : ¬(site.comment language).any (·.start.offset < site.lineStart) := fun hc =>
    h.not_above (Site.any_comment_iff.1 hc)
  unfold Decision.ofSite
  exact (if_neg hsplit).trans (if_neg habove)

variable {e : Editor} {row : Row}

/-- **A press follows the row that applies**, in an editor that accepts the key. -/
theorem Row.Applies.press_eq [Text.Memory] (he : e.Accepts language)
    (h : row.Applies language formatters (Site.of language e.document e.caret)) :
    press language formatters options (some e) =
      row.result language options e (e.document.lineNumber e.caret)
        (Site.of language e.document e.caret) := by
  have hpress : press language formatters options (some e) =
      (·.result e) <$> Decision.ofSite language formatters options e.document
        (Site.of language e.document e.caret) := by
    rw [press, he.of_eq]
  rw [hpress]
  cases h with
  | split hc hr =>
    rw [Decision.ofSite, if_pos ⟨Site.isSome_comment_iff.2 hc, Site.any_behind_iff.2 hr⟩]
    rfl
  | below hc hr =>
    rw [Decision.ofSite, if_neg fun h => hr (Site.any_behind_iff.1 h.2),
      if_pos (Site.any_comment_iff.2 hc)]
    rfl
  | formatter h hf =>
    rw [h.ofSite_eq, if_pos hf]
    rfl
  | opener h hf ho =>
    rw [h.ofSite_eq, if_neg hf]
    cases hopener : (Site.of language e.document e.caret).opener language with
    | none => exact absurd ho (Site.opener_eq_none_iff.1 hopener)
    | some t =>
      dsimp only
      rw [Row.result]
      cases Indent.deepen (Site.of language e.document e.caret).indent e.document options <;> rfl
  | copy h hf ho =>
    rw [h.ofSite_eq, if_neg hf, Site.opener_eq_none_iff.2 ho]
    rfl

/-- The editor has no text of the language, is only a viewer or may not be edited, or nothing stands
before the caret.  The caret may be anywhere else, also behind the text. -/
def Editor.Refuses (e : Editor) (language : Language) : Prop :=
  language.id ∉ e.session.languages ∨ e.session.viewer = true ∨ e.document.writable = false ∨
    e.caret ≤ 0

theorem Editor.accepts_or_refuses (e : Editor) (language : Language) :
    e.Accepts language ∨ e.Refuses language := by
  by_cases hlang : language.id ∈ e.session.languages
  swap
  · exact .inr (.inl hlang)
  by_cases hviewer : e.session.viewer = true
  · exact .inr (.inr (.inl hviewer))
  by_cases hwritable : e.document.writable = false
  · exact .inr (.inr (.inr (.inl hwritable)))
  by_cases hcaret : e.caret ≤ 0
  · exact .inr (.inr (.inr (.inr hcaret)))
  · exact .inl ⟨hlang, by simpa using hviewer, by simpa using hwritable, Int.not_le.1 hcaret⟩

/-- An editor that refuses the key leaves it to the next handler, wherever its caret is. -/
theorem Editor.Refuses.press_eq [Text.Memory] (h : e.Refuses language) :
    press language formatters options (some e) = .ok .deferred := by
  rw [press, Decision.of]
  split
  · rfl
  next hlang =>
  split
  · rfl
  next hviewer =>
  split
  · rfl
  next hwritable =>
  split
  · rfl
  next hcaret =>
  -- nothing is left that refuses the key
  rcases h with h | h | h | h
  · exact absurd h hlang
  · exact absurd h hviewer
  · exact absurd (by rw [h]; rfl) hwritable
  · exact absurd h hcaret

/-- **The decision table**, with the result that it gives for an editor, if there is one. -/
inductive Table [Text.Memory] (language : Language) (formatters : Formatters)
    (options : Indent.Options) :
    Option Editor → Except Indent.Failure Result → Prop
  | noEditor : Table language formatters options none (.ok .deferred)
  | refused {e : Editor} (h : e.Refuses language) :
      Table language formatters options (some e) (.ok .deferred)
  | row {e : Editor} {n : Nat} {row : Row} (he : e.Accepts language) (hn : e.caret = n)
      (h : row.Applies language formatters (Site.read language e.document.text n)) :
      Table language formatters options (some e)
        (row.result language options e ((e.document.text.take n).count '\n')
          (Site.read language e.document.text n))

/-- The site and the line of a caret in the text, as the table has them. -/
theorem Editor.Accepts.read (he : e.Accepts language) (hle : e.caret ≤ e.document.text.length) :
    ∃ n : Nat, e.caret = n ∧
      Site.of language e.document e.caret = Site.read language e.document.text n ∧
      e.document.lineNumber e.caret = (e.document.text.take n).count '\n' := by
  have hcaret : e.caret = e.caret.toNat := (Int.toNat_of_nonneg (Int.le_of_lt he.caret_pos)).symm
  have hn : e.caret.toNat ≤ e.document.text.length := by
    have := he.caret_pos
    omega
  refine ⟨e.caret.toNat, hcaret, ?_, ?_⟩
  · rw [hcaret]
    exact Site.of_eq_read hn
  · rw [hcaret]
    exact Document.lineNumber_eq_count hn

variable {x : Except Indent.Failure Result} {editor : Option Editor}

/-- A press has the result that the table gives.  Each row is traced through the decision, with the
rows above it ruled out. -/
theorem Table.press_eq [Text.Memory] (h : Table language formatters options editor x)
    (hcaret : ∀ e, editor = some e → e.Accepts language → e.caret ≤ e.document.text.length) :
    press language formatters options editor = x := by
  cases h with
  | noEditor => rfl
  | refused h => exact h.press_eq
  | @row e n row he hn h =>
    obtain ⟨m, hm, hsite, hline⟩ := he.read (hcaret e rfl he)
    obtain rfl : n = m := by omega
    rw [← hsite] at h
    rw [h.press_eq he, hsite, hline]

/-- The table gives a result for every editor, so that it is not only right but complete. -/
theorem Table.exists_result [Text.Memory] (language : Language) (formatters : Formatters)
    (options : Indent.Options) (editor : Option Editor)
    (hcaret : ∀ e, editor = some e → e.Accepts language → e.caret ≤ e.document.text.length) :
    ∃ x, Table language formatters options editor x := by
  cases editor with
  | none => exact ⟨_, .noEditor⟩
  | some e =>
    rcases e.accepts_or_refuses language with he | he
    · obtain ⟨n, hn, -, -⟩ := he.read (hcaret e rfl he)
      obtain ⟨row, hrow⟩ := Row.exists_applies language formatters
        (Site.read language e.document.text n)
      exact ⟨_, .row he hn hrow⟩
    · exact ⟨_, .refused he⟩

/-- Whatever row is followed, the result can be written if a level of the options can. -/
theorem Row.exists_result [Text.Memory] {d : Document}
    (hdeepen : ∀ old, ∃ s, Indent.deepen old d options = .ok s)
    (hd : e.document = d) (line : Nat) (site : Site) (row : Row) :
    ∃ r, row.result language options e line site = .ok r := by
  cases row with
  | split => exact ⟨_, rfl⟩
  | below => exact ⟨_, rfl⟩
  | formatter => exact ⟨_, rfl⟩
  | opener =>
    obtain ⟨s, hs⟩ := hdeepen site.indent
    rw [Row.result, hd, hs]
    exact ⟨_, rfl⟩
  | copy => exact ⟨_, rfl⟩

/-- **A press follows the decision table.**  The result of a press, or its failure, is the one that
the table gives, for every language, formatters and options, without an editor and in every editor.
Only an editor that accepts the key has to have its caret in the text: one that refuses it may have
the caret anywhere.  With positive sizes there is a result if a level is not too wide for a text. -/
theorem press_eq_iff_table [Text.Memory] {language : Language} {formatters : Formatters}
    {options : Indent.Options} {editor : Option Editor}
    (hcaret : ∀ e, editor = some e → e.Accepts language → e.caret ≤ e.document.text.length) :
    (∀ x, press language formatters options editor = x ↔
        Table language formatters options editor x) ∧
      (0 < options.size → 0 < options.tabSize → options.size ≤ Text.Memory.limit →
        ∃ r, press language formatters options editor = .ok r) := by
  obtain ⟨y, hy⟩ := Table.exists_result language formatters options editor hcaret
  constructor
  · intro x
    constructor
    · rintro rfl
      rw [hy.press_eq hcaret]
      exact hy
    · intro hx
      exact hx.press_eq hcaret
  · intro hsize htab hwidth
    rw [hy.press_eq hcaret]
    cases hy with
    | noEditor => exact ⟨_, rfl⟩
    | refused => exact ⟨_, rfl⟩
    | row => exact Row.exists_result (Indent.exists_deepen hsize htab hwidth · _) rfl _ _ _

/-- On the line below a brace, the table puts in one level.  The token is found on the line
above. -/
theorem table_below_brace :
    let _ := Text.Memory.kilobyte
    (∀ e : Editor, some ⟨⟨['{', '\n'], true⟩, 2, ⟨["c"], false, 4⟩⟩ = some e →
        e.Accepts .c → e.caret ≤ e.document.text.length) ∧
      Table .c [] {} (some ⟨⟨['{', '\n'], true⟩, 2, ⟨["c"], false, 4⟩⟩)
        (.ok ⟨.stop, some ⟨2, ['\n', ' ', ' ', ' ', ' ']⟩, none⟩) ∧
      ∃ r, press .c [] {} (some ⟨⟨['{', '\n'], true⟩, 2, ⟨["c"], false, 4⟩⟩) = .ok r := by
  intro _
  have hlexemes : Language.c.lexis.lexemes ['{', '\n'] =
      [⟨.lbrace, ['{']⟩, ⟨.newline, ['\n']⟩] := by cbv
  have hcaret : ∀ e : Editor, some ⟨⟨['{', '\n'], true⟩, 2, ⟨["c"], false, 4⟩⟩ = some e →
      e.Accepts .c → e.caret ≤ e.document.text.length := by
    intro e he _
    obtain rfl := Option.some.inj he
    decide
  have hr : press .c [] {} (some ⟨⟨['{', '\n'], true⟩, 2, ⟨["c"], false, 4⟩⟩) =
      .ok ⟨.stop, some ⟨2, ['\n', ' ', ' ', ' ', ' ']⟩, none⟩ := by
    refine press_eq_ok_iff.2 ⟨.deepen .lbrace [' ', ' ', ' ', ' '], ?_, rfl⟩
    rw [Decision.of, Site.of, Language.tokens, Lexis.tokens, hlexemes]
    decide
  exact ⟨hcaret, ((press_eq_iff_table hcaret).1 _).1 hr,
    (press_eq_iff_table hcaret).2 (by decide) (by decide) (by decide)⟩

end Enter

end SmartEnter
