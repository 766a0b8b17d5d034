/-
# The decision

What Enter does is decided from little: the last token before the caret, looked for on the caret's
line and the one above; the indent of the line; and what the line has behind the caret (`Site`).
There are nine decisions.  Five leave the key to the next handler, and four put in a line break
followed by

* the indent and a comment opener, when a line comment is split (`splitComment`);
* the indent, when only a comment on the line above was found (`afterComment`);
* the indent and one more level, after a token that opens a block (`deepen`);
* the indent, in all other cases (`copyIndent`).

The decision is taken in two steps.  `Decision.of` refuses the key where the editor, the document or
the caret leave nothing to decide; the text is not looked at before that.  `Decision.ofSite` goes by
the site alone, and by the document in one case only, which is the style of a level if the line has
no indent to read it from.

The order of the questions is part of the decision.  A comment is asked about before a formatter, so
a comment is split even in a language whose formatter takes care of everything else; and a formatter
is asked about before an opener.  Of the two questions about a comment the first does not look where
the comment starts.  A comment that ends the line above counts as one to be split if the line below
has more than blanks behind the caret.

A decision can fail in one place.  One more level may be too wide to be written, and then there is
no result.

The result of a press and the line that explains it are functions of the decision
(`Decision.result`, `Decision.explain`), so no two places have to agree about what was decided.
-/
import SmartEnter.Enter.Basic
import SmartEnter.Text.Quoted
import SmartEnter.Token.Search

namespace SmartEnter.Enter

open Text (isBlank)

/-- What happens to a press of Enter, and why.  Each decision carries what its result and its
explanation need, and no more. -/
inductive Decision where
  /-- The buffer has no text of the language. -/
  | otherLanguage (present : List String) (id : String)
  /-- The buffer is only shown. -/
  | viewer
  /-- The document may not be changed. -/
  | readOnly
  /-- Nothing stands before the caret. -/
  | bufferStart
  /-- The language has a formatter that takes care of Enter. -/
  | formatter (id : String)
  /-- Text of a line comment moves to the new line and stays a comment. -/
  | splitComment (indent lead : List Char)
  /-- The caret stands on the line below a comment, with no code before it. -/
  | afterComment (indent : List Char)
  /-- The token before the caret opens a block. -/
  | deepen (opener : TokenKind) (indent : List Char)
  /-- Nothing asks for another indent. -/
  | copyIndent (indent : List Char)
  deriving Repr, DecidableEq

/-! ## 1. The site of the press

The site is everything that the text has to say.  It is gathered once, before any question is asked,
although not every decision needs all of it; the questions are then about four plain values, and no
longer about offsets. -/

/-- What a decision looks at.  Two presses at the same site get the same decision, up to the style
of a level. -/
structure Site where
  /-- Where the caret's line starts. -/
  lineStart : Nat
  /-- The indent of the caret's line. -/
  indent : List Char
  /-- What the line has behind the caret. -/
  behind : List Char
  /-- The last token before the caret that is not blank, on this line or the one above. -/
  token : Option Token
  deriving Repr, DecidableEq

/-- The site of a caret in a document.  The search for the token starts at the character before the
caret and ends where the line above starts, so it reads two lines at most; the lexing reads the
whole text, because what a character means depends on what stands before it. -/
def Site.of (language : Language) (d : Document) (caret : Int) : Site :=
  let line := d.lineNumber caret
  let tokens := language.tokens d.text
  { lineStart := d.startOf line
    indent := d.indentOf line
    behind := Text.slice d.text caret (d.endOf line)
    token := Token.nearest? tokens (Token.indexAt tokens (caret - 1)) (d.startOf (line - 1))
      language.blanks }

namespace Site

/-- The token before the caret, if it is a line comment.  It may be the comment of the line
above. -/
def comment (site : Site) (language : Language) : Option Token :=
  site.token.filter (·.kind = language.commentKind)

/-- The token before the caret, if it opens a block.  It may stand on the line above as well, with
blanks only between it and the caret. -/
def opener (site : Site) (language : Language) : Option Token :=
  site.token.filter (·.kind ∈ language.openers)

end Site

/-! ## 2. Deciding -/

variable [Text.Memory]

/-- **The decision at a site**, for a caret behind the start of a document that may be changed.  The
first question that is answered with yes decides. -/
def Decision.ofSite (language : Language) (formatters : Formatters) (options : Indent.Options)
    (d : Document) (site : Site) : Except Indent.Failure Decision :=
  if (site.comment language).isSome ∧ site.behind.any (!isBlank ·) then
    .ok (.splitComment site.indent language.commentLead)
  else if (site.comment language).any (·.start.offset < site.lineStart) then
    .ok (.afterComment site.indent)
  else if language.id ∈ formatters then .ok (.formatter language.id)
  else
    match site.opener language with
    | some token => .deepen token.kind <$> Indent.deepen site.indent d options
    | none => .ok (.copyIndent site.indent)

/-- **The decision for a press of Enter in an editor.**  The guards come first, and each of them
leaves the key to the next handler. -/
def Decision.of (language : Language) (formatters : Formatters) (options : Indent.Options)
    (e : Editor) : Except Indent.Failure Decision :=
  if language.id ∉ e.session.languages then
    .ok (.otherLanguage e.session.languages language.id)
  else if e.session.viewer then .ok .viewer
  else if !e.document.writable then .ok .readOnly
  else if e.caret ≤ 0 then .ok .bufferStart
  else
    Decision.ofSite language formatters options e.document
      (Site.of language e.document e.caret)

namespace Decision

/-- The text that a decision puts in, if any.  Every one of them starts with a line feed and goes on
with the indent of the line. -/
def inserted : Decision → Option (List Char)
  | splitComment indent lead => some ('\n' :: indent ++ lead)
  | afterComment indent => some ('\n' :: indent)
  | deepen _ indent => some ('\n' :: indent)
  | copyIndent indent => some ('\n' :: indent)
  | _ => none

/-- The caret that a decision chooses, if any; `line` is the line the caret is on.  Behind a comment
that was split it is a fixed column, which is not the place behind the insertion. -/
def caret (line : Nat) (tabWidth : Int) : Decision → Option Caret
  | splitComment _ _ => some ⟨line + 1, 1⟩
  | copyIndent indent => some ⟨line + 1, Indent.displayWidth indent tabWidth⟩
  | _ => none

/-- What a decision comes to in an editor: the key is used up exactly if there is a text to put
in. -/
def result (e : Editor) (decision : Decision) : Result :=
  match decision.inserted with
  | none => .deferred
  | some text =>
    { outcome := .stop
      insertion := some ⟨e.caret, text⟩
      caret := decision.caret (e.document.lineNumber e.caret) e.session.tabWidth }

/-- Why a decision was taken, for a log; `caret` is the offset of the caret.  Texts are quoted, so
that the blanks of an indent can be told apart. -/
def explain (caret : Int) : Decision → String
  | otherLanguage present id =>
    "buffer languages [" ++ ", ".intercalate (present.map Text.quote) ++ "] exclude "
      ++ Text.quote id
  | viewer => "editor is a viewer, deferring"
  | readOnly => "document is read-only, deferring"
  | bufferStart => "caret at start of buffer, deferring"
  | formatter id => Text.quote id ++ " has a structural formatter, deferring"
  | splitComment _ _ => "splitting line comment at " ++ toString caret
  | afterComment _ => "caret follows a comment from the previous line"
  | deepen opener indent =>
    "indenting after TokenType." ++ opener.name ++ ": " ++ String.ofList (Text.quoted indent)
  | copyIndent indent => "copying indent " ++ String.ofList (Text.quoted indent)

end Decision

/-- **A press of Enter**, in an editor if there is one.  Without an editor the key is left to the
next handler, whatever the language. -/
def press (language : Language) (formatters : Formatters) (options : Indent.Options) :
    Option Editor → Except Indent.Failure Result
  | none => .ok .deferred
  | some e => (·.result e) <$> Decision.of language formatters options e

end SmartEnter.Enter
