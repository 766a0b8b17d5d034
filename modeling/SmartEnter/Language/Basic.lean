/-
# Languages

What the Enter key has to know of a language: its lexical shape, the text that opens a line comment
when one is split, and the kinds of token that open a deeper level, that do not count, and that are
line comments.  Sets of kinds are lists of which only the members matter.

A language is data, and nothing here knows one from the other.  Whether a brace or a colon opens a
block is a matter of `Language.openers`, and so is everything else in which two languages differ;
the decision about a press is one function for all of them.  So a language that somebody adds is no
less covered by what is proved than the three that are built in, as long as it meets the condition
that is stated in each case, such as a comment opener without a line feed.

Nothing holds the parts of a language together.  The comment that is put in when a comment is split
(`commentLead`) need not be one that the lexis knows, and the kind of a line comment need not be one
that the lexis ever gives to a token.
-/
import SmartEnter.Token.Lexis

namespace SmartEnter

/-- A language as the Enter key sees it: how its text is cut into tokens, which of them count, and
what is written where a comment is split. -/
structure Language where
  id : String
  lexis : Lexis
  /-- Written before the second half of a line comment that is split. -/
  commentLead : List Char
  /-- The kinds of token after which the next line is one level deeper. -/
  openers : List TokenKind
  /-- The kinds of token that are passed over in the search for the last token. -/
  blanks : List TokenKind := [.ws, .newline]
  /-- The kind of token that is a line comment. -/
  commentKind : TokenKind := .lineComment
  /-- The file suffixes of the language, the point included. -/
  extensions : List String := []
  deriving Repr, DecidableEq

namespace Language

/-- The tokens of a text in this language, which depend on its lexical shape alone. -/
def tokens (language : Language) (s : List Char) : List Token := language.lexis.tokens s

/-- The family of languages with braces and slash comments.  The three quotes are those of all
members together, since a buffer is read without knowing which member it is. -/
def c : Language where
  id := "c"
  lexis := { quotes := ['"', '\'', '\x60'] }
  commentLead := ['/', '/', ' ']
  openers := [.lbrace, .lparen, .lbracket]
  extensions := [".c", ".h", ".cc", ".cpp", ".hpp", ".java", ".js", ".ts", ".go", ".rs", ".cs"]

/-- The lexical shape of languages whose only comments open with a hash sign.  Three quotes are read
as an empty string and the start of another one, which ends with its line at the latest. -/
def hashComments : Lexis where
  lineComments := [['#']]
  blockComment := none

def python : Language where
  id := "python"
  lexis := hashComments
  commentLead := ['#', ' ']
  openers := [.colon, .lparen, .lbracket, .lbrace]
  extensions := [".py", ".pyi"]

def shell : Language where
  id := "shell"
  lexis := hashComments
  commentLead := ['#', ' ']
  openers := [.lbrace, .lparen]
  extensions := [".sh", ".bash", ".zsh"]

/-- The languages that are known from the start, in the order in which suffixes are searched.  No
suffix belongs to two of them. -/
def builtin : List Language := [c, python, shell]

end Language

end SmartEnter
