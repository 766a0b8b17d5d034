/-
# Finding a token in a stream

`indexAt` is the number of the last token that starts at or before an offset, and `nearest?` walks
back from there over kinds that do not count, such as white space, no further than a given offset.
Together they find the token that decides about a press: the last one before the caret that is not
blank.

The search looks at the places where tokens start, and never at those where they stop.  The tokens
of a text are in order and leave no gap, so the last one that starts at or before an offset of the
text is the one that covers it; that holds of no offset behind the text, for which the answer is the
end mark.  Counting the tokens that start in time is the same as looking for the last of them by
halves, as long as the starts ascend.

The walk is bounded, because what stands far above the caret is no matter of the line that is being
broken.  A token that starts before the bound ends the search even if it reaches beyond it: a block
comment of many lines that is open at the bound is not found.
-/
import SmartEnter.Token.Basic

namespace SmartEnter.Token

/-- The index of the last token that starts at or before `offset`; -1 if there is none, which means
that the offset is negative if the tokens are those of a text. -/
def indexAt (tokens : List Token) (offset : Int) : Int :=
  (tokens.countP fun t => t.start.offset ≤ offset : Int) - 1

/-- The last token among `before` (nearest first) whose kind does not count as blank, unless a token
that starts before `lowest` comes first.  The recursion is on the tokens, nearest to the caret
first. -/
def nearestOf (blanks : List TokenKind) (lowest : Int) : List Token → Option Token
  | [] => none
  | t :: before =>
    if t.start.offset < lowest then none
    else if t.kind ∈ blanks then nearestOf blanks lowest before
    else some t

/-- The nearest token at or before `index` that is not blank, no further back than `lowest`.  An
index that is none finds nothing. -/
def nearest? (tokens : List Token) (index lowest : Int) (blanks : List TokenKind) : Option Token :=
  if 0 ≤ index ∧ index < tokens.length then
    nearestOf blanks lowest (tokens.take (index.toNat + 1)).reverse
  else none

end SmartEnter.Token
