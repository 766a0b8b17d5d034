/-
# Reading with a cursor

The lexemes of a text are first parts of what is left of it, so reading them cannot go past the end,
and none of them is empty.  A reader that moves a cursor over a buffer promises neither.  It looks
at the characters from the cursor on and moves over them one by one; a move at the end of the buffer
is a fault (`PastEnd`), and a branch may come to its end without a move.  Nothing bounds its loops,
so here every loop is given a number of turns, and it has no result if they do not suffice
(`unfinished`).

If comments that may span lines have an opener or a closer, the reader with a cursor comes to its
end on every buffer, without a fault, with at most one turn of a loop for each character and one
more, and its tokens are those of the text (`read_eq_tokens`).

* A loop is compared with the function that cuts its part off a list.  All lemmas have one form: if
  `y` is what stands from the cursor on, the loop moves the cursor over a certain first part of `y`.
* A branch is compared with one of `Lexis.next` (`readOne_eq`), and what it moves over is not
  empty.  That every branch moves the cursor is decided there.
* The tokens follow by induction on what stands from the cursor on (`readFrom_eq`).

The condition is needed: a comment with neither opener nor closer is read again and again at the
same place, however many turns there are (`read_ne_pure`).
-/
import SmartEnter.Proofs.Token.Branch
import SmartEnter.Proofs.Token.Break

namespace SmartEnter

open Lexis (untilBreak throughCloser stringTail numberTail)
open Text (isBlank isBreak)

namespace Cursor

/-! ## 1. The reader

All functions take the whole buffer and a place in it.  The number of turns, `n`, is the same for
all loops, since a loop is started with all its turns each time. -/

/-- The cursor would be moved past the end of the buffer.  There is only one such fault, and it
carries nothing. -/
structure PastEnd where
  deriving Repr, DecidableEq

/-- What a reader does: it may fail, and it has no result if a loop does not end in its turns.  The
two are told apart, because a fault ends the work and more turns may finish it. -/
abbrev Work := ExceptT PastEnd Option

/-- The turns of a loop are used up.  Nothing can be said then of what it would have come to. -/
def unfinished {α : Type} : Work α := (none : Option (Except PastEnd α))

def advance (s : List Char) (p : Position) : Work Position :=
  match s[p.offset]? with
  | some c => pure (p.step c)
  | none => throw ⟨⟩

def advanceBy (s : List Char) : Nat → Position → Work Position
  | 0, p => pure p
  | n + 1, p => do advanceBy s n (← advance s p)

/-- Moves the cursor on as long as the text from there on passes a test.  The test sees the text and
not only a character, since some loops look ahead. -/
def skipWhile (s : List Char) (test : List Char → Bool) : Nat → Position → Work Position
  | 0, _ => unfinished
  | n + 1, p =>
    if p.offset < s.length ∧ test (s.drop p.offset) then do skipWhile s test n (← advance s p)
    else pure p

/-- Moves the cursor behind the next closer, or to the end of the buffer. -/
def skipThrough (s closer : List Char) : Nat → Position → Work Position
  | 0, _ => unfinished
  | n + 1, p =>
    if p.offset < s.length then
      if closer.isPrefixOf (s.drop p.offset) then advanceBy s closer.length p
      else do skipThrough s closer n (← advance s p)
    else pure p

/-- Moves the cursor behind the quote that closes a string, or to the end of the line.  A backslash
goes together with the character behind it, unless that is a line feed or the buffer ends. -/
def skipString (s : List Char) (quote : Char) : Nat → Position → Work Position
  | 0, _ => unfinished
  | n + 1, p =>
    match s[p.offset]? with
    | none => pure p
    | some c =>
      if isBreak (s.drop p.offset) then pure p
      else do
        let q ← advance s p
        if c = '\\' ∧ s[q.offset]?.any (· ≠ '\n') then do skipString s quote n (← advance s q)
        else if c = quote then pure q
        else skipString s quote n q

/-- A number goes on: with a letter, a digit, an underscore, or a point before a digit. -/
def isNumberPart (y : List Char) : Bool :=
  y.head?.any Token.isIdentChar || (y.head? = some '.' && y[1]?.any Unicode.isDigit)

/-- An operator goes on, and no comment starts. -/
def isOperatorPart (L : Lexis) (y : List Char) : Bool :=
  y.head?.any Token.isOperatorChar && !L.startsLineComment y && !L.startsBlockComment y

section Loops

-- how many turns a loop may take
variable (n : Nat)

/-- Reads a word, a number or an operator at the cursor, or a character that is none of them. -/
def readWord (L : Lexis) (s : List Char) (p : Position) (c : Char) : Work (TokenKind × Position) :=
  if Token.isIdentStart c then
    Prod.mk .identifier <$> skipWhile s (·.head?.any Token.isIdentChar) n p
  else if Unicode.isDigit c then Prod.mk .number <$> skipWhile s isNumberPart n p
  else if Token.isOperatorChar c then Prod.mk .operator <$> skipWhile s (isOperatorPart L) n p
  else Prod.mk .text <$> advance s p

/-- Reads a string or a delimiter at the cursor, or what else code is made of. -/
def readCode (L : Lexis) (s : List Char) (p : Position) (c : Char) : Work (TokenKind × Position) :=
  if c ∈ L.quotes then do
    let q ← advance s p
    Prod.mk .string <$> skipString s c n q
  else
    match Token.delimiter? c with
    | some kind => Prod.mk kind <$> advance s p
    | none => readWord n L s p c

/-- Reads blanks or a comment at the cursor, or else code.  A comment opens wherever its marker
stands outside strings. -/
def readInLine (L : Lexis) (s : List Char) (p : Position) (c : Char) :
    Work (TokenKind × Position) :=
  if isBlank c then Prod.mk .ws <$> skipWhile s (·.head?.any isBlank) n p
  else if L.startsLineComment (s.drop p.offset) then
    Prod.mk .lineComment <$> skipWhile s (!isBreak ·) n p
  else
    match L.blockComment.filter (·.1.isPrefixOf (s.drop p.offset)) with
    | some (opener, closer) => do
      let q ← advanceBy s opener.length p
      Prod.mk .blockComment <$> skipThrough s closer n q
    | none => readCode n L s p c

/-- Reads the token at the cursor, where the character `c` stands: its kind, and the place behind
it. -/
def readOne (L : Lexis) (s : List Char) (p : Position) (c : Char) : Work (TokenKind × Position) :=
  if c = '\n' then Prod.mk .newline <$> advance s p
  else if c = '\r' ∧ s[p.offset + 1]? = some '\n' then Prod.mk .newline <$> advanceBy s 2 p
  else readInLine n L s p c

/-- The token between two places of a buffer.  Its text is cut out of the buffer, so it is what the
cursor was moved over. -/
def emit (s : List Char) (kind : TokenKind) (start stop : Position) : Token :=
  ⟨kind, (s.take stop.offset).drop start.offset, start, stop⟩

/-- Reads the tokens from the cursor on, and the end mark. -/
def readFrom (L : Lexis) (s : List Char) : Nat → Position → Work (List Token)
  | 0, _ => unfinished
  | m + 1, p =>
    match s[p.offset]? with
    | none => pure [emit s .eof p p]
    | some c => do
      let (kind, q) ← readOne n L s p c
      let rest ← readFrom L s m q
      return emit s kind p q :: rest

def read (L : Lexis) (s : List Char) : Work (List Token) := readFrom n L s n .start

end Loops

variable {s y rest t : List Char} {p : Position} {c : Char} {n : Nat}

/-! ## 2. Moving the cursor

What stands from the cursor on is the buffer without its first characters.  The lemmas turn looks at
the buffer and moves over it into statements about that list. -/

theorem getElem?_of_drop (h : s.drop p.offset = y) : s[p.offset]? = y.head? := by
  rw [← h, List.head?_drop]

theorem lt_length_of_drop (h : s.drop p.offset = c :: rest) : p.offset < s.length := by
  rw [← Nat.not_le, ← List.drop_eq_nil_iff, h]
  exact List.cons_ne_nil c rest

theorem not_lt_length_of_drop (h : s.drop p.offset = []) : ¬p.offset < s.length :=
  Nat.not_lt.2 (List.drop_eq_nil_iff.1 h)

theorem length_lt_of_drop (h : s.drop p.offset = y) (hn : s.length < n) : y.length < n := by
  rw [← h, List.length_drop]
  omega

theorem drop_advance (h : s.drop p.offset = t ++ y) : s.drop (p.advance t).offset = y := by
  rw [Position.offset_advance, ← List.drop_drop, h, List.drop_left]

theorem drop_step (h : s.drop p.offset = c :: rest) : s.drop (p.step c).offset = rest :=
  drop_advance (t := [c]) h

theorem advance_eq (h : s.drop p.offset = c :: rest) : advance s p = pure (p.step c) := by
  rw [advance, getElem?_of_drop h, List.head?_cons]

theorem advanceBy_eq (h : s.drop p.offset = t ++ y) :
    advanceBy s t.length p = pure (p.advance t) := by
  induction t generalizing p with
  | nil => rfl
  | cons c t ih =>
    rw [List.length_cons, advanceBy, advance_eq h, pure_bind, ih (drop_step h)]
    rfl

/-! ## 3. The loops

Each by induction on its turns, of which there are more than characters left. -/

/-- The first part of a text that a loop moves over: up to where the text fails a test. -/
def passed (test : List Char → Bool) : List Char → List Char
  | [] => []
  | c :: rest => if test (c :: rest) then c :: passed test rest else []

theorem passed_cons {test : List Char → Bool} (h : test (c :: rest) = true) :
    passed test (c :: rest) = c :: passed test rest := if_pos h

theorem skipWhile_eq {test : List Char → Bool} (h : s.drop p.offset = y) (hn : y.length < n) :
    skipWhile s test n p = pure (p.advance (passed test y)) := by
  induction y generalizing p n with
  | nil =>
    obtain ⟨n, rfl⟩ := Nat.exists_eq_succ_of_ne_zero (Nat.ne_zero_of_lt hn)
    rw [skipWhile, if_neg fun hp => not_lt_length_of_drop h hp.1]
    rfl
  | cons c rest ih =>
    obtain ⟨n, rfl⟩ := Nat.exists_eq_succ_of_ne_zero (Nat.ne_zero_of_lt hn)
    by_cases ht : test (c :: rest) = true
    · rw [skipWhile, if_pos ⟨lt_length_of_drop h, by rw [h, ht]⟩, advance_eq h, pure_bind,
        ih (drop_step h) (Nat.lt_of_succ_lt_succ hn), passed_cons ht]
      rfl
    · rw [skipWhile, if_neg fun hp => ht (h ▸ hp.2), passed, if_neg ht]
      rfl

theorem skipThrough_eq {closer : List Char} (h : s.drop p.offset = y) (hn : y.length < n) :
    skipThrough s closer n p = pure (p.advance (throughCloser closer y)) := by
  induction y generalizing p n with
  | nil =>
    obtain ⟨n, rfl⟩ := Nat.exists_eq_succ_of_ne_zero (Nat.ne_zero_of_lt hn)
    rw [skipThrough, if_neg (not_lt_length_of_drop h)]
    rfl
  | cons c rest ih =>
    obtain ⟨n, rfl⟩ := Nat.exists_eq_succ_of_ne_zero (Nat.ne_zero_of_lt hn)
    rw [skipThrough, if_pos (lt_length_of_drop h), h, throughCloser]
    by_cases hc : closer.isPrefixOf (c :: rest) = true
    · obtain ⟨z, hz⟩ := List.isPrefixOf_iff_prefix.1 hc
      rw [if_pos hc, if_pos hc, advanceBy_eq (h.trans hz.symm)]
    · rw [if_neg hc, if_neg hc, advance_eq h, pure_bind,
        ih (drop_step h) (Nat.lt_of_succ_lt_succ hn)]
      rfl

/-- The body of the loop over a string, at a character that does not break the line. -/
theorem skipString_cons {quote : Char} (h : s.drop p.offset = c :: rest)
    (hb : isBreak (c :: rest) = false) (n : Nat) :
    skipString s quote (n + 1) p =
      if c = '\\' ∧ rest.head?.any (· ≠ '\n') then
        advance s (p.step c) >>= skipString s quote n
      else if c = quote then pure (p.step c)
      else skipString s quote n (p.step c) := by
  rw [skipString, getElem?_of_drop h]
  dsimp only [List.head?_cons]
  rw [h, if_neg (by rw [hb]; exact Bool.false_ne_true), advance_eq h, pure_bind,
    getElem?_of_drop (drop_step h)]

theorem skipString_stop {quote : Char} (h : s.drop p.offset = y) (hend : y = [] ∨ isBreak y = true)
    (hn : 0 < n) : skipString s quote n p = pure p := by
  obtain ⟨n, rfl⟩ := Nat.exists_eq_succ_of_ne_zero (Nat.ne_zero_of_lt hn)
  rw [skipString, getElem?_of_drop h]
  cases y with
  | nil => rfl
  | cons c rest =>
    dsimp only [List.head?_cons]
    rw [h, if_pos (hend.resolve_left (List.cons_ne_nil c rest))]

theorem skipString_eq {quote : Char} (h : s.drop p.offset = y) (hn : y.length < n) :
    skipString s quote n p = pure (p.advance (stringTail quote y)) := by
  fun_induction stringTail quote y generalizing p n with
  | case1 => exact skipString_stop h (.inl rfl) hn
  | case2 rest =>
    -- the line ends behind the backslash
    obtain ⟨n, rfl⟩ := Nat.exists_eq_succ_of_ne_zero (Nat.ne_zero_of_lt hn)
    have hpos : 0 < n := Nat.zero_lt_of_lt (Nat.lt_of_succ_lt_succ hn)
    rw [skipString_cons h rfl, if_neg (by simp), skipString_stop (drop_step h) (.inr rfl) hpos,
      ite_self]
    rfl
  | case3 d rest hd ih =>
    obtain ⟨n, rfl⟩ := Nat.exists_eq_succ_of_ne_zero (Nat.ne_zero_of_lt hn)
    rw [List.length_cons, List.length_cons] at hn
    rw [skipString_cons h rfl, if_pos ⟨rfl, by simpa using hd⟩, advance_eq (drop_step h), pure_bind,
      ih (drop_step (drop_step h)) (by omega)]
    rfl
  | case4 c rest _ hb => exact skipString_stop h (.inr hb) (Nat.zero_lt_of_lt hn)
  | case5 rest hpair hb =>
    obtain ⟨n, rfl⟩ := Nat.exists_eq_succ_of_ne_zero (Nat.ne_zero_of_lt hn)
    have hnone : ¬(quote = '\\' ∧ rest.head?.any (· ≠ '\n') = true) := by
      rintro ⟨hq, hany⟩
      cases rest with
      | nil => cases hany
      | cons d rest => exact hpair d rest hq rfl
    rw [skipString_cons h (Bool.eq_false_iff.2 hb), if_neg hnone, if_pos rfl]
    rfl
  | case6 c rest hpair hb hq ih =>
    obtain ⟨n, rfl⟩ := Nat.exists_eq_succ_of_ne_zero (Nat.ne_zero_of_lt hn)
    have hnone : ¬(c = '\\' ∧ rest.head?.any (· ≠ '\n') = true) := by
      rintro ⟨hc, hany⟩
      cases rest with
      | nil => cases hany
      | cons d rest => exact hpair d rest hc rfl
    rw [skipString_cons h (Bool.eq_false_iff.2 hb), if_neg hnone, if_neg hq,
      ih (drop_step h) (Nat.lt_of_succ_lt_succ hn)]
    rfl

/-! ## 4. What the loops move over

The first parts that the loops move over are those that the functions of the lexer cut off. -/

theorem passed_head {f : Char → Bool} (y : List Char) :
    passed (·.head?.any f) y = y.takeWhile f := by
  induction y with
  | nil => rfl
  | cons c rest ih =>
    rw [passed, List.takeWhile_cons, ih]
    rfl

theorem passed_not_isBreak (y : List Char) : passed (!isBreak ·) y = untilBreak y := by
  induction y with
  | nil => rfl
  | cons c rest ih =>
    rw [passed, untilBreak, ih]
    cases isBreak (c :: rest) <;> rfl

theorem isNumberPart_cons : isNumberPart (c :: rest) =
    (Token.isIdentChar c || (c = '.' && rest.head?.any Unicode.isDigit)) := by
  rw [isNumberPart, List.head?_cons, Option.any_some, List.getElem?_cons_succ,
    ← List.head?_eq_getElem?]
  simp only [Option.some.injEq]

theorem passed_isNumberPart (y : List Char) : passed isNumberPart y = numberTail y := by
  induction y with
  | nil => rfl
  | cons c rest ih => rw [passed, numberTail, ih, isNumberPart_cons]

theorem passed_isOperatorPart (L : Lexis) (y : List Char) :
    passed (isOperatorPart L) y = L.operatorTail y := by
  induction y with
  | nil => rfl
  | cons c rest ih =>
    rw [passed, Lexis.operatorTail, ih]
    rfl

/-! ## 5. One token

One lemma for each way to get to a branch, and then all branches in one theorem. -/

variable {L : Lexis}

theorem blockCommentText_eq_cons {opener closer : List Char}
    (hL : L.blockComment = some (opener, closer)) (hne : (opener, closer) ≠ ([], []))
    (ho : opener.isPrefixOf (c :: rest) = true) :
    L.blockCommentText (c :: rest) = c :: (L.blockCommentText (c :: rest)).tail := by
  have hpos : L.blockCommentText (c :: rest) ≠ [] := by
    rw [Lexis.blockCommentText, hL]
    dsimp only
    cases opener with
    | nil =>
      have hcloser : closer ≠ [] := fun h => hne (by rw [h])
      rw [List.length_nil, List.take_zero, List.nil_append, List.drop_zero, throughCloser]
      split
      · exact hcloser
      · exact List.cons_ne_nil _ _
    | cons d opener => exact List.append_ne_nil_of_left_ne_nil (List.cons_ne_nil _ _) _
  obtain ⟨d, z, hz⟩ := List.exists_cons_of_ne_nil hpos
  have hprefix := L.blockCommentText_isPrefix (c :: rest)
  rw [hz] at hprefix ⊢
  rw [(List.cons_prefix_cons.1 hprefix).1, List.tail_cons]

section Branches

variable (h : s.drop p.offset = c :: rest)

include h

theorem readOne_of_isBreak (hb : isBreak (c :: rest) = true) :
    readOne n L s p c = pure (.newline, p.advance (c :: if c = '\n' then [] else ['\n'])) := by
  by_cases hc : c = '\n'
  · rw [readOne, if_pos hc, if_pos hc, advance_eq h, map_pure]
    rfl
  · obtain ⟨rfl, hn⟩ := (Text.isBreak_cons_iff.1 hb).resolve_left hc
    have hnext : s[p.offset + 1]? = some '\n' := by
      rw [← hn, ← List.head?_drop, List.drop_add_one_eq_tail_drop, h, List.tail_cons]
    have htwo : s.drop p.offset = ['\r', '\n'] ++ rest.tail := by
      rw [h, List.cons_append, List.singleton_append, List.cons_head?_tail hn]
    rw [readOne, if_neg hc, if_pos ⟨rfl, hnext⟩, if_neg hc]
    have hmove : advanceBy s 2 p = pure (p.advance ['\r', '\n']) := advanceBy_eq htwo
    rw [hmove, map_pure]

theorem readOne_of_not_isBreak (hb : isBreak (c :: rest) = false) :
    readOne n L s p c = readInLine n L s p c := by
  have hbreak := mt Text.isBreak_cons_iff.2 (Bool.eq_false_iff.1 hb)
  rw [not_or] at hbreak
  have hnext : s[p.offset + 1]? = rest.head? := by
    rw [← List.head?_drop, List.drop_add_one_eq_tail_drop, h, List.tail_cons]
  rw [readOne, if_neg hbreak.1, hnext, if_neg hbreak.2]

theorem readOne_of_startsCode (hc : L.StartsCode c rest) :
    readOne n L s p c = readCode n L s p c := by
  have hnone : L.blockComment.filter (·.1.isPrefixOf (c :: rest)) = none := by
    rw [Option.filter_eq_none_iff]
    intro markers hm ho
    exact Bool.eq_false_iff.1 hc.noBlockComment (Option.any_eq_true _ _ |>.2 ⟨markers, hm, ho⟩)
  rw [readOne_of_not_isBreak h hc.noBreak, readInLine, h, hc.noBlank, hc.noLineComment, hnone]
  rfl

theorem readOne_of_startsWord (hw : L.StartsWord c rest) :
    readOne n L s p c = readWord n L s p c := by
  rw [readOne_of_startsCode h hw.toStartsCode, readCode, if_neg hw.noQuote, hw.noDelimiter]

/-- A loop that starts with a character that it moves over.  The branches for runs are this, each
with the test of its run. -/
theorem skipWhile_cons (hn : s.length < n) {test : List Char → Bool} (kind : TokenKind)
    (ht : test (c :: rest) = true) :
    Prod.mk kind <$> skipWhile s test n p = pure (kind, p.advance (c :: passed test rest)) := by
  rw [skipWhile_eq h (length_lt_of_drop h hn), passed_cons ht, map_pure]

/-- **What is read at the cursor is what is read first off the text from there on.** -/
theorem readOne_eq (hturns : s.length < n) (hL : L.blockComment ≠ some ([], [])) {kind : TokenKind}
    (hbranch : L.Branch c rest kind t) : readOne n L s p c = pure (kind, p.advance (c :: t)) := by
  cases hbranch with
  | newline hb => exact readOne_of_isBreak h hb
  | ws hb hw =>
    rw [readOne_of_not_isBreak h hb, readInLine, if_pos hw, skipWhile_cons h hturns _ hw,
      passed_head]
  | lineComment hb hw hl =>
    rw [readOne_of_not_isBreak h hb, readInLine, if_neg (Bool.eq_false_iff.1 hw), h, if_pos hl,
      skipWhile_cons h hturns _ (by rw [hb]; rfl), passed_not_isBreak]
  | blockComment hb hw hl ho =>
    -- the opener is passed in one go, so the search for the closer starts behind it
    obtain ⟨⟨opener, closer⟩, hblock, hopen⟩ := Option.any_eq_true _ _ |>.1 ho
    have hsome : L.blockComment.filter (·.1.isPrefixOf (c :: rest)) = some (opener, closer) :=
      Option.filter_eq_some_iff.2 ⟨hblock, hopen⟩
    obtain ⟨z, hz⟩ := List.isPrefixOf_iff_prefix.1 hopen
    have hcut : s.drop p.offset = opener ++ z := h.trans hz.symm
    have htext : L.blockCommentText (c :: rest) = opener ++ throughCloser closer z := by
      rw [Lexis.blockCommentText, hblock]
      dsimp only
      rw [← hz, List.take_left, List.drop_left]
    have hcons := blockCommentText_eq_cons hblock (fun he => hL (by rw [hblock, he])) hopen
    rw [readOne_of_not_isBreak h hb, readInLine, if_neg (Bool.eq_false_iff.1 hw), h,
      if_neg (Bool.eq_false_iff.1 hl), hsome]
    dsimp only
    rw [advanceBy_eq hcut, pure_bind,
      skipThrough_eq (drop_advance hcut) (length_lt_of_drop (drop_advance hcut) hturns), map_pure,
      ← Position.advance_append, ← htext, ← hcons]
  | string hc hq =>
    rw [readOne_of_startsCode h hc, readCode, if_pos hq, advance_eq h, pure_bind,
      skipString_eq (drop_step h) (length_lt_of_drop (drop_step h) hturns), map_pure]
    rfl
  | delimiter hc hq hd =>
    rw [readOne_of_startsCode h hc, readCode, if_neg hq, hd]
    dsimp only
    rw [advance_eq h, map_pure]
    rfl
  | identifier hw hi =>
    have htest : (c :: rest).head?.any Token.isIdentChar = true :=
      Token.isIdentChar_of_isIdentStart hi
    rw [readOne_of_startsWord h hw, readWord, if_pos hi, skipWhile_cons h hturns _ htest,
      passed_head]
  | number hw hi hn =>
    have htest : isNumberPart (c :: rest) = true := by
      rw [isNumberPart_cons, Token.isIdentChar, Unicode.isAlphanumeric_of_isDigit hn]
      rfl
    rw [readOne_of_startsWord h hw, readWord, if_neg (Bool.eq_false_iff.1 hi), if_pos hn,
      skipWhile_cons h hturns _ htest, passed_isNumberPart]
  | operator hw hi hn ho =>
    have htest : isOperatorPart L (c :: rest) = true := by
      rw [isOperatorPart, List.head?_cons, Option.any_some, ho, hw.noLineComment,
        hw.noBlockComment]
      rfl
    rw [readOne_of_startsWord h hw, readWord, if_neg (Bool.eq_false_iff.1 hi),
      if_neg (Bool.eq_false_iff.1 hn), if_pos ho, skipWhile_cons h hturns _ htest,
      passed_isOperatorPart]
  | text hw hi hn ho =>
    rw [readOne_of_startsWord h hw, readWord, if_neg (Bool.eq_false_iff.1 hi),
      if_neg (Bool.eq_false_iff.1 hn), if_neg (Bool.eq_false_iff.1 ho), advance_eq h, map_pure]
    rfl

end Branches

/-! ## 6. The whole buffer -/

/-- The text between two places is the one that the cursor was moved over. -/
theorem emit_eq (kind : TokenKind) (h : s.drop p.offset = t ++ y) :
    emit s kind p (p.advance t) = ⟨kind, t, p, p.advance t⟩ := by
  have htext : (s.take (p.advance t).offset).drop p.offset = t := by
    rw [List.drop_take, Position.offset_advance, Nat.add_sub_cancel_left, h, List.take_left]
  rw [emit, htext]

/-- From the cursor on, the reader reads the lexemes of the text there, at their places. -/
theorem readFrom_eq (hn : s.length < n) (hL : L.blockComment ≠ some ([], [])) {m : Nat}
    (h : s.drop p.offset = y) (hm : y.length < m) :
    readFrom n L s m p = pure (Lexis.place p (L.lexemes y)) := by
  induction m generalizing y p with
  | zero => cases hm
  | succ m ih =>
    by_cases hy : y = []
    · subst hy
      rw [readFrom, getElem?_of_drop h, Lexis.lexemes_nil]
      exact congrArg (fun mark => pure [mark]) (emit_eq (t := []) .eof h)
    · obtain ⟨l, z, hlexemes, rfl, hreads⟩ := L.exists_lexemes_eq_cons hy
      obtain ⟨c, t, ht, hnext⟩ := id hreads
      have hone : readOne n L s p c = pure (l.kind, p.advance l.text) := by
        rw [ht]
        refine readOne_eq ?_ hn hL (Lexis.next_eq_iff_branch.1 hnext)
        rw [h, ht, List.cons_append]
      -- the token is not empty, so less of the buffer is left behind it
      have hshorter : z.length < m := by
        rw [ht, List.length_append, List.length_cons] at hm
        omega
      have hhead : s[p.offset]? = some c := by
        rw [getElem?_of_drop h, ht]
        rfl
      rw [readFrom, hhead]
      dsimp only
      rw [hone, pure_bind]
      dsimp only
      rw [ih (drop_advance h) hshorter, pure_bind, emit_eq l.kind h, hlexemes]
      rfl

/-- **The reader with a cursor ends, without a fault, with the tokens of the text**, if comments
that may span lines have an opener or a closer.  No loop takes more turns than there are characters,
and one more to stop. -/
theorem read_eq_tokens (hL : L.blockComment ≠ some ([], [])) (hn : s.length < n) :
    read n L s = pure (L.tokens s) :=
  readFrom_eq (p := .start) hn hL rfl hn

/-- If the reader does not get on at a place, no number of turns suffices: every turn is the same,
and the last one is followed by none. -/
theorem readFrom_ne_pure {kind : TokenKind} (hc : s[p.offset]? = some c)
    (hone : readOne n L s p c = pure (kind, p)) (m : Nat) (ts : List Token) :
    readFrom n L s m p ≠ pure ts := by
  induction m generalizing ts with
  | zero => nofun
  | succ m ih =>
    intro h
    rw [readFrom, hc] at h
    dsimp only at h
    rw [hone, pure_bind] at h
    dsimp only at h
    cases hrest : readFrom n L s m p with
    | none =>
      rw [hrest] at h
      cases h
    | some result =>
      rw [hrest] at h
      cases result with
      | error fault => cases h
      | ok rest => exact ih rest hrest

/-- **A comment with neither opener nor closer** is never read to its end. -/
theorem read_ne_pure (hL : L.blockComment = some ([], [])) (hb : isBreak (c :: rest) = false)
    (hw : isBlank c = false) (hl : L.startsLineComment (c :: rest) = false) (n : Nat) :
    ∀ ts, read n L (c :: rest) ≠ pure ts := by
  have hstart : (c :: rest).drop Position.start.offset = c :: rest := rfl
  cases n with
  | zero => nofun
  | succ n =>
    have hone : readOne (n + 1) L (c :: rest) .start c = pure (.blockComment, .start) := by
      rw [readOne_of_not_isBreak hstart hb, readInLine, if_neg (Bool.eq_false_iff.1 hw), hstart,
        if_neg (Bool.eq_false_iff.1 hl), hL]
      rfl
    exact readFrom_ne_pure rfl hone (n + 1)

end Cursor

end SmartEnter
