/-
# What each token is

A token's kind says what its text is and where it ends.  `Spelling` states this for each kind
without mention of how a text is read: a row for each form that the text may have, with what may
stand behind it.  Runs are maximal: what stands behind white space, a word, a number or a run of
operators does not go on with it.

Every lexeme is spelled as its kind says (`Reads.spelling`).  Of two neighbours, hence, the second
never goes on with the first, and a line comment has the end of its line behind it
(`Reads.kind_not_mem_barred`).

Three of the rows say where something comes first, which a reader finds by going on until it is
there.  A block comment ends with the first closer behind its opener, which may not overlap with it;
a string ends with the first quote that belongs to no backslash; and a run of operators ends before
the first comment that opens in it.  Strings are described by their units (`escapePairs`), because
whether a backslash escapes a quote depends on all backslashes before it.

The main statement, `spelling_of_tokens`, is for the tokens of the built-in languages.  The rows
themselves hold for all languages whose comments open within a line.
-/
import SmartEnter.Proofs.Language.Builtin
import SmartEnter.Proofs.Token.LineFeeds
import SmartEnter.Proofs.Token.Tiling

namespace SmartEnter

open Lexeme (spell)
open Text (isBlank isBreak isBreak_cons_iff)

/-- A text read from left to right, in which a backslash goes together with the character behind
it unless that is a line feed, and every other character stands alone. -/
def escapePairs : List Char → List (List Char)
  | [] => []
  | '\\' :: c :: rest =>
    if c = '\n' then ['\\'] :: escapePairs (c :: rest) else ['\\', c] :: escapePairs rest
  | c :: rest => [c] :: escapePairs rest

namespace Lexis

/-! ## 1. The rows

Each row binds the text of the token and the text behind it, and its conditions name neither the
text before it nor how it was read. -/

/-- A comment opens at the start of the text. -/
def StartsComment (L : Lexis) (s : List Char) : Prop :=
  L.startsLineComment s = true ∨ L.startsBlockComment s = true

/-- The character at the start of the text is no part of a number: no letter, digit or underscore,
and no point with a digit behind it. -/
def EndsNumber (y : List Char) : Prop :=
  ∀ c z, y = c :: z →
    Token.isIdentChar c = false ∧ (c = '.' → z.head?.any Unicode.isDigit = false)

/-- What a token of a kind is: its text, and what may stand behind it.  Comments and strings have
two rows each, for those that were closed and those that were left open. -/
inductive Spelling (L : Lexis) : TokenKind → (text behind : List Char) → Prop
  | ws {w y : List Char} (hne : w ≠ []) (hw : ∀ c ∈ w, isBlank c = true)
      (hy : ∀ c ∈ y.head?, isBlank c = false) : Spelling L .ws w y
  | newline {w y : List Char} (hw : w = ['\n'] ∨ w = ['\r', '\n']) : Spelling L .newline w y
  | lineComment {m t y : List Char} (hm : m ∈ L.lineComments) (hn : '\n' ∉ m ++ t)
      (hy : y = [] ∨ isBreak y = true) : Spelling L .lineComment (m ++ t) y
  /-- The closer at the end is the first one behind the opener. -/
  | closedComment {m q t y : List Char} (hm : L.blockComment = some (m, q))
      (hq : ∀ u v, t ++ q = u ++ q ++ v → v = []) : Spelling L .blockComment (m ++ (t ++ q)) y
  | openComment {m q t : List Char} (hm : L.blockComment = some (m, q)) (hq : ¬q <:+: t) :
      Spelling L .blockComment (m ++ t) []
  /-- The quote at the end is the first one that stands alone behind the quote at the start. -/
  | closedString {q : Char} {t y : List Char} {units : List (List Char)} (hq : q ∈ L.quotes)
      (hn : '\n' ∉ q :: t) (ht : escapePairs t = units ++ [[q]]) (hu : [q] ∉ units) :
      Spelling L .string (q :: t) y
  | openString {q : Char} {t y : List Char} (hq : q ∈ L.quotes) (hn : '\n' ∉ q :: t)
      (ht : [q] ∉ escapePairs t) (hy : y = [] ∨ isBreak y = true) : Spelling L .string (q :: t) y
  | identifier {c : Char} {t y : List Char} (hc : Token.isIdentStart c = true)
      (ht : ∀ d ∈ t, Token.isIdentChar d = true) (hy : ∀ d ∈ y.head?, Token.isIdentChar d = false) :
      Spelling L .identifier (c :: t) y
  | number {c : Char} {t y : List Char} (hc : Unicode.isDigit c = true)
      (ht : ∀ d ∈ t, Token.isIdentChar d = true ∨ d = '.')
      (hp : ∀ u v, t = u ++ '.' :: v → v.head?.any Unicode.isDigit = true) (hy : EndsNumber y) :
      Spelling L .number (c :: t) y
  | delimiter {c : Char} {k : TokenKind} {y : List Char} (hc : Token.delimiter? c = some k) :
      Spelling L k [c] y
  /-- No comment opens in the run, and it ends only where one does or the operators do. -/
  | operator {w y : List Char} (hne : w ≠ []) (hw : ∀ c ∈ w, Token.isOperatorChar c = true)
      (hc : ∀ u v, w = u ++ v → v ≠ [] → ¬L.StartsComment (v ++ y))
      (hy : ∀ c z, y = c :: z → Token.isOperatorChar c = true → L.StartsComment y) :
      Spelling L .operator w y
  /-- A character of none of the other kinds. -/
  | text {c : Char} {y : List Char} (hc : L.StartsWord c y) (hi : Token.isIdentStart c = false)
      (hn : Unicode.isDigit c = false) (ho : Token.isOperatorChar c = false) :
      Spelling L .text [c] y

/-! ## 2. Where the parts of a lexeme end

What the functions that cut off a part come to, said as a condition on the part and on what stands
behind it.  Each is proved by induction along the function. -/

variable {L : Lexis} {q c : Char} {s t y : List Char}

theorem head?_of_takeWhile_eq_nil {p : Char → Bool} (h : y.takeWhile p = []) :
    ∀ c ∈ y.head?, p c = false := by
  intro c hc
  cases y with
  | nil => cases hc
  | cons d y =>
    obtain rfl := Option.some.inj hc
    rw [List.takeWhile_cons] at h
    split at h
    · cases h
    · next hp => exact Bool.not_eq_true _ ▸ hp

/-- **Behind its opener a block comment ends with the first closer**, or with the text if there is
none. -/
theorem throughCloser_cases (q s : List Char) :
    (∃ t, throughCloser q s = t ++ q ∧ ∀ u v, t ++ q = u ++ q ++ v → v = []) ∨
      throughCloser q s = s ∧ ¬q <:+: s := by
  induction s with
  | nil =>
    by_cases hq : q = []
    · refine .inl ⟨[], by simp [throughCloser, hq], fun u v h => ?_⟩
      simp_all
    · exact .inr ⟨rfl, by simpa using hq⟩
  | cons c s ih =>
    unfold throughCloser
    split
    · refine .inl ⟨[], rfl, fun u v h => ?_⟩
      have := congrArg List.length h
      simp only [List.nil_append, List.length_append] at this
      exact List.eq_nil_of_length_eq_zero (by omega)
    · next hp =>
      rw [List.isPrefixOf_iff_prefix] at hp
      rcases ih with ⟨t, ht, hfirst⟩ | ⟨ht, hnone⟩
      · refine .inl ⟨c :: t, by rw [ht, List.cons_append], fun u v h => ?_⟩
        cases u with
        | nil =>
          -- the closer would have been found before
          have hpre : q <+: c :: throughCloser q s := by
            rw [ht, ← List.cons_append, h]
            exact List.prefix_append q v
          have hs := (List.cons_prefix_cons.2 ⟨rfl, throughCloser_isPrefix q s⟩ :
            c :: throughCloser q s <+: c :: s)
          exact absurd (hpre.trans hs) hp
        | cons d u => exact hfirst u v (List.cons.inj h).2
      · refine .inr ⟨by rw [ht], fun h => ?_⟩
        rcases List.infix_cons_iff.1 h with h | h
        · exact hp h
        · exact hnone h

theorem escapePairs_cons (h : c = '\\' → s = []) (s' : List Char) (hs : s' <+: s) :
    escapePairs (c :: s') = [c] :: escapePairs s' := by
  rw [escapePairs]
  rintro d r rfl rfl
  obtain rfl := h rfl
  cases List.prefix_nil.1 hs

/-- **A string ends with its first quote that stands alone**, or with its line. -/
theorem escapePairs_stringTail (q : Char) (s : List Char) :
    (∃ units, escapePairs (stringTail q s) = units ++ [[q]] ∧ [q] ∉ units) ∨
      [q] ∉ escapePairs (stringTail q s) ∧ untilBreak (s.drop (stringTail q s).length) = [] := by
  fun_induction stringTail q s with
  | case1 => exact .inr ⟨by simp [escapePairs], rfl⟩
  | case2 rest =>
    by_cases hq : q = '\\'
    · exact .inl ⟨[], by simp [escapePairs, hq], List.not_mem_nil⟩
    · exact .inr ⟨by simpa [escapePairs] using hq, rfl⟩
  | case3 d rest hd ih =>
    have hpair : escapePairs ('\\' :: d :: stringTail q rest) =
        ['\\', d] :: escapePairs (stringTail q rest) := by rw [escapePairs, if_neg hd]
    rw [hpair]
    refine ih.imp ?_ ?_
    · rintro ⟨units, hunits, hq⟩
      exact ⟨['\\', d] :: units, by rw [hunits, List.cons_append], by simpa using hq⟩
    · rintro ⟨hq, hline⟩
      exact ⟨by simpa using hq, hline⟩
  | case4 c rest _ hb => exact .inr ⟨by simp [escapePairs], untilBreak_eq_nil_iff.2 (.inr hb)⟩
  | case5 rest _ _ => exact .inl ⟨[], by simp [escapePairs], List.not_mem_nil⟩
  | case6 c rest hesc _ hq ih =>
    have hlast : c = '\\' → rest = [] := by
      intro hc
      cases rest with
      | nil => rfl
      | cons d rest => exact absurd rfl (hesc d rest hc)
    have hsingle := escapePairs_cons hlast _ (stringTail_isPrefix q rest)
    rw [hsingle]
    refine ih.imp ?_ ?_
    · rintro ⟨units, hunits, hnot⟩
      exact ⟨[c] :: units, by rw [hunits, List.cons_append], by simpa [Ne.symm hq] using hnot⟩
    · rintro ⟨hnot, hline⟩
      exact ⟨by simpa [Ne.symm hq] using hnot, hline⟩

theorem numberTail_eq_nil_iff : numberTail y = [] ↔ EndsNumber y := by
  cases y with
  | nil => exact ⟨fun _ _ _ h => (by cases h), fun _ => rfl⟩
  | cons c z =>
    rw [numberTail, EndsNumber]
    constructor
    · intro h d z' hdz
      obtain ⟨rfl, rfl⟩ := List.cons.inj hdz
      split at h
      · cases h
      · next hc => simp_all
    · intro h
      obtain ⟨hc, hp⟩ := h c z rfl
      rw [if_neg]
      simp_all

/-- In a number a digit stands behind each point, and what stands behind it does not go on. -/
theorem numberTail_append (h : numberTail (t ++ y) = t) :
    (∀ d ∈ t, Token.isIdentChar d = true ∨ d = '.') ∧
      (∀ u v, t = u ++ '.' :: v → v.head?.any Unicode.isDigit = true) ∧ EndsNumber y := by
  induction t with
  | nil => exact ⟨by simp, by simp, numberTail_eq_nil_iff.1 h⟩
  | cons c t ih =>
    rw [List.cons_append, numberTail] at h
    split at h
    · next hc =>
      obtain ⟨hmem, hpoint, hend⟩ := ih (List.cons.inj h).2
      refine ⟨?_, ?_, hend⟩
      · simp only [Bool.or_eq_true, Bool.and_eq_true, decide_eq_true_eq] at hc
        simpa using ⟨hc.imp id And.left, hmem⟩
      · intro u v huv
        cases u with
        | cons d u => exact hpoint u v (List.cons.inj huv).2
        | nil =>
          obtain ⟨rfl, rfl⟩ := List.cons.inj huv
          have hdigit : (t ++ y).head?.any Unicode.isDigit = true := by
            simpa [show Token.isIdentChar '.' = false by decide] using hc
          cases t with
          | cons d t => exact hdigit
          | nil =>
            -- the digit behind the point would have been read
            cases y with
            | nil => cases hdigit
            | cons d y =>
              have hd : Unicode.isDigit d = true := hdigit
              have hi := (hend d y rfl).1
              rw [Token.isIdentChar, Unicode.isAlphanumeric_of_isDigit hd] at hi
              cases hi
    · cases h

/-- In a run of operators no comment opens, and where the operators go on behind it one does. -/
theorem operatorTail_append (h : L.operatorTail (t ++ y) = t) :
    (∀ d ∈ t, Token.isOperatorChar d = true) ∧
      (∀ u v, t = u ++ v → v ≠ [] → ¬L.StartsComment (v ++ y)) ∧
      ∀ d z, y = d :: z → Token.isOperatorChar d = true → L.StartsComment y := by
  induction t with
  | nil =>
    refine ⟨by simp, ?_, ?_⟩
    · intro u v huv hv
      exact absurd (List.append_eq_nil_iff.1 huv.symm).2 hv
    · rintro d z rfl hd
      exact operatorTail_eq_nil_iff.1 h hd
  | cons c t ih =>
    rw [List.cons_append, operatorTail] at h
    split at h
    · next hc =>
      simp only [Bool.and_eq_true, Bool.not_eq_true'] at hc
      obtain ⟨hmem, hcode, hend⟩ := ih (List.cons.inj h).2
      refine ⟨by simpa using ⟨hc.1.1, hmem⟩, ?_, hend⟩
      intro u v huv hv
      cases u with
      | cons d u => exact hcode u v (List.cons.inj huv).2 hv
      | nil =>
        rw [List.nil_append] at huv
        rw [← huv, StartsComment, List.cons_append, hc.1.2, hc.2]
        simp
    · cases h

/-! ## 3. Lexemes

One case for each branch: the row follows from the condition of the branch and from where its part
ends. -/

variable {l l' : Lexeme} {k k' : TokenKind} {w w' : List Char}

/-- **A lexeme is spelled as its kind says**, in a language whose comments open within a line. -/
theorem Reads.spelling (hL : L.Regular) (h : L.Reads l y) : L.Spelling l.kind l.text y := by
  have hline := h.kind_of_newline_mem
  obtain ⟨k, w⟩ := l
  obtain ⟨c, rest, t, rfl, hr, hb⟩ := reads_iff_branch.1 h
  cases hb with
  | newline hb => exact .newline (h.text_of_newline rfl)
  | ws hb hw =>
    obtain ⟨ht, hy⟩ := takeWhile_append_eq_self_iff.1
      (by rw [← hr] : (_ ++ y).takeWhile isBlank = _)
    exact .ws (List.cons_ne_nil _ _) (by simpa using ⟨hw, ht⟩) (head?_of_takeWhile_eq_nil hy)
  | lineComment hb hw hl =>
    obtain ⟨m, hm, u, hu⟩ := exists_marker hL hb hl
    have hy := (h.unbroken_of_lineComment rfl).2
    have hn : '\n' ∉ c :: untilBreak rest := fun hn => by simpa using hline hn
    rw [← hu] at hn ⊢
    exact .lineComment hm hn (untilBreak_eq_nil_iff.1 hy)
  | blockComment hb hw hl ho =>
    obtain ⟨m, q, s, hm, hs, htext⟩ := exists_blockCommentText hL ho
    rw [htext]
    rcases throughCloser_cases q s with ⟨t, ht, hfirst⟩ | ⟨ht, hnone⟩
    · rw [ht]
      exact .closedComment hm hfirst
    · have hy : c :: rest = c :: rest ++ y := by
        conv_lhs => rw [hr, ← List.cons_append, htext, ht, ← hs]
      rw [ht, List.append_right_eq_self.1 hy.symm]
      exact .openComment hm hnone
  | string hst hq =>
    have hn : '\n' ∉ c :: stringTail c rest := fun hn => by simpa using hline hn
    have hy := congrArg (List.drop (stringTail c rest).length) hr
    rw [List.drop_left] at hy
    rcases escapePairs_stringTail c rest with ⟨units, hunits, hnot⟩ | ⟨hnot, hend⟩
    · exact .closedString hq hn hunits hnot
    · rw [hy] at hend
      exact .openString hq hn hnot (untilBreak_eq_nil_iff.1 hend)
  | delimiter hst hq hd => exact .delimiter hd
  | identifier hst hi =>
    obtain ⟨ht, hy⟩ :=
      takeWhile_append_eq_self_iff.1 (by rw [← hr] : (_ ++ y).takeWhile Token.isIdentChar = _)
    exact .identifier hi ht (head?_of_takeWhile_eq_nil hy)
  | number hst hi hn =>
    obtain ⟨ht, hp, hy⟩ := numberTail_append (by rw [← hr] : numberTail (_ ++ y) = _)
    exact .number hn ht hp hy
  | operator hst hi hn ho =>
    obtain ⟨ht, hc, hy⟩ := operatorTail_append (by rw [← hr] : L.operatorTail (_ ++ y) = _)
    refine .operator (List.cons_ne_nil _ _) (by simpa using ⟨ho, ht⟩) ?_ hy
    -- no comment starts inside: the tail stops at one, and the first character opens none
    intro u v huv hv
    cases u with
    | cons d u => exact hc u v (List.cons.inj huv).2 hv
    | nil =>
      rw [List.nil_append] at huv
      rw [← huv, List.cons_append, ← hr, StartsComment, hst.noLineComment, hst.noBlockComment]
      simp
  | text hst hi hn ho =>
    rw [hr, List.nil_append] at hst
    exact .text hst hi hn ho

/-! ## 4. Neighbours

What may stand behind a token is a condition of its row on the first characters, and the row of the
next token says what these are. -/

/-- The kinds of token that never stand right behind a token of a kind: what would go on with it,
and behind a line comment all but the end of its line. -/
def barred : TokenKind → List TokenKind
  | .ws => [.ws]
  | .identifier | .number => [.identifier, .number]
  | .operator => [.operator]
  | .lineComment => TokenKind.all.filter (· ∉ [.newline, .eof])
  | _ => []

theorem eof_not_mem_barred (k : TokenKind) : .eof ∉ barred k := by
  cases k <;> decide

/-- A word or a number starts with a character that may stand in both, so neither ends right before
the other. -/
theorem Spelling.isIdentChar_head (h : L.Spelling k w y) (hk : k = .identifier ∨ k = .number) :
    ∃ c t, w = c :: t ∧ Token.isIdentChar c = true := by
  rcases hk with rfl | rfl
  · cases h with
    | identifier hc _ _ => exact ⟨_, _, rfl, Token.isIdentChar_of_isIdentStart hc⟩
    | delimiter hd => exact absurd (by decide) (kind_of_delimiter hd)
  · cases h with
    | number hc _ _ _ =>
      exact ⟨_, _, rfl, by simp [Token.isIdentChar, Unicode.isAlphanumeric_of_isDigit hc]⟩
    | delimiter hd => exact absurd (by decide) (kind_of_delimiter hd)

/-- **A lexeme is never of a kind that is barred behind the one before it.** -/
theorem Reads.kind_not_mem_barred (hL : L.Regular) (h : L.Reads l (l'.text ++ y))
    (h' : L.Reads l' y) : l'.kind ∉ barred l.kind := by
  have hs := h.spelling hL
  have hs' := h'.spelling hL
  have hbreak : isBreak (l'.text ++ y) = true → l'.kind = .newline := h'.kind_of_isBreak
  have hne := h'.text_ne_nil
  generalize l.kind = k, l.text = w, l'.kind = k', l'.text = w' at hs hs' hbreak hne
  generalize hx : w' ++ y = x at hs
  intro hk
  cases hs with
  | ws _ _ hy =>
    obtain rfl := List.mem_singleton.1 hk
    cases hs' with
    | ws _ hb _ =>
      obtain ⟨c, t, rfl⟩ := List.exists_cons_of_ne_nil hne
      have hc := hb c List.mem_cons_self
      rw [hy c (by rw [← hx]; rfl)] at hc
      cases hc
    | delimiter hd => exact kind_of_delimiter hd (by simp)
  | identifier _ _ hy =>
    obtain ⟨c, t, rfl, hc⟩ := hs'.isIdentChar_head (by simpa [barred] using hk)
    rw [hy c (by rw [← hx]; rfl)] at hc
    cases hc
  | number _ _ _ hy =>
    obtain ⟨c, t, rfl, hc⟩ := hs'.isIdentChar_head (by simpa [barred] using hk)
    rw [(hy c _ hx.symm).1] at hc
    cases hc
  | operator _ _ _ hy =>
    obtain rfl := List.mem_singleton.1 hk
    cases hs' with
    | operator _ ho hc _ =>
      obtain ⟨c, t, rfl⟩ := List.exists_cons_of_ne_nil hne
      have hopen := hy c _ hx.symm (ho c List.mem_cons_self)
      rw [← hx] at hopen
      exact hc [] (c :: t) rfl hne hopen
    | delimiter hd => exact kind_of_delimiter hd (by simp)
  | lineComment _ _ hy =>
    rw [← hx] at hy
    rw [hbreak (hy.resolve_left (List.append_ne_nil_of_left_ne_nil hne y))] at hk
    revert hk
    decide
  | @delimiter _ k _ hd =>
    have := kind_of_delimiter hd
    cases k <;> simp [barred] at hk this
  | newline | closedComment | openComment | closedString | openString | text => cases hk

/-! ## 5. Tokens

A token that is no end mark is a lexeme with the texts of the other tokens behind it, so the rows
carry over. -/

theorem spell_map_lexeme (ts : List Token) :
    spell (ts.map Token.lexeme) = ts.flatMap Token.text := by
  rw [spell, List.flatMap_map]
  rfl

/-- **Each token is what its kind says**, in each of the built-in languages.  The texts before it,
its own and those behind it make up the text.  It is spelled as its kind says, with the texts of
the tokens behind it, or else it is the end mark and the last token.  The token behind it is of no
kind that would go on with it, and behind a line comment it is a line break or the end mark. -/
theorem spelling_of_tokens {language : Language} (hl : language ∈ Language.builtin)
    {A B : List Token} {t : Token} (h : language.tokens s = A ++ t :: B) :
    s = A.flatMap Token.text ++ (t.text ++ B.flatMap Token.text) ∧
      (t.kind ≠ .eof → language.lexis.Spelling t.kind t.text (B.flatMap Token.text)) ∧
      (t.kind = .eof → t.text = [] ∧ B = []) ∧ ∀ u ∈ B.head?, u.kind ∉ barred t.kind := by
  have hL := (Language.lawful_of_mem_builtin hl).short.toRegular
  have htext : s = A.flatMap Token.text ++ (t.text ++ B.flatMap Token.text) := by
    rw [← language.lexis.flatMap_text_tokens s, ← Language.tokens, h, List.flatMap_append,
      List.flatMap_cons]
  refine ⟨htext, ?_⟩
  rw [Language.tokens, tokens_eq] at h
  rcases List.eq_nil_or_concat B with rfl | ⟨B, u, rfl⟩
  · obtain ⟨-, ht⟩ := List.append_inj' h rfl
    obtain rfl := List.singleton_inj.1 ht
    exact ⟨fun hk => absurd rfl hk, fun _ => ⟨rfl, rfl⟩, nofun⟩
  · rw [List.concat_eq_append, ← List.cons_append, ← List.append_assoc] at h
    obtain ⟨hls, hu⟩ := List.append_inj' h rfl
    obtain rfl := List.singleton_inj.1 hu
    have hlexemes := congrArg (List.map Token.lexeme) hls
    rw [map_lexeme_placed, List.map_append, List.map_cons] at hlexemes
    have hreads := reads_of_lexemes hlexemes
    rw [List.concat_eq_append, List.flatMap_append, ← spell_map_lexeme]
    refine ⟨fun _ => ?_, fun hk => absurd hk hreads.kind_ne_eof, ?_⟩
    · simpa [endMark, Token.lexeme] using hreads.spelling hL
    · intro v hv
      cases B with
      | nil =>
        obtain rfl := Option.some.inj hv
        exact eof_not_mem_barred _
      | cons w B =>
        obtain rfl := Option.some.inj hv
        have hnext := reads_of_lexemes (A := A.map Token.lexeme ++ [t.lexeme]) (s := s)
          (by simpa using hlexemes)
        exact hreads.kind_not_mem_barred hL hnext

/-- An escaped quote does not close a string, which then ends with its line. -/
theorem spelling_of_escaped_quote :
    let s := ['"', '\\', '"', '+', '\n']
    let t : Token := ⟨.string, ['"', '\\', '"', '+'], ⟨1, 1, 0⟩, ⟨1, 5, 4⟩⟩
    let B : List Token :=
      [⟨.newline, ['\n'], ⟨1, 5, 4⟩, ⟨2, 1, 5⟩⟩, ⟨.eof, [], ⟨2, 1, 5⟩, ⟨2, 1, 5⟩⟩]
    Language.python ∈ Language.builtin ∧ Language.python.tokens s = [] ++ t :: B ∧
      Language.python.lexis.Spelling .string t.text ['\n'] ∧
      TokenKind.newline ∉ barred .string := by
  intro s t B
  have hl : Language.python ∈ Language.builtin := by decide
  have htokens : Language.python.tokens s = [] ++ t :: B := by cbv
  obtain ⟨-, hspelling, -, hnext⟩ := spelling_of_tokens hl htokens
  exact ⟨hl, htokens, hspelling (by decide), hnext _ rfl⟩

end Lexis

end SmartEnter
