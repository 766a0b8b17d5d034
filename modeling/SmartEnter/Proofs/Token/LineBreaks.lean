/-
# Line breaks of the lexer and of the document

The lexer and the document decide apart from each other where a line breaks.  They agree on every
break but one: in a string, a backslash takes any character with it that is no line feed, and so it
takes the carriage return of a break.  The line feed behind such a string is a line break for the
lexer, while the document has the return in it (`Token.TakesReturn`, `Lexis.Torn`).

No other lexeme goes over a part of a break and leaves the rest (`Reads.unbroken_or_takesReturn`); a
block comment goes over the whole break, for it ends with its closer or with the text
(`Reads.takesReturn_of_return`).

The argument goes through the lexeme that has the line feed of a break in it.  Only line breaks and
block comments have line feeds, so it is one of them, and it is all of the break unless the return
belongs to the lexeme before (`exists_covering_break`).  If it does, that lexeme ends with a return,
and this is where the string comes in (`torn_of_return`).

The main statement, `breaks_agree_iff`, is about the built-in languages.  It lists four ways in
which lexer and document may agree, each with the exact condition under which they do.
-/
import SmartEnter.Proofs.Document.Partition
import SmartEnter.Proofs.Token.Nearest
import SmartEnter.Proofs.Token.Spelling

namespace SmartEnter

open Lexeme (spell)
open Text (isBreak IsBreakBehind Unbroken unbroken_cons_iff)

/-- The text ends with a backslash and the carriage return of the break behind it. -/
def Text.TakesReturn (t y : List Char) : Prop := ['\\', '\r'] <:+ t ∧ y.head? = some '\n'

theorem Text.TakesReturn.append {t y : List Char} (h : TakesReturn t y) (s : List Char) :
    TakesReturn (s ++ t) y :=
  ⟨h.1.trans (List.suffix_append s t), h.2⟩

namespace Lexis

open Text (TakesReturn)

/-! ## 1. Which lexemes are broken

A lexeme has a part of a break in it if it has the line feed, or the carriage return and not the
line feed.  Only line breaks and block comments have line feeds, and a return without its line feed
can only be the last character of a string. -/

variable {L : Lexis} {l : Lexeme} {y : List Char}

/-- A text whose first character starts no break is broken only behind that character. -/
theorem unbroken_cons_drop {c : Char} {t rest : List Char} (hb : isBreak (c :: rest) = false)
    (ht : t <+: rest) (h : Unbroken t (rest.drop t.length)) :
    Unbroken (c :: t) (rest.drop t.length) := by
  refine unbroken_cons_iff.2 ⟨?_, h⟩
  rw [List.prefix_iff_eq_append.1 ht]
  exact hb

/-- A string is broken only where a backslash takes a return.  By induction on how a string is read:
a pair of a backslash and a return is the only step that goes over a part of a break. -/
theorem unbroken_or_of_stringTail (q : Char) (s : List Char) :
    Unbroken (stringTail q s) (s.drop (stringTail q s).length) ∨
      TakesReturn (stringTail q s) (s.drop (stringTail q s).length) := by
  fun_induction stringTail q s with
  | case1 => exact .inl (Text.unbroken_nil _)
  | case2 rest => exact .inl (Text.unbroken_of_not_mem (by decide) (by decide) _)
  | case3 d rest hd ih =>
    rcases ih with ih | ih
    · cases hb : isBreak (d :: rest) with
      | true =>
        -- the character behind the backslash is the return of a break
        obtain ⟨rfl, hn⟩ := (Text.isBreak_cons_iff.1 hb).resolve_left hd
        obtain ⟨rest, rfl⟩ := List.head?_eq_some_iff.1 hn
        have hnil : stringTail q ('\n' :: rest) = [] := stringTail_eq_nil_iff.2 rfl
        rw [hnil]
        exact .inr ⟨List.suffix_refl _, rfl⟩
      | false =>
        have hpair := unbroken_cons_drop hb (stringTail_isPrefix q rest) ih
        exact .inl (unbroken_cons_iff.2 ⟨rfl, hpair⟩)
    · exact .inr (ih.append ['\\', d])
  | case4 c rest _ hb => exact .inl (Text.unbroken_nil _)
  | case5 rest _ hb =>
    rw [Bool.not_eq_true] at hb
    exact .inl (unbroken_cons_drop hb List.nil_prefix (Text.unbroken_nil _))
  | case6 c rest _ hb _ ih =>
    rw [Bool.not_eq_true] at hb
    refine ih.imp ?_ ?_
    · intro ih
      exact unbroken_cons_drop hb (stringTail_isPrefix q rest) ih
    · intro ih
      exact ih.append [c]

/-- Code that is read on from a character that starts no break has no part of one. -/
theorem StartsCode.unbroken {c : Char} {t rest : List Char} (h : L.StartsCode c rest)
    (hr : rest = t ++ y) (ht : ∀ d ∈ t, d ≠ '\n' ∧ d ≠ '\r') : Unbroken (c :: t) y := by
  subst hr
  refine unbroken_cons_iff.2 ⟨h.noBreak, Text.unbroken_of_not_mem ?_ ?_ y⟩
  · intro hn
    exact (ht _ hn).1 rfl
  · intro hn
    exact (ht _ hn).2 rfl

/-- The characters of words and of operators are no line feeds and no carriage returns. -/
theorem ne_break_of_isIdentChar {c : Char} (h : Token.isIdentChar c = true) :
    c ≠ '\n' ∧ c ≠ '\r' := by
  constructor <;> rintro rfl <;> exact absurd h (by decide)

theorem ne_break_of_isOperatorChar {c : Char} (h : Token.isOperatorChar c = true) :
    c ≠ '\n' ∧ c ≠ '\r' := by
  constructor <;> rintro rfl <;> exact absurd h (by decide)

/-- **A lexeme goes over no part of a break**, unless it is a line break, a block comment, or a
string whose last backslash takes the return. -/
theorem Reads.unbroken_or_takesReturn (h : L.Reads l y) (hn : l.kind ≠ .newline)
    (hc : l.kind ≠ .blockComment) :
    Unbroken l.text y ∨ l.kind = .string ∧ TakesReturn l.text y := by
  have hws := h.isBlank_of_ws
  have hcomment := h.unbroken_of_lineComment
  obtain ⟨c, rest, t, ht, hr, hb⟩ := reads_iff_branch.1 h
  rw [ht] at hws hcomment ⊢
  generalize l.kind = k at *
  cases hb with
  | newline => exact absurd rfl hn
  | blockComment => exact absurd rfl hc
  | ws => exact .inl (Text.unbroken_of_isBlank (hws rfl) y)
  | lineComment => exact .inl (hcomment rfl).1
  | string hst hq =>
    have hy := congrArg (List.drop (stringTail c rest).length) hr
    rw [List.drop_left] at hy
    rw [← hy]
    rcases unbroken_or_of_stringTail c rest with hu | htake
    · exact .inl (unbroken_cons_drop hst.noBreak (stringTail_isPrefix c rest) hu)
    · exact .inr ⟨rfl, htake.append [c]⟩
  | delimiter hst hq hd => exact .inl (hst.unbroken hr (by simp))
  | identifier hst hi =>
    refine .inl (hst.toStartsCode.unbroken hr fun d hd => ne_break_of_isIdentChar ?_)
    exact List.all_eq_true.1 List.all_takeWhile d hd
  | number hst hi hdigit =>
    refine .inl (hst.toStartsCode.unbroken hr fun d hd => ?_)
    have htail : numberTail (numberTail rest ++ y) = numberTail rest := by rw [← hr]
    rcases (numberTail_append htail).1 d hd with hd | rfl
    · exact ne_break_of_isIdentChar hd
    · decide
  | operator hst hi hdigit ho =>
    have htail : L.operatorTail (L.operatorTail rest ++ y) = L.operatorTail rest := by rw [← hr]
    exact .inl (hst.toStartsCode.unbroken hr fun d hd =>
      ne_break_of_isOperatorChar ((operatorTail_append htail).1 d hd))
  | text hst hi hd ho => exact .inl (hst.toStartsCode.unbroken hr (by simp))

/-- **A lexeme that ends inside a break is a string** whose last backslash takes the return, in a
built-in language: a block comment would end with its closer. -/
theorem Reads.takesReturn_of_return {language : Language} (hlang : language ∈ Language.builtin)
    (h : language.lexis.Reads l y) (hl : l.text.getLast? = some '\r') (hy : y.head? = some '\n') :
    l.kind = .string ∧ TakesReturn l.text y := by
  have hL := (Language.lawful_of_mem_builtin hlang).short.toRegular
  have hbroken : ¬Unbroken l.text y := fun hu => hu.2 hl hy
  have hn : l.kind ≠ .newline := by
    intro hk
    rcases h.text_of_newline hk with ht | ht <;> rw [ht] at hl <;> exact absurd hl (by decide)
  have hc : l.kind ≠ .blockComment := by
    intro hk
    have hs := h.spelling hL
    rw [hk] at hs
    generalize l.text = w at *
    cases hs with
    | closedComment hm hfirst =>
      obtain ⟨rfl, rfl⟩ := Language.blockComment_of_mem_builtin hlang hm
      rw [← List.append_assoc, List.getLast?_append_of_ne_nil _ (List.cons_ne_nil _ _)] at hl
      exact absurd hl (by decide)
    | openComment hm hq => cases hy
    | delimiter hd => exact kind_of_delimiter hd (by decide)
  exact (h.unbroken_or_takesReturn hn hc).resolve_left hbroken

end Lexis

/-! ## 2. Tokens and breaks

The breaks of a document are given by where they start and stop (`Document.HasBreak`), and so are
tokens.  Both are offsets of one text, so they are compared through the lexeme that covers the line
feed. -/

/-- The token is a string whose last backslash takes the carriage return of the break behind it. -/
def Token.TakesReturn (t : Token) (s : List Char) : Prop :=
  t.kind = .string ∧ Text.TakesReturn t.text (s.drop t.stop.offset)

namespace Lexis

/-- The text from `stop` to `next` lies in a block comment, or it is a line break of its own.  These
are the two ways in which a token may respect a break. -/
def BreaksAt (L : Lexis) (s : List Char) (stop next : Nat) : Prop :=
  (∃ t ∈ L.tokens s, t.kind = .blockComment ∧ t.start.offset ≤ stop ∧ next ≤ t.stop.offset) ∨
    ∃ t ∈ L.tokens s, t.kind = .newline ∧ t.start.offset = stop ∧ t.stop.offset = next

/-- A string has taken the carriage return of the break that ends at `next`. -/
def Torn (L : Lexis) (s : List Char) (next : Nat) : Prop :=
  ∃ t ∈ L.tokens s, t.TakesReturn s ∧ t.stop.offset + 1 = next

variable {L : Lexis} {s : List Char} {A B : List Lexeme} {l : Lexeme} {t u : Token} {n : Nat}

/-- A token with an offset in it, or at its end, is the only one there. -/
theorem token_unique (ht : t ∈ L.tokens s) (hu : u ∈ L.tokens s) (hts : t.start.offset < n)
    (htn : n ≤ t.stop.offset) (hus : u.start.offset < n) (hun : n ≤ u.stop.offset) : t = u := by
  rcases mem_tokens_iff.1 ht with ⟨A, l, B, hA, rfl⟩ | rfl
  · rcases mem_tokens_iff.1 hu with ⟨A', l', B', hA', rfl⟩ | rfl
    · rw [Lexeme.start_behind] at hts hus
      rw [Lexeme.stop_behind] at htn hun
      obtain ⟨rfl, rfl, -⟩ := Lexeme.covering_unique (hA.symm.trans hA') hts htn hus hun
      rfl
    · exact absurd hus (Nat.not_lt.2 hun)
  · exact absurd hts (Nat.not_lt.2 htn)

theorem drop_stop_behind (h : L.lexemes s = A ++ l :: B) :
    s.drop (l.behind A).stop.offset = spell B := by
  rw [Lexeme.stop_behind, Lexeme.spell_concat, text_eq_of_lexemes h, ← List.append_assoc,
    List.drop_left]

variable {d : Document} {p br r : List Char} {stop next : Nat}

/-- Where a string takes a return, the document has a break around the end of the string. -/
theorem exists_hasBreak_of_takesReturn (ht : t ∈ L.tokens d.text) (h : t.TakesReturn d.text) :
    ∃ n k, d.HasBreak n k (k + 2) ∧ t.start.offset ≤ k ∧ t.stop.offset = k + 1 := by
  obtain ⟨hk, ⟨w, hw⟩, hy⟩ := h
  obtain ⟨A, l, B, hs, rfl⟩ := exists_lexeme_of_mem_tokens ht (by rw [hk]; decide)
  rw [drop_stop_behind hs] at hy
  obtain ⟨r, hr⟩ := List.head?_eq_some_iff.1 hy
  have hw' : l.text = w ++ ['\\', '\r'] := hw.symm
  have htext : d.text = spell A ++ w ++ ['\\'] ++ ['\r', '\n'] ++ r := by
    rw [text_eq_of_lexemes hs, hw', hr]
    simp
  have hbreak := Document.hasBreak_of_text htext (.inl rfl)
  have hnext : (spell A ++ w ++ ['\\'] ++ ['\r', '\n']).length =
      (spell A ++ w ++ ['\\']).length + 2 := List.length_append
  rw [hnext] at hbreak
  refine ⟨_, _, hbreak, ?_, ?_⟩
  · rw [Lexeme.start_behind]
    simp
  · rw [Lexeme.stop_behind, Lexeme.spell_concat, hw']
    simp [Nat.add_assoc]

/-- Every character of a text stands in a lexeme, and what the lexeme has before the character and
behind it are parts of the text before and behind. -/
theorem exists_lexeme_with {w : List Char} {c : Char} (h : s = w ++ c :: r) :
    ∃ A l B x y, L.lexemes s = A ++ l :: B ∧ w = spell A ++ x ∧ l.text = x ++ c :: y := by
  obtain ⟨A, l, B, hs, hA, hl⟩ := L.exists_covering (s := s) (Nat.succ_pos w.length) (by simp [h])
  have hcut := text_eq_of_lexemes hs
  rw [h] at hcut
  rw [Lexeme.spell_concat, List.length_append] at hl
  obtain ⟨x, rfl⟩ : spell A <+: w :=
    List.prefix_of_prefix_length_le ⟨_, hcut.symm⟩ (List.prefix_append w _) (by omega)
  rw [List.append_assoc] at hcut
  obtain ⟨y, hy⟩ : x ++ [c] <+: l.text := by
    have hx : x ++ [c] <+: x ++ c :: r := ⟨r, by simp⟩
    refine List.prefix_of_prefix_length_le hx ⟨_, (List.append_cancel_left hcut).symm⟩ ?_
    simp at hl ⊢
    omega
  exact ⟨A, l, B, x, y, hs, rfl, by simp [← hy]⟩

theorem newline_mem_of_covers (ht : t ∈ L.tokens d.text) (h : d.HasBreak n stop next)
    (hs : t.start.offset < next) (hn : next ≤ t.stop.offset) : '\n' ∈ t.text := by
  obtain ⟨p, br, r, htext, hbr, -, -, rfl⟩ := Document.hasBreak_iff_text.1 h
  obtain ⟨w, hw, -⟩ := hbr.exists_newline
  rw [hw, List.append_assoc] at htext
  obtain ⟨A, l, B, x, y, hA, rfl, hl⟩ := L.exists_lexeme_with htext
  have hmem := behind_mem_tokens hA
  have hlength := congrArg List.length hw
  obtain rfl : t = l.behind A := by
    refine token_unique ht hmem hs hn ?_ ?_
    · rw [Lexeme.start_behind]
      simp at hlength ⊢
      omega
    · rw [Lexeme.stop_behind, Lexeme.spell_concat, hl, hw]
      simp
  rw [Lexeme.text_behind, hl]
  simp

/-- **The lexeme over the line feed of a break**: a block comment over the whole break, a line break
of the same text, or a line break that misses the return. -/
theorem exists_covering_break (h : s = p ++ br ++ r) (hbr : IsBreakBehind p br) :
    ∃ A l B, L.lexemes s = A ++ l :: B ∧
      (l.kind = .blockComment ∧ (spell A).length ≤ p.length ∧
          (p ++ br).length ≤ (spell (A ++ [l])).length ∨
        l.kind = .newline ∧ spell A = p ∧ l.text = br ∨
        l.kind = .newline ∧ spell A = p ++ ['\r'] ∧ l.text = ['\n'] ∧ br = ['\r', '\n']) := by
  obtain ⟨w, hw, hbreak⟩ := hbr.exists_newline
  rw [hw, List.append_assoc] at h
  obtain ⟨A, l, B, x, y, hs, rfl, hl⟩ := L.exists_lexeme_with h
  have hreads := reads_of_lexemes hs
  refine ⟨A, l, B, hs, ?_⟩
  rcases hreads.kind_of_newline_mem (by simp [hl]) with hk | hk
  · refine .inr ?_
    cases x with
    | nil =>
      have ht : l.text = ['\n'] := (hreads.text_of_newline hk).resolve_right (by simp [hl])
      rw [List.append_nil] at hbreak
      rcases hbreak with ⟨rfl, hp⟩ | ⟨hbreak, hp⟩
      · exact .inl ⟨hk, hp, ht⟩
      · exact .inr ⟨hk, hp, ht, hbreak⟩
    | cons d x =>
      have ht : l.text = ['\r', '\n'] := (hreads.text_of_newline hk).resolve_left (by simp [hl])
      obtain ⟨rfl, rfl⟩ : d = '\r' ∧ x = [] := by
        rw [ht, List.cons_append] at hl
        obtain ⟨hd, hrest⟩ := List.cons.inj hl
        refine ⟨hd.symm, ?_⟩
        cases x with
        | nil => rfl
        | cons e x => simp at hrest
      rcases hbreak with ⟨rfl, rfl⟩ | ⟨rfl, hp⟩
      · rcases hbr with hbr | ⟨-, hne⟩
        · cases hbr
        · exact absurd List.getLast?_concat hne
      · exact .inl ⟨hk, List.append_cancel_right hp, ht⟩
  · refine .inl ⟨hk, ?_, ?_⟩
    · cases x with
      | nil =>
        -- a lexeme that starts with a line feed is a line break
        have hnew := hreads.kind_of_isBreak (by rw [hl]; rfl)
        rw [hk] at hnew
        cases hnew
      | cons d x =>
        have hlength := congrArg List.length hw
        rcases hbr.eq_or with rfl | rfl <;> simp at hlength <;> omega
    · rw [hw, Lexeme.spell_concat, hl]
      simp

/-- **A line break that misses the return** stands behind a string that has taken it. -/
theorem torn_of_return {language : Language} (hlang : language ∈ Language.builtin)
    (hs : language.lexis.lexemes s = A ++ l :: B) (hl : l.text.head? = some '\n')
    (hA : (spell A).getLast? = some '\r') :
    language.lexis.Torn s ((spell A).length + 1) := by
  rcases List.eq_nil_or_concat A with rfl | ⟨A, u, rfl⟩
  · cases hA
  · rw [List.concat_eq_append] at hs hA ⊢
    have hs' : language.lexis.lexemes s = A ++ u :: (l :: B) := by simpa using hs
    have hreads := reads_of_lexemes hs'
    rw [Lexeme.spell_concat, List.getLast?_append_of_ne_nil _ hreads.text_ne_nil] at hA
    have hhead : (spell (l :: B)).head? = some '\n' := by
      rw [Lexeme.spell_cons, List.head?_append, hl]
      rfl
    obtain ⟨hk, htake⟩ := hreads.takesReturn_of_return hlang hA hhead
    refine ⟨u.behind A, behind_mem_tokens hs', ⟨hk, ?_⟩, by rw [Lexeme.stop_behind]⟩
    rw [drop_stop_behind hs']
    exact htake

theorem not_torn (ht : t ∈ L.tokens d.text) (hk : t.kind ≠ .string) (h : d.HasBreak n stop next)
    (hts : t.start.offset ≤ stop) (htn : next ≤ t.stop.offset) : ¬L.Torn d.text next := by
  rintro ⟨u, hu, htake, hnext⟩
  obtain ⟨m, k, hm, hstart, hstop⟩ := exists_hasBreak_of_takesReturn hu htake
  have hnext' : next = k + 2 := by omega
  have hstop' : stop = k := h.stop_unique (hnext' ▸ hm)
  have htu : t = u := token_unique (n := k + 1) ht hu (by omega) (by omega) (by omega) (by omega)
  rw [htu] at hk
  exact hk htake.1

/-- The lexer and the document agree on the breaks of a text, but for the breaks whose carriage
return a string has taken: on the breaks of the document, on every return with its line feed, on the
line breaks of the lexer, and on what strings and line comments have in them. -/
structure AgreesOnBreaks (L : Lexis) (d : Document) : Prop where
  breaks : ∀ n stop next, d.HasBreak n stop next →
    (L.BreaksAt d.text stop next ↔ ¬L.Torn d.text next)
  returns : ∀ p r, d.text = p ++ '\r' :: '\n' :: r →
    (L.BreaksAt d.text p.length (p.length + 2) ↔ ¬L.Torn d.text (p.length + 2))
  newlines : ∀ t ∈ L.tokens d.text, t.kind = .newline →
    ((∃ n, d.HasBreak n t.start.offset t.stop.offset) ↔ ¬L.Torn d.text t.stop.offset)
  inLine : ∀ t ∈ L.tokens d.text, t.kind = .string ∨ t.kind = .lineComment →
    ((∀ n stop next, d.HasBreak n stop next → t.stop.offset ≤ stop ∨ next ≤ t.start.offset) ↔
      ¬t.TakesReturn d.text)

variable {language : Language}

theorem breaksAt_iff (hlang : language ∈ Language.builtin) (h : d.HasBreak n stop next) :
    language.lexis.BreaksAt d.text stop next ↔ ¬language.lexis.Torn d.text next := by
  constructor
  · rintro (⟨t, ht, hk, hstart, hstop⟩ | ⟨t, ht, hk, hstart, hstop⟩)
    · exact not_torn ht (by rw [hk]; decide) h hstart hstop
    · exact not_torn ht (by rw [hk]; decide) h (Nat.le_of_eq hstart) (Nat.le_of_eq hstop.symm)
  · intro htorn
    obtain ⟨p, br, r, htext, hbr, -, rfl, rfl⟩ := Document.hasBreak_iff_text.1 h
    obtain ⟨A, l, B, hs, hcases⟩ := exists_covering_break (L := language.lexis) htext hbr
    have hmem := behind_mem_tokens hs
    rcases hcases with ⟨hk, hle, hge⟩ | ⟨hk, hA, hl⟩ | ⟨hk, hA, hl, rfl⟩
    · refine .inl ⟨_, hmem, hk, ?_, ?_⟩
      · rwa [Lexeme.start_behind]
      · rwa [Lexeme.stop_behind]
    · refine .inr ⟨_, hmem, hk, ?_, ?_⟩
      · rw [Lexeme.start_behind, hA]
      · rw [Lexeme.stop_behind, Lexeme.spell_concat, hA, hl]
    · have hreturn : (spell A).getLast? = some '\r' := by
        rw [hA, List.getLast?_concat]
      have htorn' := torn_of_return hlang hs (by rw [hl]; rfl) hreturn
      rw [hA, List.length_append] at htorn'
      rw [List.length_append] at htorn
      exact absurd htorn' htorn

/-- A line break of the lexer is one of the document, unless it misses the return. -/
theorem exists_hasBreak_iff (hlang : language ∈ Language.builtin)
    (ht : t ∈ language.lexis.tokens d.text) (hk : t.kind = .newline) :
    (∃ n, d.HasBreak n t.start.offset t.stop.offset) ↔
      ¬language.lexis.Torn d.text t.stop.offset := by
  constructor
  · rintro ⟨n, h⟩
    exact not_torn ht (by rw [hk]; decide) h (Nat.le_refl _) (Nat.le_refl _)
  · intro htorn
    obtain ⟨A, l, B, hs, rfl⟩ := exists_lexeme_of_mem_tokens ht (by rw [hk]; decide)
    have hstop : (l.behind A).stop.offset = (spell A ++ l.text).length := by
      rw [Lexeme.stop_behind, Lexeme.spell_concat]
    have htext : d.text = spell A ++ l.text ++ spell B := by
      rw [text_eq_of_lexemes hs, List.append_assoc]
    have hbr : IsBreakBehind (spell A) l.text := by
      rcases (reads_of_lexemes hs).text_of_newline hk with hl | hl
      · refine .inr ⟨hl, fun hreturn => htorn ?_⟩
        rw [hstop, hl, List.length_append]
        exact torn_of_return hlang hs (by rw [hl]; rfl) hreturn
      · exact .inl hl
    rw [Lexeme.start_behind, hstop]
    exact ⟨_, Document.hasBreak_of_text htext hbr⟩

/-- Strings and line comments have no part of a break, unless they take the return. -/
theorem inLine_iff (ht : t ∈ L.tokens d.text) (hk : t.kind = .string ∨ t.kind = .lineComment) :
    (∀ n stop next, d.HasBreak n stop next → t.stop.offset ≤ stop ∨ next ≤ t.start.offset) ↔
      ¬t.TakesReturn d.text := by
  constructor
  · intro h htake
    obtain ⟨n, k, hbreak, hstart, hstop⟩ := exists_hasBreak_of_takesReturn ht htake
    have := h n k (k + 2) hbreak
    omega
  · intro htake n stop next h
    have hkind : t.kind ≠ .newline ∧ t.kind ≠ .blockComment ∧ t.kind ≠ .eof := by
      rcases hk with hk | hk <;> rw [hk] <;> decide
    obtain ⟨A, l, B, hs, rfl⟩ := exists_lexeme_of_mem_tokens ht hkind.2.2
    have hreads := reads_of_lexemes hs
    have hu : Unbroken l.text (spell B) := by
      refine (hreads.unbroken_or_takesReturn hkind.1 hkind.2.1).resolve_right fun htake' => htake ?_
      rw [← drop_stop_behind hs] at htake'
      exact htake'
    by_contra hin
    rw [not_or, Nat.not_le, Nat.not_le] at hin
    obtain ⟨hstop, hstart⟩ := hin
    -- a break inside the token would be covered by it, but the token has no break
    by_cases hnext : next ≤ (l.behind A).stop.offset
    · exact hu.1 (newline_mem_of_covers ht h hstart hnext)
    · -- the token would end between the two characters of the break
      obtain ⟨p, br, r, htext, hbr, -, rfl, rfl⟩ := Document.hasBreak_iff_text.1 h
      rw [Lexeme.stop_behind, Lexeme.spell_concat] at hstop hnext
      obtain rfl : br = ['\r', '\n'] := by
        refine hbr.eq_or.resolve_left ?_
        rintro rfl
        simp at hstop hnext
        omega
      rw [text_eq_of_lexemes hs, ← List.append_assoc] at htext
      have hcut : spell A ++ l.text ++ spell B = p ++ ['\r'] ++ '\n' :: r := by
        rw [htext]
        simp
      obtain ⟨hl, hB⟩ := List.append_inj hcut (by simp at hstop hnext ⊢; omega)
      have hlast := List.getLast?_append_of_ne_nil (spell A) hreads.text_ne_nil
      rw [hl, List.getLast?_concat] at hlast
      exact hu.2 hlast.symm (by rw [hB]; rfl)

/-- **The lexer and the document agree on line breaks**, in the built-in languages and in every
text, but for breaks whose carriage return a string has taken.  Each break of the document lies in
a block comment or is a line break of the lexer, each line break of the lexer is a break of the
document, and no string or line comment has a part of one. -/
theorem breaks_agree_iff (hlang : language ∈ Language.builtin) (d : Document) :
    language.lexis.AgreesOnBreaks d where
  breaks _ _ _ h := breaksAt_iff hlang h
  returns p r h := by
    have htext : d.text = p ++ ['\r', '\n'] ++ r := by simp [h]
    have hbreak := Document.hasBreak_of_text htext (.inl rfl)
    rw [List.length_append] at hbreak
    exact breaksAt_iff hlang hbreak
  newlines _ ht hk := exists_hasBreak_iff hlang ht hk
  inLine _ ht hk := inLine_iff ht hk

/-- A string that ends with its line, a comment over a break, and a return before a break. -/
theorem breaks_agree_iff_in_comment :
    .c ∈ Language.builtin ∧
      Language.c.lexis.AgreesOnBreaks
        { text := ['"', '\r', '\n', '/', '*', '\r', '\n', '*', '/', '\r', '\r', '\n'] } := by
  have hlang : .c ∈ Language.builtin := by decide
  exact ⟨hlang, breaks_agree_iff hlang _⟩

/-- A backslash in a string takes the carriage return of the break, and the lexer has its line break
from the line feed on, where the document has none. -/
theorem breaks_torn_by_backslash :
    let L := Language.c.lexis
    let d : Document := { text := ['"', '\\', '\r', '\n'] }
    d.HasBreak 0 2 4 ∧ ¬L.BreaksAt d.text 2 4 ∧
      ∃ t ∈ L.tokens d.text, t.kind = .newline ∧ t.text = ['\n'] ∧
        ¬∃ n, d.HasBreak n t.start.offset t.stop.offset := by
  intro L d
  have htokens : L.tokens d.text =
      [⟨.string, ['"', '\\', '\r'], ⟨1, 1, 0⟩, ⟨1, 4, 3⟩⟩, ⟨.newline, ['\n'], ⟨1, 4, 3⟩, ⟨2, 1, 4⟩⟩,
        ⟨.eof, [], ⟨2, 1, 4⟩, ⟨2, 1, 4⟩⟩] := by
    cbv
  have hbreak : d.HasBreak 0 2 4 := ⟨rfl, rfl⟩
  refine ⟨hbreak, ?_, ?_⟩
  · rw [BreaksAt, htokens]
    decide
  · rw [htokens]
    refine ⟨⟨.newline, ['\n'], ⟨1, 4, 3⟩, ⟨2, 1, 4⟩⟩, by simp, rfl, rfl, ?_⟩
    rintro ⟨n, h⟩
    exact absurd (h.stop_unique hbreak) (by decide)

end Lexis

end SmartEnter
