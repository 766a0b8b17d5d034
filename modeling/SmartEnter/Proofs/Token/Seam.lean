/-
# What a lexeme owes to the text behind it

A lexeme ends where the text behind it does not go on with it, so it is fixed by its own text and by
a few things about what follows: the first character, whether a line ends there, whether a number or
a run of operators could go on, whether a comment opens across the joint.  `Seam` lists them.  If
the text behind a lexeme is replaced and the seam holds, the lexeme stays (`Reads.of_seam`).

The seam is one condition for all kinds of lexemes, stronger than any of them needs.  A word asks
for the first character only, a number for two, and a comment for the end of the line.  With one
condition, whoever replaces a text shows the seam once, without looking at what the lexeme is.

A block comment is the exception.  One that was closed asks for nothing, and one that was left open
ran to the end of the text, so nothing may be put there.

The proof of `Reads.of_seam` has one case for each branch, and the lemmas before it say of each part
of a lexeme that it ends where it did.  Conditions that rule earlier branches out must still hold;
for these it counts that no comment opens and no break starts in the lexeme that did not before
(`Seam.marker`, `Seam.joint`).
-/
import SmartEnter.Proofs.Token.Branch
import SmartEnter.Proofs.Token.Break

namespace SmartEnter

open Lexeme (spell)
open Text (isBlank isBreak isBreak_cons_iff)

namespace Lexis

variable {L : Lexis}

/-! ## 1. Markers

Most proofs do not ask whether a marker opens a line comment or a block comment, only that something
opens. -/

/-- The texts that open a comment, of either kind. -/
def markers (L : Lexis) : List (List Char) := L.lineComments ++ (L.blockComment.map (·.1)).toList

theorem startsLineComment_iff {s : List Char} :
    L.startsLineComment s = true ↔ ∃ m ∈ L.lineComments, m <+: s := by
  simp [startsLineComment]

theorem startsBlockComment_iff {s : List Char} :
    L.startsBlockComment s = true ↔ ∃ m closer, L.blockComment = some (m, closer) ∧ m <+: s := by
  unfold startsBlockComment
  cases L.blockComment with
  | none => simp
  | some b =>
    rw [Option.any_some, List.isPrefixOf_iff_prefix]
    constructor
    · exact fun h => ⟨b.1, b.2, rfl, h⟩
    · rintro ⟨m, closer, hb, h⟩
      obtain rfl := Option.some.inj hb
      exact h

theorem mem_markers_of_line {m : List Char} (h : m ∈ L.lineComments) : m ∈ L.markers :=
  List.mem_append_left _ h

theorem mem_markers_of_block {m closer : List Char} (h : L.blockComment = some (m, closer)) :
    m ∈ L.markers := by
  rw [markers, h]
  exact List.mem_append_right _ (List.mem_singleton.2 rfl)

/-- Comments open within a line, and a block comment is never empty.  The second is needed because a
lexeme has at least one character. -/
structure Regular (L : Lexis) : Prop where
  inLine : ∀ m ∈ L.markers, '\n' ∉ m ∧ '\r' ∉ m
  nonempty : L.blockComment ≠ some ([], [])

/-- The text of a block comment holds the closer behind the opener, so that the comment does not go
on to the end of the text. -/
def Closes (L : Lexis) (w : List Char) : Prop :=
  ∃ opener closer, L.blockComment = some (opener, closer) ∧ closer <:+: w.drop opener.length

/-! ## 2. Where the parts of a lexeme end

A part of a lexeme ends for one of three reasons: a character fails a test, the line ends, or a
closer was found.  The lemmas say for each function which it is. -/

/-- The marker of a line comment lies before the break, so it is part of the comment.  If it had a
part of the break, the comment would be shorter than its marker. -/
theorem exists_marker (hL : L.Regular) {c : Char} {rest : List Char}
    (hb : isBreak (c :: rest) = false) (hl : L.startsLineComment (c :: rest) = true) :
    ∃ m ∈ L.lineComments, m <+: c :: untilBreak rest := by
  obtain ⟨m, hm, hp⟩ := startsLineComment_iff.1 hl
  have hu := prefix_untilBreak hp (hL.inLine m (mem_markers_of_line hm))
  rw [untilBreak, if_neg (by rw [hb]; exact Bool.false_ne_true)] at hu
  exact ⟨m, hm, hu⟩

theorem takeWhile_append_eq_self_iff {p : Char → Bool} {t y : List Char} :
    (t ++ y).takeWhile p = t ↔ (∀ c ∈ t, p c = true) ∧ y.takeWhile p = [] := by
  constructor
  · intro h
    have ht : ∀ c ∈ t, p c = true := by
      intro c hc
      rw [← h] at hc
      exact List.all_eq_true.1 List.all_takeWhile c hc
    refine ⟨ht, ?_⟩
    rw [List.takeWhile_append_of_pos ht] at h
    exact List.append_right_eq_self.1 h
  · rintro ⟨ht, hy⟩
    rw [List.takeWhile_append_of_pos ht, hy, List.append_nil]

theorem stringTail_cons_of_ne {q c : Char} (hc : c ≠ '\\') (s : List Char) :
    stringTail q (c :: s) =
      if isBreak (c :: s) then [] else if c = q then [c] else c :: stringTail q s := by
  rw [stringTail]
  rintro d r rfl
  exact absurd rfl hc

/-- A string ends with the backslash that is the last character of its line. -/
theorem stringTail_backslash {q : Char} {y : List Char} (h : y = [] ∨ y.head? = some '\n') :
    stringTail q ('\\' :: y) = ['\\'] := by
  rcases h with rfl | h
  · simp [stringTail, isBreak]
  · cases y with
    | nil => cases h
    | cons d y =>
      obtain rfl := Option.some.inj h
      simp [stringTail]

theorem stringTail_eq_nil_iff {q : Char} {s : List Char} :
    stringTail q s = [] ↔ untilBreak s = [] := by
  fun_induction stringTail q s with
  | case1 => simp [untilBreak]
  | case2 => simp [untilBreak, isBreak]
  | case3 => simp [untilBreak, isBreak]
  | case4 => simp_all [untilBreak]
  | case5 => simp_all [untilBreak]
  | case6 => simp_all [untilBreak]

/-- Up to a closer, what follows the closer does not matter.  By induction on the text: the first
closer is found at the same place, whatever follows. -/
theorem throughCloser_append {q b y y' : List Char} (h : throughCloser q (b ++ y) = b)
    (hq : q <:+: b) : throughCloser q (b ++ y') = b := by
  induction b with
  | nil =>
    obtain rfl := List.infix_nil.1 hq
    cases y' <;> simp [throughCloser]
  | cons c b ih =>
    rw [List.cons_append, throughCloser] at h ⊢
    split at h
    · have hp' : q.isPrefixOf (c :: (b ++ y')) = true := by
        rw [h, List.isPrefixOf_iff_prefix]
        exact List.prefix_append (c :: b) y'
      rw [if_pos hp', h]
    · next hp =>
      rw [List.isPrefixOf_iff_prefix] at hp
      have hqb : q <:+: b := by
        rcases List.infix_cons_iff.1 hq with hq | hq
        · exact absurd (hq.trans (List.prefix_append (c :: b) y)) hp
        · exact hq
      have hp' : ¬q.isPrefixOf (c :: (b ++ y')) = true := by
        rw [List.isPrefixOf_iff_prefix]
        intro hq'
        have hle : q.length ≤ (c :: b).length := Nat.le_succ_of_le hqb.length_le
        have := List.prefix_of_prefix_length_le hq' (List.prefix_append (c :: b) y') hle
        exact hp (this.trans (List.prefix_append (c :: b) y))
      rw [if_neg hp', ih (List.cons.inj h).2 hqb]

theorem throughCloser_eq_self_or (q s : List Char) :
    throughCloser q s = s ∨ q <:+: throughCloser q s := by
  induction s with
  | nil => exact .inl rfl
  | cons c s ih =>
    unfold throughCloser
    split
    · exact .inr (List.infix_refl q)
    · rcases ih with h | h
      · exact .inl (by rw [h])
      · exact .inr (List.infix_cons_iff.2 (.inr h))

/-! ## 3. The seam behind a lexeme

Each lemma takes an end `t` of the lexeme, since the rest of a lexeme is read behind its first
characters. -/

/-- What `y'` must have in common with `y` so that a lexeme `w` read before `y` is read before `y'`,
too.  Every field is about the joint: what starts right behind the lexeme, or in it. -/
structure Seam (L : Lexis) (w y y' : List Char) : Prop where
  head : y' = [] ∨ y'.head? = some '\n' ∨ y'.head? = y.head?
  line : untilBreak y = [] → untilBreak y' = []
  number : numberTail y = [] → numberTail y' = []
  operator : L.operatorTail y = [] → L.operatorTail y' = []
  /-- No comment opens in the lexeme that did not open there before. -/
  marker : ∀ z, z ≠ [] → z <:+ w → ∀ m ∈ L.markers, m <+: z ++ y' → m <+: z ++ y
  /-- No line feed joins a carriage return at the end of the lexeme. -/
  joint : w.getLast? = some '\r' → y'.head? = some '\n' → y.head? = some '\n'

namespace Seam

variable {w y y' t : List Char}

theorem takeWhile {p : Char → Bool} (h : L.Seam w y y') (hp : p '\n' = false)
    (ht : (t ++ y).takeWhile p = t) : (t ++ y').takeWhile p = t := by
  rw [takeWhile_append_eq_self_iff] at ht ⊢
  refine ⟨ht.1, ?_⟩
  have hy := ht.2
  cases y' with
  | nil => rfl
  | cons d y' =>
    rcases h.head with he | he | he
    · cases he
    · obtain rfl := Option.some.inj he
      rw [List.takeWhile_cons, hp]
      rfl
    · cases y with
      | nil => cases he
      | cons e y =>
        obtain rfl := Option.some.inj he
        rw [List.takeWhile_cons] at hy ⊢
        split at hy
        · cases hy
        · next hd => rw [if_neg hd]

theorem isBreak_of (h : L.Seam w y y') (hne : t ≠ []) (ht : t <:+ w)
    (hb : isBreak (t ++ y') = true) : isBreak (t ++ y) = true := by
  match t with
  | [] => exact absurd rfl hne
  | [c] =>
    rw [List.singleton_append, isBreak_cons_iff] at hb ⊢
    rcases hb with hb | ⟨rfl, hb⟩
    · exact .inl hb
    · have hw : w.getLast? = some '\r' := by
        obtain ⟨u, rfl⟩ := ht
        simp
      exact .inr ⟨rfl, h.joint hw hb⟩
  | c :: d :: t =>
    rw [List.cons_append, isBreak_cons_iff] at hb ⊢
    exact hb

theorem isBreak_eq_false (h : L.Seam w y y') (hne : t ≠ []) (ht : t <:+ w)
    (hb : isBreak (t ++ y) = false) : isBreak (t ++ y') = false := by
  rw [← Bool.not_eq_true] at hb ⊢
  exact fun hb' => hb (h.isBreak_of hne ht hb')

theorem startsLineComment_eq_false (h : L.Seam w y y') (hne : t ≠ []) (ht : t <:+ w)
    (hc : L.startsLineComment (t ++ y) = false) : L.startsLineComment (t ++ y') = false := by
  rw [← Bool.not_eq_true, startsLineComment_iff] at hc ⊢
  rintro ⟨m, hm, hp⟩
  exact hc ⟨m, hm, h.marker t hne ht m (mem_markers_of_line hm) hp⟩

theorem startsBlockComment_eq_false (h : L.Seam w y y') (hne : t ≠ []) (ht : t <:+ w)
    (hc : L.startsBlockComment (t ++ y) = false) : L.startsBlockComment (t ++ y') = false := by
  rw [← Bool.not_eq_true, startsBlockComment_iff] at hc ⊢
  rintro ⟨m, closer, hb, hp⟩
  exact hc ⟨m, closer, hb, h.marker t hne ht m (mem_markers_of_block hb) hp⟩

theorem startsCode {c : Char} (h : L.Seam (c :: t) y y') (hc : L.StartsCode c (t ++ y)) :
    L.StartsCode c (t ++ y') where
  noBreak := h.isBreak_eq_false (List.cons_ne_nil c t) (List.suffix_refl _) hc.noBreak
  noBlank := hc.noBlank
  noLineComment :=
    h.startsLineComment_eq_false (List.cons_ne_nil c t) (List.suffix_refl _) hc.noLineComment
  noBlockComment :=
    h.startsBlockComment_eq_false (List.cons_ne_nil c t) (List.suffix_refl _) hc.noBlockComment

theorem startsWord {c : Char} (h : L.Seam (c :: t) y y') (hc : L.StartsWord c (t ++ y)) :
    L.StartsWord c (t ++ y') :=
  ⟨h.startsCode hc.toStartsCode, hc.noQuote, hc.noDelimiter⟩

theorem untilBreak (h : L.Seam w y y') (ht : t <:+ w) (he : Lexis.untilBreak (t ++ y) = t) :
    Lexis.untilBreak (t ++ y') = t := by
  induction t with
  | nil => exact h.line he
  | cons c t ih =>
    rw [List.cons_append, Lexis.untilBreak] at he ⊢
    split at he
    · cases he
    · next hb =>
      have hb' : ¬isBreak (c :: (t ++ y')) = true :=
        fun hb' => hb (h.isBreak_of (List.cons_ne_nil c t) ht hb')
      rw [if_neg hb', ih ((List.suffix_cons c t).trans ht) (List.cons.inj he).2]

theorem ends_line (h : L.Seam w y y') (hy : y = [] ∨ y.head? = some '\n') :
    y' = [] ∨ y'.head? = some '\n' := by
  rcases h.head with he | he | he
  · exact .inl he
  · exact .inr he
  · rcases hy with rfl | hy
    · exact .inl (List.head?_eq_none_iff.1 he)
    · exact .inr (he.trans hy)

/-- The induction is on the string as it was read before `y`; each of its steps is repeated
before `y'`. -/
theorem stringTail {q : Char} (h : L.Seam w y y') (ht : t <:+ w)
    (he : Lexis.stringTail q (t ++ y) = t) : Lexis.stringTail q (t ++ y') = t := by
  generalize hs : t ++ y = s at he
  fun_induction Lexis.stringTail q s generalizing t with
  | case1 =>
    obtain rfl := he.symm
    obtain rfl : y = [] := hs
    exact stringTail_eq_nil_iff.2 (h.line rfl)
  | case2 rest =>
    obtain rfl := he.symm
    obtain rfl := (List.cons.inj hs).2
    exact stringTail_backslash (h.ends_line (.inr rfl))
  | case3 d rest hd ih =>
    obtain ⟨t, rfl, htail⟩ : ∃ u, t = '\\' :: d :: u ∧ Lexis.stringTail q rest = u :=
      ⟨_, he.symm, rfl⟩
    obtain rfl : t ++ y = rest := (List.cons.inj (List.cons.inj hs).2).2
    have hu := (List.suffix_cons d t).trans (List.suffix_cons '\\' (d :: t))
    rw [List.cons_append, List.cons_append, Lexis.stringTail, if_neg hd, ih (hu.trans ht) rfl htail]
  | case4 c rest _ hb =>
    obtain rfl := he.symm
    obtain rfl := hs
    exact stringTail_eq_nil_iff.2 (h.line (untilBreak_eq_nil_iff.2 (.inr hb)))
  | case5 rest hesc hb =>
    obtain rfl := he.symm
    obtain rfl := (List.cons.inj hs).2
    by_cases hq : q = '\\'
    · subst hq
      cases y with
      | nil => exact stringTail_backslash (h.ends_line (.inl rfl))
      | cons d y => exact absurd rfl (hesc d y rfl)
    · have hb' : ¬isBreak (q :: y') = true :=
        fun hb' => hb (h.isBreak_of (List.cons_ne_nil q []) ht hb')
      rw [List.singleton_append, stringTail_cons_of_ne hq, if_neg hb', if_pos rfl]
  | case6 c rest hesc hb hq ih =>
    obtain ⟨t, rfl, htail⟩ : ∃ u, t = c :: u ∧ Lexis.stringTail q rest = u := ⟨_, he.symm, rfl⟩
    obtain rfl : t ++ y = rest := (List.cons.inj hs).2
    by_cases hc : c = '\\'
    · subst hc
      cases t with
      | nil =>
        cases y with
        | nil => exact stringTail_backslash (h.ends_line (.inl rfl))
        | cons d y => exact absurd rfl (hesc d y rfl)
      | cons d t => exact absurd rfl (hesc d (t ++ y) rfl)
    · have hb' : ¬isBreak (c :: (t ++ y')) = true :=
        fun hb' => hb (h.isBreak_of (List.cons_ne_nil c t) ht hb')
      rw [List.cons_append, stringTail_cons_of_ne hc, if_neg hb', if_neg hq,
        ih ((List.suffix_cons c t).trans ht) rfl htail]

theorem numberTail (h : L.Seam w y y') (he : Lexis.numberTail (t ++ y) = t) :
    Lexis.numberTail (t ++ y') = t := by
  induction t with
  | nil => exact h.number he
  | cons c t ih =>
    rw [List.cons_append, Lexis.numberTail] at he ⊢
    split at he
    · next hc =>
      have ht := (List.cons.inj he).2
      have hc' :
          (Token.isIdentChar c || (c = '.' && (t ++ y').head?.any Unicode.isDigit)) = true := by
        cases t with
        | cons d t => exact hc
        | nil =>
          rcases Bool.or_eq_true_iff.1 hc with hi | hp
          · rw [hi, Bool.true_or]
          · -- the digit behind the point would have been read
            cases y with
            | nil => simp at hp
            | cons d y =>
              have hd : Unicode.isDigit d = true := by simpa using (Bool.and_eq_true_iff.1 hp).2
              have hi : Token.isIdentChar d = true := by
                simp [Token.isIdentChar, Unicode.isAlphanumeric_of_isDigit hd]
              simp [Lexis.numberTail, hi] at ht
      rw [if_pos hc', ih ht]
    · cases he

theorem operatorTail (h : L.Seam w y y') (ht : t <:+ w) (he : L.operatorTail (t ++ y) = t) :
    L.operatorTail (t ++ y') = t := by
  induction t with
  | nil => exact h.operator he
  | cons c t ih =>
    rw [List.cons_append, Lexis.operatorTail] at he ⊢
    split at he
    · next hc =>
      have hc' : (Token.isOperatorChar c && !L.startsLineComment (c :: (t ++ y'))
          && !L.startsBlockComment (c :: (t ++ y'))) = true := by
        simp only [Bool.and_eq_true, Bool.not_eq_true'] at hc ⊢
        exact ⟨⟨hc.1.1, h.startsLineComment_eq_false (List.cons_ne_nil c t) ht hc.1.2⟩,
          h.startsBlockComment_eq_false (List.cons_ne_nil c t) ht hc.2⟩
      rw [if_pos hc', ih ((List.suffix_cons c t).trans ht) (List.cons.inj he).2]
    · cases he

end Seam

/-! ## 4. Lexemes before another text

Block comments come first, since they are not covered by the seam; all other branches follow the
lemmas of the section before. -/

theorem blockCommentText_append {m closer : List Char} (h : L.blockComment = some (m, closer))
    (s : List Char) : L.blockCommentText (m ++ s) = m ++ throughCloser closer s := by
  rw [blockCommentText, h]
  simp only [List.take_left, List.drop_left]

/-- The text of a block comment is its opener and what follows through the closer. -/
theorem exists_blockCommentText (hL : L.Regular) {c : Char} {rest : List Char}
    (h : L.startsBlockComment (c :: rest) = true) :
    ∃ m closer s, L.blockComment = some (m, closer) ∧ c :: rest = m ++ s ∧
      c :: (L.blockCommentText (c :: rest)).tail = m ++ throughCloser closer s := by
  obtain ⟨m, closer, hb, s, hs⟩ := startsBlockComment_iff.1 h
  have htext : L.blockCommentText (c :: rest) = m ++ throughCloser closer s := by
    rw [← hs, blockCommentText_append hb]
  refine ⟨m, closer, s, hb, hs.symm, ?_⟩
  rw [← htext]
  have hp := L.blockCommentText_isPrefix (c :: rest)
  cases hw : L.blockCommentText (c :: rest) with
  | nil =>
    -- only the empty comment has no text
    obtain ⟨rfl, ht⟩ := List.append_eq_nil_iff.1 (htext.symm.trans hw)
    obtain rfl : s = c :: rest := hs
    unfold throughCloser at ht
    split at ht
    · exact absurd (ht ▸ hb) hL.nonempty
    · cases ht
  | cons d w =>
    rw [hw] at hp
    rw [(List.cons_prefix_cons.1 hp).1, List.tail_cons]

/-- A block comment that is closed has the same text whatever follows. -/
theorem blockCommentText_of_closes (hL : L.Regular) {c : Char} {rest t y : List Char}
    (h : L.startsBlockComment (c :: rest) = true)
    (ht : (L.blockCommentText (c :: rest)).tail = t) (hr : rest = t ++ y)
    (hc : L.Closes (c :: t)) (y' : List Char) :
    L.startsBlockComment (c :: (t ++ y')) = true ∧
      L.blockCommentText (c :: (t ++ y')) = c :: t := by
  obtain ⟨m, closer, s, hm, hms, htext⟩ := exists_blockCommentText hL h
  obtain ⟨m', closer', hm', hinfix⟩ := hc
  obtain ⟨rfl, rfl⟩ := Prod.mk.inj (Option.some.inj (hm.symm.trans hm'))
  rw [ht] at htext
  rw [htext, List.drop_left] at hinfix
  have hsy : s = throughCloser closer s ++ y := by
    refine List.append_cancel_left (?_ : m ++ _ = m ++ _)
    rw [← hms, ← List.append_assoc, ← htext, List.cons_append, ← hr]
  have hnew : c :: (t ++ y') = m ++ (throughCloser closer s ++ y') := by
    rw [← List.cons_append, htext, List.append_assoc]
  rw [hnew]
  refine ⟨startsBlockComment_iff.2 ⟨m, closer, hm, List.prefix_append m _⟩, ?_⟩
  rw [blockCommentText_append hm, throughCloser_append (by rw [← hsy]) hinfix, htext]

theorem Reads.closes {l : Lexeme} {y : List Char} (h : L.Reads l y) (hL : L.Regular)
    (hk : l.kind = .blockComment) (hy : y ≠ []) : L.Closes l.text := by
  obtain ⟨c, rest, t, ht, hr, hb⟩ := reads_iff_branch.1 h
  rw [hk] at hb
  cases hb with
  | delimiter _ _ hd => exact absurd (by decide) (kind_of_delimiter hd)
  | blockComment _ _ _ ho =>
    obtain ⟨m, closer, s, hm, hs, hw⟩ := exists_blockCommentText hL ho
    have hsy : s = throughCloser closer s ++ y := by
      refine List.append_cancel_left (?_ : m ++ _ = m ++ _)
      rw [← hs, ← List.append_assoc, ← hw, List.cons_append, ← hr]
    refine ⟨m, closer, hm, ?_⟩
    rw [ht, hw, List.drop_left]
    rcases throughCloser_eq_self_or closer s with he | he
    · rw [he] at hsy
      exact absurd (List.append_right_eq_self.1 hsy.symm) hy
    · exact he

/-- **A lexeme stays when the text behind it is replaced and the seam holds.**  A block comment
that was not closed ran to the end of the text, and stays only if nothing is put there. -/
theorem Reads.of_seam (hL : L.Regular) {l : Lexeme} {y y' : List Char} (h : L.Reads l y)
    (hs : L.Seam l.text y y')
    (hc : l.kind = .blockComment → y = [] → y' = [] ∨ L.Closes l.text) : L.Reads l y' := by
  -- an open block comment that stays at the end of the text is the one lexeme that may be open
  by_cases hyy : l.kind = .blockComment ∧ y = [] ∧ y' = []
  · rw [hyy.2.2, ← hyy.2.1]
    exact h
  have hcloses : l.kind = .blockComment → L.Closes l.text := by
    intro hk
    by_cases hy : y = []
    · exact (hc hk hy).resolve_left fun hy' => hyy ⟨hk, hy, hy'⟩
    · exact h.closes hL hk hy
  obtain ⟨k, w⟩ := l
  obtain ⟨c, rest, t, rfl, hr, hb⟩ := reads_iff_branch.1 h
  -- where comments and breaks start decides what is read, and the seam leaves that as it was
  have hself : t <:+ c :: t := List.suffix_cons c t
  have hbreak : isBreak (c :: rest) = false → isBreak (c :: (t ++ y')) = false := by
    rw [hr]
    exact hs.isBreak_eq_false (List.cons_ne_nil c t) (List.suffix_refl _)
  have hcode : L.StartsCode c rest → L.StartsCode c (t ++ y') := by
    rw [hr]
    exact hs.startsCode
  have hword : L.StartsWord c rest → L.StartsWord c (t ++ y') := by
    rw [hr]
    exact hs.startsWord
  refine reads_iff_branch.2 ⟨c, t ++ y', t, rfl, rfl, ?_⟩
  cases hb with
  | newline hb =>
    refine .newline ?_
    rw [isBreak_cons_iff] at hb ⊢
    rcases hb with rfl | ⟨rfl, -⟩
    · exact .inl rfl
    · exact .inr ⟨rfl, rfl⟩
  | ws hb hw =>
    exact (Branch.ws (hbreak hb) hw).congr (hs.takeWhile (by decide) (by rw [← hr]))
  | lineComment hb hw hl =>
    obtain ⟨m, hm, hmt⟩ := exists_marker hL hb hl
    have hl' : L.startsLineComment (c :: (Lexis.untilBreak rest ++ y')) = true :=
      startsLineComment_iff.2 ⟨m, hm, hmt.trans (List.prefix_append _ y')⟩
    exact (Branch.lineComment (hbreak hb) hw hl').congr (hs.untilBreak hself (by rw [← hr]))
  | blockComment hb hw hl ho =>
    have hl' : L.startsLineComment (c :: ((L.blockCommentText (c :: rest)).tail ++ y')) = false :=
      hs.startsLineComment_eq_false (List.cons_ne_nil c _) (List.suffix_refl _)
        (by rw [List.cons_append, ← hr]; exact hl)
    obtain ⟨ho', htext⟩ := blockCommentText_of_closes hL ho rfl hr (hcloses rfl) y'
    exact (Branch.blockComment (hbreak hb) hw hl' ho').congr (by rw [htext, List.tail_cons])
  | string hst hq =>
    exact (Branch.string (hcode hst) hq).congr (hs.stringTail hself (by rw [← hr]))
  | delimiter hst hq hd => exact .delimiter (hcode hst) hq hd
  | identifier hst hi =>
    exact (Branch.identifier (hword hst) hi).congr (hs.takeWhile (by decide) (by rw [← hr]))
  | number hst hi hn =>
    exact (Branch.number (hword hst) hi hn).congr (hs.numberTail (by rw [← hr]))
  | operator hst hi hn ho =>
    exact (Branch.operator (hword hst) hi hn ho).congr (hs.operatorTail hself (by rw [← hr]))
  | text hst hi hn ho => exact .text (hword hst) hi hn ho

end Lexis

end SmartEnter
