/-
# Cutting a text where a token starts

Where a token starts, a text can be cut in two, and nothing is read anew: the half before the cut
has the tokens that stop there or earlier, and the half behind it has all the others.  Only their
places differ, for these count from the start of the half (`Position.behind`).

The second half is easy, because the lexer never looks back (`lexemes_boundary`).  The first one
says that no token was read off characters beyond its own end: with the text cut short, each lexeme
has the seam that it needs (`lexemes_of_boundary`).

Comments must open within a line.  If a marker had a line feed in it, the cut could take a part of
it away from a run of operators, which would then go on where a comment had opened before.

The main statement, `tokens_cut`, speaks of the tokens of both halves and of their order.  The end
mark of the first half is the one token that has no counterpart.
-/
import SmartEnter.Proofs.Token.Locality
import SmartEnter.Proofs.Token.Tiling

namespace SmartEnter

open Lexeme (spell)

/-! ## 1. Places with a text in front

A text in front moves all offsets by its length and all lines by its line feeds.  Columns are moved
only on the first line, by what the text has behind its last line feed. -/

/-- What a text has behind its last line feed. -/
def Text.lastLine (s : List Char) : List Char := (s.reverse.takeWhile (· ≠ '\n')).reverse

theorem Text.lastLine_concat (s : List Char) (c : Char) :
    lastLine (s ++ [c]) = if c = '\n' then [] else lastLine s ++ [c] := by
  unfold lastLine
  split <;> simp_all

namespace Position

variable {p : Position}

/-- A place of a text, once `s` is put in front of the text. -/
def behind (p : Position) (s : List Char) : Position where
  line := s.count '\n' + p.line
  column := if p.line = 1 then (Text.lastLine s).length + p.column else p.column
  offset := s.length + p.offset

@[simp] theorem behind_nil (p : Position) : p.behind [] = p := by
  simp [behind, Text.lastLine]

@[simp] theorem offset_behind (p : Position) (s : List Char) :
    (p.behind s).offset = s.length + p.offset := rfl

/-- The place at the end of a text is the start, with the text in front. -/
theorem advance_start (s : List Char) : start.advance s = start.behind s := by
  induction s using List.reverseRecOn with
  | nil => simp
  | append_singleton s c ih =>
    rw [advance_append, ih, advance_cons, advance_nil, step]
    split
    · next hc => simp [behind, Text.lastLine_concat, hc, start]
    · next hc => simp [behind, Text.lastLine_concat, hc, start]

theorem le_line_step (h : 1 ≤ p.line) (c : Char) : 1 ≤ (p.step c).line := by
  unfold step
  split
  · exact Nat.le_succ_of_le h
  · exact h

/-- A text in front moves the place before a character and the one behind it alike. -/
theorem step_behind (h : 1 ≤ p.line) (s : List Char) (c : Char) :
    (p.behind s).step c = (p.step c).behind s := by
  unfold step
  split
  · have hne : p.line ≠ 0 := Nat.one_le_iff_ne_zero.1 h
    simp [behind, hne, Nat.add_assoc]
  · by_cases hp : p.line = 1 <;> simp [behind, hp, Nat.add_assoc]

theorem advance_behind (h : 1 ≤ p.line) (s t : List Char) :
    (p.behind s).advance t = (p.advance t).behind s := by
  induction t generalizing p with
  | nil => rfl
  | cons c t ih => rw [advance_cons, advance_cons, step_behind h, ih (le_line_step h c)]

theorem le_line_advance (h : 1 ≤ p.line) (t : List Char) : 1 ≤ (p.advance t).line := by
  induction t generalizing p with
  | nil => exact h
  | cons c t ih => exact ih (le_line_step h c)

end Position

namespace Token

/-- A token of a text, once `s` is put in front of the text. -/
def behind (t : Token) (s : List Char) : Token :=
  { t with start := t.start.behind s, stop := t.stop.behind s }

/-- Is the token one of the text, no end mark, and does it stop at the offset or before? -/
def EndsBy (t : Token) (n : Nat) : Prop := t.kind ≠ .eof ∧ t.stop.offset ≤ n

instance (t : Token) (n : Nat) : Decidable (t.EndsBy n) := by unfold EndsBy; infer_instance

end Token

namespace Lexis

variable {L : Lexis} {p r s : List Char} {A : List Lexeme}

/-- Lexemes behind a text are placed as without it, and then moved. -/
theorem placed_behind {q : Position} (h : 1 ≤ q.line) (s : List Char) (ls : List Lexeme) :
    placed (q.behind s) ls = (placed q ls).map (·.behind s) := by
  induction ls generalizing q with
  | nil => rfl
  | cons l ls ih =>
    have hstop := Position.advance_behind h s l.text
    rw [placed, placed, List.map_cons, hstop, ih (Position.le_line_advance h _),
      Lexeme.placedAt, hstop]
    rfl

/-! ## 2. The two halves

The lexemes of the halves first, and then the tokens, with the places of the second half moved. -/

/-- **Up to a boundary the text is read as if nothing stood behind.**  What stands behind may be cut
away, because a cut is one of the replacements that lexemes survive (`lexemes_cut`). -/
theorem lexemes_of_boundary (hL : L.Regular) (h : L.lexemes (p ++ r) = A ++ L.lexemes r)
    (hA : spell A = p) : L.lexemes p = A := by
  have hcut : L.lexemes (spell A ++ []) = A ++ L.lexemes [] :=
    lexemes_cut hL h (.inl rfl) (fun hne => absurd rfl hne) fun _ _ _ _ _ => .inl rfl
  simpa [hA] using hcut

/-- The tokens of a text are those of its two halves, the end mark of the first one left out and the
places of the second one moved. -/
theorem tokens_append (hL : L.Regular) (h : L.IsBoundary (p ++ r) p.length) :
    L.tokens (p ++ r) = placed .start (L.lexemes p) ++ (L.tokens r).map (·.behind p) := by
  obtain ⟨A, hs, hA⟩ := lexemes_boundary h
  have hp : L.lexemes p = A := lexemes_of_boundary hL hs hA
  have hstart : Position.start.advance p = Position.start.behind p := Position.advance_start p
  have hline : 1 ≤ Position.start.line := Nat.le_refl 1
  have hend : endMark (p ++ r) = (endMark r).behind p := by
    simp only [endMark, Position.advance_append, hstart, Position.advance_behind hline,
      Token.behind]
  rw [tokens_eq, tokens_eq, hs, hp, placed_append, hA, hstart, placed_behind hline, hend,
    List.map_append, List.append_assoc]
  rfl

theorem endsBy_of_mem_placed {t : Token} (h : t ∈ placed .start (L.lexemes p)) :
    t.EndsBy p.length := by
  obtain ⟨A, l, B, hs, rfl⟩ := mem_placed_iff.1 h
  have hp : p = spell (A ++ [l]) ++ spell B := by
    rw [(lexemes_eq_append hs).1, Lexeme.spell_cons, Lexeme.spell_concat, List.append_assoc]
  have hstop := Lexeme.stop_behind l A
  refine ⟨(reads_of_lexemes hs).kind_ne_eof, hstop.trans_le ?_⟩
  rw [hp, List.length_append]
  exact Nat.le_add_right _ _

theorem not_endsBy_of_mem_tokens {t : Token} (h : t ∈ L.tokens r) (s : List Char) :
    ¬(t.behind s).EndsBy s.length := by
  rintro ⟨hk, hle⟩
  obtain ⟨A, l, B, hs, rfl⟩ := exists_lexeme_of_mem_tokens h hk
  have hpos := List.length_pos_iff.2 (reads_of_lexemes hs).text_ne_nil
  have hstop : s.length + (spell (A ++ [l])).length ≤ s.length := by
    rwa [← Lexeme.stop_behind]
  rw [Lexeme.spell_concat, List.length_append] at hstop
  omega

/-- The tokens of a text without its end mark are its placed lexemes; no lexeme is of the kind of an
end mark. -/
theorem filter_tokens (L : Lexis) (s : List Char) :
    (L.tokens s).filter (·.kind ≠ .eof) = placed .start (L.lexemes s) := by
  have hkeep : ∀ t ∈ placed .start (L.lexemes s), decide (t.kind ≠ .eof) = true := by
    intro t ht
    exact decide_eq_true (endsBy_of_mem_placed ht).1
  rw [tokens_eq, List.filter_append, List.filter_eq_self.2 hkeep]
  simp [endMark]

theorem IsBoundary.le_length {n : Nat} (h : L.IsBoundary s n) : n ≤ s.length := by
  obtain ⟨t, ht, rfl⟩ := h
  rcases mem_tokens_iff.1 ht with ⟨A, l, B, hs, rfl⟩ | rfl
  · rw [Lexeme.start_behind, (lexemes_eq_append hs).1, List.length_append]
    exact Nat.le_add_right _ _
  · exact (Position.offset_start_advance s).le

/-- **A text can be cut wherever one of its tokens starts**, if its comments open within a line.
The tokens of the first half, its end mark left out, are the tokens of the text that stop at the
cut or before.  The tokens of the second half are all the others, at places that count from the
cut on.  The former come first. -/
theorem tokens_cut (hL : L.Regular) {n : Nat} (h : L.IsBoundary s n) :
    (L.tokens (s.take n)).filter (·.kind ≠ .eof) = (L.tokens s).filter (·.EndsBy n) ∧
      (L.tokens (s.drop n)).map (·.behind (s.take n)) = (L.tokens s).filter (¬·.EndsBy n) ∧
      L.tokens s = (L.tokens (s.take n)).filter (·.kind ≠ .eof) ++
        (L.tokens (s.drop n)).map (·.behind (s.take n)) := by
  obtain ⟨p, r, rfl, rfl⟩ : ∃ p r, s = p ++ r ∧ p.length = n :=
    ⟨s.take n, s.drop n, (List.take_append_drop n s).symm, List.length_take_of_le h.le_length⟩
  have hfirst : ∀ t ∈ placed .start (L.lexemes p), t.EndsBy p.length := by
    intro t ht
    exact endsBy_of_mem_placed ht
  have hsecond : ∀ t ∈ (L.tokens r).map (·.behind p), ¬t.EndsBy p.length := by
    intro t ht
    obtain ⟨u, hu, rfl⟩ := List.mem_map.1 ht
    exact not_endsBy_of_mem_tokens hu p
  rw [List.take_left, List.drop_left, filter_tokens, tokens_append hL h, List.filter_append,
    List.filter_append]
  refine ⟨?_, ?_, rfl⟩
  · rw [List.filter_eq_self.2 (by simpa using hfirst),
      List.filter_eq_nil_iff.2 (by simpa using hsecond), List.append_nil]
  · rw [List.filter_eq_nil_iff.2 (by simpa using hfirst),
      List.filter_eq_self.2 (by simpa using hsecond), List.nil_append]

/-- A text is cut on its second line, between a number and a point that is no part of it. -/
theorem tokens_cut_before_point :
    let L : Lexis := {}
    let s := ['a', '\n', ' ', '1', '.', 'x', '\n', '/', '*']
    L.Regular ∧ L.IsBoundary s 4 ∧
      (L.tokens (s.take 4)).filter (·.kind ≠ .eof) = (L.tokens s).filter (·.EndsBy 4) ∧
      (L.tokens (s.drop 4)).map (·.behind (s.take 4)) = (L.tokens s).filter (¬·.EndsBy 4) ∧
      L.tokens s = (L.tokens (s.take 4)).filter (·.kind ≠ .eof) ++
        (L.tokens (s.drop 4)).map (·.behind (s.take 4)) := by
  intro L s
  have hL : L.Regular := ⟨by decide, by decide⟩
  let point : Lexeme := ⟨.operator, ['.']⟩
  let before : List Lexeme :=
    [⟨.identifier, ['a']⟩, ⟨.newline, ['\n']⟩, ⟨.ws, [' ']⟩, ⟨.number, ['1']⟩]
  have hlexemes : L.lexemes s = before ++ point :: L.lexemes ['x', '\n', '/', '*'] := by
    have hread : ∀ (k : TokenKind) (c : Char) (y : List Char), L.next c y = (k, []) →
        L.lexemes (c :: y) = ⟨k, [c]⟩ :: L.lexemes y :=
      fun k c y h => Reads.lexemes_append (l := ⟨k, [c]⟩) ⟨c, [], rfl, h⟩
    rw [hread .identifier _ _ (by decide), hread .newline _ _ (by decide),
      hread .ws _ _ (by decide), hread .number _ _ (by decide), hread .operator _ _ (by decide)]
    rfl
  have hcut : L.IsBoundary s 4 := ⟨_, behind_mem_tokens hlexemes, rfl⟩
  exact ⟨hL, hcut, tokens_cut hL hcut⟩

end Lexis

end SmartEnter
