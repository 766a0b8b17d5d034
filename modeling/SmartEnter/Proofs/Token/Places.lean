/-
# The places of tokens, looked up in the document

A place has a line and a column besides its offset.  The lexer gets them by counting: every
character it passes moves the counters, on whatever way it is read.  A document gets them from its
index: the line is that of the offset, and the column is how far the offset lies behind the start of
the line.

The two agree.  A place that a document would give (`Position.IsPlaceOf`) is followed by another one
(`IsPlaceOf.step`), and so the places are right behind any text that is passed
(`IsPlaceOf.advance`), however many lines it has.

Main statement: `read_places`.
-/
import SmartEnter.Proofs.Document.Lookup
import SmartEnter.Proofs.Token.Cursor

namespace SmartEnter

open Lexeme (spell)

/-! ## 1. Places of a document

The line of an offset is found in the index of the document; the number of line feeds before the
offset is the same number, and this is what the counters of the lexer come to. -/

namespace Position

/-- The place is the one that the document gives for its offset, with line and column counted from
one. -/
structure IsPlaceOf (p : Position) (d : Document) : Prop where
  offset_le : p.offset ≤ d.text.length
  line : (p.line : Int) - 1 = d.lineNumber p.offset
  column : ∃ start, d.lineStart (d.lineNumber p.offset) = .ok start ∧
    (p.column : Int) - 1 = p.offset - start

variable {d : Document} {p q : Position} {a b r t : List Char} {c : Char}

/-- A document gives one place for an offset, so two places that it gives for the same offset are
equal. -/
theorem IsPlaceOf.eq (hp : p.IsPlaceOf d) (hq : q.IsPlaceOf d) (h : p.offset = q.offset) :
    p = q := by
  obtain ⟨-, hline, start, hstart, hcolumn⟩ := hp
  obtain ⟨-, hline', start', hstart', hcolumn'⟩ := hq
  rw [h] at hline hstart hcolumn
  rw [hstart] at hstart'
  cases hstart'
  cases p
  cases q
  simp only [mk.injEq] at *
  omega

/-- The place of an offset, read off the text before it: lines are counted by line feeds, and the
column by what stands behind the last of them. -/
theorem isPlaceOf_mk (h : d.text = a ++ b ++ r) (ha : StartsLine a) (hb : '\n' ∉ b) :
    IsPlaceOf ⟨a.count '\n' + 1, b.length + 1, (a ++ b).length⟩ d := by
  have hline := Document.lineNumber_eq h hb
  have hle := Document.length_le h
  have hstart := Document.lineStart_natCast (Document.lineNumber_lt_lineCount hle)
  rw [hline, Document.startOf_eq (h.trans (List.append_assoc a b r)) ha] at hstart
  refine ⟨hle, ?_, a.length, ?_, ?_⟩
  · rw [hline]
    simp
  · rw [hline]
    exact hstart
  · simp only [List.length_append]
    omega

theorem IsPlaceOf.eq_mk (hp : p.IsPlaceOf d) (h : d.text = a ++ b ++ r) (ha : StartsLine a)
    (hb : '\n' ∉ b) (ho : p.offset = (a ++ b).length) :
    p = ⟨a.count '\n' + 1, b.length + 1, (a ++ b).length⟩ :=
  hp.eq (isPlaceOf_mk h ha hb) ho

theorem isPlaceOf_start (d : Document) : start.IsPlaceOf d :=
  isPlaceOf_mk (a := []) (b := []) (r := d.text) rfl (.inl rfl) List.not_mem_nil

/-- **A character moves a place to the next one**: to the next column, or behind a line feed to the
first column of the next line. -/
theorem IsPlaceOf.step (hp : p.IsPlaceOf d) (hc : d.text[p.offset]? = some c) :
    (p.step c).IsPlaceOf d := by
  obtain ⟨a, b, r, ht, ho, ha, hb⟩ := Document.exists_line hp.offset_le
  obtain rfl := hp.eq_mk ht ha hb ho
  obtain ⟨r, rfl⟩ : ∃ r', r = c :: r' := by
    rw [ht, List.getElem?_append_right (Nat.le_refl _), Nat.sub_self,
      ← List.head?_eq_getElem?] at hc
    exact List.head?_eq_some_iff.1 hc
  unfold Position.step
  by_cases hn : c = '\n'
  · subst hn
    have hnext := isPlaceOf_mk (d := d) (a := a ++ b ++ ['\n']) (b := []) (r := r) (by simp [ht])
      (startsLine_append_newline _) List.not_mem_nil
    simpa [List.count_eq_zero.2 hb, Nat.add_assoc] using hnext
  · have hnext := isPlaceOf_mk (d := d) (a := a) (b := b ++ [c]) (r := r) (by simp [ht]) ha
      (by simp [hb, Ne.symm hn])
    simpa [hn, Nat.add_assoc] using hnext

/-- Behind a text that is passed stands a place of the document.  By induction over the characters
that are passed. -/
theorem IsPlaceOf.advance (hp : p.IsPlaceOf d) (ht : t <+: d.text.drop p.offset) :
    (p.advance t).IsPlaceOf d := by
  induction t generalizing p with
  | nil => exact hp
  | cons c t ih =>
    obtain ⟨r, hr⟩ := ht
    have hc : d.text[p.offset]? = some c := by
      rw [← List.head?_drop, ← hr]
      rfl
    refine ih (hp.step hc) ⟨r, ?_⟩
    rw [offset_step, ← List.tail_drop, ← hr]
    rfl

end Position

/-! ## 2. Places of tokens

Every token starts and stops behind a first part of the text, which the lexer has passed by then. -/

namespace Cursor

variable {L : Lexis} {d : Document}

/-- **Tokens stand where the document says.**  If the lexer is not given a comment that opens and
closes with nothing, then it reads every text to the end, and each token, the end mark among them,
starts and stops at the line and the column that the document has for the offset. -/
theorem read_places (hL : L.blockComment ≠ some ([], [])) (d : Document) :
    (∀ n, d.text.length < n → read n L d.text = pure (L.tokens d.text)) ∧
      ∀ t ∈ L.tokens d.text, t.start.IsPlaceOf d ∧ t.stop.IsPlaceOf d := by
  refine ⟨fun _ hn => read_eq_tokens hL hn, ?_⟩
  intro t ht
  rcases Lexis.mem_tokens_iff.1 ht with ⟨A, l, B, hs, rfl⟩ | rfl
  · have hspell : d.text = spell A ++ (l.text ++ spell B) := Lexis.text_eq_of_lexemes hs
    have hstart : (l.behind A).start.IsPlaceOf d := by
      refine (Position.isPlaceOf_start d).advance ?_
      rw [hspell]
      exact List.prefix_append _ _
    refine ⟨hstart, hstart.advance ?_⟩
    rw [Lexeme.start_behind, hspell, List.drop_left]
    exact List.prefix_append _ _
  · have hend := (Position.isPlaceOf_start d).advance (List.prefix_refl d.text)
    exact ⟨hend, hend⟩

/-- A comment takes a break with a return, and what follows it stands on the second line. -/
theorem read_places_behind_comment :
    let L : Lexis := {}
    let d : Document := { text := ['a', '/', '*', '\r', '\n', ' ', '*', '/', '\n', 'b'] }
    L.blockComment ≠ some ([], []) ∧ read 11 L d.text = pure (L.tokens d.text) ∧
      ∀ t ∈ L.tokens d.text, t.start.IsPlaceOf d ∧ t.stop.IsPlaceOf d := by
  intro L d
  have hL : L.blockComment ≠ some ([], []) := by decide
  obtain ⟨hread, hplaces⟩ := read_places hL d
  exact ⟨hL, hread 11 (by decide), hplaces⟩

end Cursor

end SmartEnter
