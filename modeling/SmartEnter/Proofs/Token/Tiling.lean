/-
# Tokens tile the text

The tokens of a text cover it without gaps and without overlaps: the first one starts where the text
does, each starts where the one before it stops, and each has the text between its places.  Only the
last one is an end mark, and only the last one is empty (`Tiles`).  So tokens start at different
offsets, in ascending order, and their texts make up the text.

All of this is true of lexemes that are placed one behind the other, by induction over them.  The
main statement adds that such tokens are what a reader with a cursor leaves, which comes to its end
on every text, without a fault (`read_tiles`).
-/
import SmartEnter.Proofs.Token.Cursor
import SmartEnter.Proofs.Token.Outline
import SmartEnter.Text.Slice
import Mathlib.Data.List.Chain

namespace SmartEnter

open Lexeme (spell)

/-- The tokens cover a text from its start to its end, without gaps and without overlaps, and the
end mark is the only one of them that is empty. -/
structure Tiles (s : List Char) (tokens : List Token) : Prop where
  /-- The first token starts where the text does. -/
  starts : tokens.head?.map (·.start.offset) = some 0
  /-- Each token starts where the one before it stops. -/
  joined : tokens.IsChain fun t u => u.start.offset = t.stop.offset
  /-- Each token has the text between its places. -/
  text_eq : ∀ t ∈ tokens, t.text = Text.slice s t.start.offset t.stop.offset
  /-- The last token, and only the last one, is an empty end mark, which stands at the end. -/
  ends : ∃ body mark, tokens = body ++ [mark] ∧ (∀ t ∈ body, t.kind ≠ .eof ∧ t.text ≠ []) ∧
    mark.kind = .eof ∧ mark.text = [] ∧ mark.start.offset = s.length ∧ mark.stop.offset = s.length

namespace Lexis

variable {L : Lexis} {s : List Char} {p : Position} {ls : List Lexeme}

/-! ## 1. Placed lexemes

What is true of lexemes that are placed from any place on, by induction over them. -/

theorem head?_place (p : Position) (ls : List Lexeme) :
    (place p ls).head?.map (·.start) = some p := by
  cases ls <;> rfl

theorem isChain_place (p : Position) (ls : List Lexeme) :
    (place p ls).IsChain fun t u => u.start.offset = t.stop.offset := by
  induction ls generalizing p with
  | nil => exact .singleton _
  | cons l ls ih =>
    refine List.isChain_cons.2 ⟨?_, ih _⟩
    intro t ht
    have hstart := head?_place (p.advance l.text) ls
    rw [Option.mem_def.1 ht] at hstart
    exact congrArg Position.offset (Option.some.inj hstart)

/-- Placed lexemes that are not empty start one behind the other. -/
theorem pairwise_place (h : ∀ l ∈ ls, l.text ≠ []) (p : Position) :
    (place p ls).Pairwise fun t u => t.start.offset < u.start.offset := by
  induction ls generalizing p with
  | nil => exact List.pairwise_singleton _ _
  | cons l ls ih =>
    refine List.pairwise_cons.2 ⟨?_, ih (fun m hm => h m (List.mem_cons_of_mem _ hm)) _⟩
    intro t ht
    have hle := le_start_of_mem_place ht
    have hpos := List.length_pos_iff.2 (h l List.mem_cons_self)
    rw [Position.offset_advance] at hle
    show p.offset < t.start.offset
    omega

theorem Reads.kind_ne_eof {l : Lexeme} {y : List Char} (h : L.Reads l y) : l.kind ≠ .eof := by
  obtain ⟨c, rest, t, -, -, hbranch⟩ := reads_iff_branch.1 h
  generalize l.kind = kind at hbranch
  cases hbranch with
  | delimiter _ _ hd =>
    rintro rfl
    exact kind_of_delimiter hd (by decide)
  | _ => exact TokenKind.noConfusion

/-! ## 2. The tokens of a text

The tokens of a text are its lexemes, placed from the start on, and the end mark behind them. -/

theorem text_eq_slice {t : Token} (h : t ∈ L.tokens s) :
    t.text = Text.slice s t.start.offset t.stop.offset := by
  rcases mem_tokens_iff.1 h with ⟨A, l, B, hs, rfl⟩ | rfl
  · have hcut : s = spell A ++ l.text ++ spell B := by
      rw [(lexemes_eq_append hs).1, Lexeme.spell_cons, List.append_assoc]
    have hstop : (spell (A ++ [l])).length = (spell A ++ l.text).length := by
      rw [Lexeme.spell_concat]
    have hle : (spell A ++ l.text).length ≤ s.length := by
      rw [hcut]
      exact (List.prefix_append _ _).length_le
    rw [Lexeme.start_behind, Lexeme.stop_behind, hstop, Text.slice, Text.bound_natCast hle,
      Text.bound_natCast (by rw [List.length_append] at hle; omega), hcut, List.take_left,
      List.drop_left]
    rfl
  · have hend := Text.bound_natCast (Nat.le_refl s.length)
    rw [Text.slice, endMark, Position.offset_start_advance, hend, List.take_length,
      List.drop_length]

/-- **The tokens of a text tile it.**  Each field is a statement about placed lexemes, with the end
mark behind them. -/
theorem tiles_tokens (L : Lexis) (s : List Char) : Tiles s (L.tokens s) where
  starts := by
    have hstart := congrArg (Option.map Position.offset) (head?_place .start (L.lexemes s))
    rwa [Option.map_map] at hstart
  joined := isChain_place _ _
  text_eq _ := text_eq_slice
  ends := by
    refine ⟨placed .start (L.lexemes s), endMark s, L.tokens_eq s, ?_, rfl, rfl,
      Position.offset_start_advance s, Position.offset_start_advance s⟩
    intro t ht
    obtain ⟨A, l, B, hs, rfl⟩ := mem_placed_iff.1 ht
    have hreads := reads_of_lexemes hs
    exact ⟨hreads.kind_ne_eof, hreads.text_ne_nil⟩

/-- **Tokens start one behind the other**, the end mark last. -/
theorem pairwise_start_tokens (L : Lexis) (s : List Char) :
    (L.tokens s).Pairwise fun t u => t.start.offset < u.start.offset :=
  pairwise_place (fun _ hl => text_ne_nil_of_mem_lexemes hl) _

/-- **The texts of the tokens make up the text**, so it can be restored from them without their
places. -/
theorem flatMap_text_tokens (L : Lexis) (s : List Char) : (L.tokens s).flatMap Token.text = s := by
  have hplaced : (placed .start (L.lexemes s)).flatMap Token.text = spell (L.lexemes s) := by
    have hmap := map_lexeme_placed .start (L.lexemes s)
    conv_rhs => rw [← hmap, spell, List.flatMap_map]
    rfl
  rw [tokens_eq, List.flatMap_append, hplaced, spell_lexemes]
  exact List.append_nil s

end Lexis

namespace Cursor

/-- **Reading ends and loses nothing.**  If comments that may span lines have an opener or a closer,
a reader with a cursor comes to its end on every text, without a move past the end of it, and has
read the tokens of the text: one turn of each loop for each character, and one to stop, are enough.
The tokens tile the text, start one behind the other, and their texts make it up. -/
theorem read_tiles {L : Lexis} (hL : L.blockComment ≠ some ([], [])) (s : List Char) :
    (∀ n, s.length < n → read n L s = pure (L.tokens s)) ∧ Tiles s (L.tokens s) ∧
      ((L.tokens s).Pairwise fun t u => t.start.offset < u.start.offset) ∧
      (L.tokens s).flatMap Token.text = s :=
  ⟨fun _ hn => read_eq_tokens hL hn, L.tiles_tokens s, L.pairwise_start_tokens s,
    L.flatMap_text_tokens s⟩

/-- With an empty opener every piece of code is a comment up to the next closer. -/
theorem read_tiles_without_opener :
    let L : Lexis := ⟨[['#']], some ([], ['*', '/']), ['"']⟩
    let s := ['a', '*', '/', '\r', '\n', '#', 'b']
    L.blockComment ≠ some ([], []) ∧ read 8 L s = pure (L.tokens s) ∧ Tiles s (L.tokens s) ∧
      ((L.tokens s).Pairwise fun t u => t.start.offset < u.start.offset) ∧
      (L.tokens s).flatMap Token.text = s := by
  intro L s
  have hL : L.blockComment ≠ some ([], []) := by decide
  obtain ⟨hread, htiles⟩ := read_tiles hL s
  exact ⟨hL, hread 8 (by decide), htiles⟩

end Cursor

end SmartEnter
