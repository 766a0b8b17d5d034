/-
# Enter between tokens

If the caret is inside no token, the line break that Enter puts in stands between two lexemes of the
text.  What it puts in is layout, unless a comment is split, and layout between two lexemes does not
count; so the program stays what it is (`reading_apply_of_between_tokens`).

The program is what is left of the tokens if layout is taken away, with their kinds and texts and in
their order (`Lexis.reading`).  Their places are not part of it, since those behind the caret move.
What is needed of the press is only that it puts in a line feed and blanks at the caret; where the
indent comes from does not matter.

Two carets between tokens are left out.  Behind a carriage return the line feed would belong to a
break of two characters, and at the end of a block comment that was not closed it would belong to
the comment.
-/
import SmartEnter.Proofs.Enter.Press
import SmartEnter.Proofs.Language.Builtin
import SmartEnter.Proofs.Token.Layout

namespace SmartEnter.Enter

open Lexeme (spell)
open Text (isBlank)

/-- **Enter between tokens keeps the program.**  The tokens that are no layout have the same kinds
and texts, in the same order, after a press that puts in a line feed and blanks. -/
theorem reading_apply_of_between_tokens [Text.Memory] {language : Language}
    (hl : language ∈ Language.builtin)
    {formatters : Formatters} {options : Indent.Options} {e : Editor} {n : Nat}
    (hcaret : e.caret = n) (hpos : 1 ≤ n) (hle : n ≤ e.document.text.length)
    (hout : ∀ t ∈ language.tokens e.document.text, ¬(t.start.offset < n ∧ n < t.stop.offset))
    (hcr : e.document.text[n - 1]? ≠ some '\r')
    (hclosed : ∀ t ∈ language.tokens e.document.text, t.kind = .blockComment →
      t.stop.offset = n → language.lexis.Closes t.text)
    {r : Result} (hr : press language formatters options (some e) = .ok r)
    {indent : List Char} (hblank : ∀ c ∈ indent, isBlank c = true)
    (hi : r.insertion.map Insertion.text = some ('\n' :: indent)) :
    language.lexis.reading [.ws, .newline, .eof] (r.apply e.document).text =
      language.lexis.reading [.ws, .newline, .eof] e.document.text := by
  have hL := (Language.lawful_of_mem_builtin hl).short.toRegular
  obtain ⟨A, l, B, hs, hn⟩ := language.lexis.exists_boundary hpos hle hout
  rw [List.append_cons] at hs
  have htext : e.document.text = spell (A ++ [l]) ++ spell B := (Lexis.lexemes_eq_append hs).1
  -- the press puts its text in between the two parts
  obtain ⟨decision, hd, rfl⟩ := press_eq_ok_iff.1 hr
  obtain ⟨i, hins, hitext⟩ := Option.map_eq_some_iff.1 hi
  have hinserted := (Decision.inserted_of_insertion hins).1
  have happly := Decision.apply_text hinserted hcaret hle
  rw [hitext, htext, ← hn, List.take_left, List.drop_left] at happly
  rw [happly, List.append_assoc, List.cons_append]
  refine Lexis.reading_insert_break hL (by decide) (by decide) (by decide) hs hblank ?_ ?_
  · have hlast : (spell (A ++ [l]) ++ spell B)[n - 1]? = (spell (A ++ [l]))[n - 1]? :=
      List.getElem?_append_left (by omega)
    rw [← htext] at hlast
    rw [List.getLast?_eq_getElem?, hn, ← hlast]
    exact hcr
  · intro A₁ m hA hk _
    have hm : m.behind A₁ ∈ language.tokens e.document.text :=
      Lexis.behind_mem_tokens (B := B) (by rw [hs, hA, ← List.append_cons])
    refine hclosed _ hm hk ?_
    rw [Lexeme.stop_behind, ← hn, hA]

/-- Behind the brace of a block, the line break and the deeper indent stand between tokens. -/
theorem reading_apply_behind_brace :
    let _ := Text.Memory.kilobyte
    press .c [] {} (some ⟨⟨['{', '/', '/', 'x'], true⟩, 1, { languages := ["c"] }⟩) =
        .ok ⟨.stop, some ⟨1, ['\n', ' ', ' ', ' ', ' ']⟩, none⟩ ∧
      Language.c.lexis.reading [.ws, .newline, .eof]
          ((⟨.stop, some ⟨1, ['\n', ' ', ' ', ' ', ' ']⟩, none⟩ : Result).apply
            ⟨['{', '/', '/', 'x'], true⟩).text =
        Language.c.lexis.reading [.ws, .newline, .eof] ['{', '/', '/', 'x'] := by
  intro _
  have hlexemes : Language.c.lexis.lexemes ['{', '/', '/', 'x'] =
      [⟨.lbrace, ['{']⟩, ⟨.lineComment, ['/', '/', 'x']⟩] := by cbv
  have hr : press .c [] {} (some ⟨⟨['{', '/', '/', 'x'], true⟩, 1, { languages := ["c"] }⟩) =
      .ok ⟨.stop, some ⟨1, ['\n', ' ', ' ', ' ', ' ']⟩, none⟩ := by
    refine press_eq_ok_iff.2 ⟨.deepen .lbrace [' ', ' ', ' ', ' '], ?_, rfl⟩
    rw [Decision.of, Site.of, Language.tokens, Lexis.tokens, hlexemes]
    decide
  have hkind : ∀ t ∈ Language.c.tokens ['{', '/', '/', 'x'], t.kind ≠ .blockComment := by
    rw [Language.tokens, Lexis.tokens, hlexemes]
    decide
  have hblank : ∀ c ∈ [' ', ' ', ' ', ' '], isBlank c = true := by simp [isBlank]
  refine ⟨hr, reading_apply_of_between_tokens (by decide) rfl (by decide) (by decide) ?_ (by decide)
    ?_ hr hblank rfl⟩
  · rw [Language.tokens, Lexis.tokens, hlexemes]
    decide
  · exact fun t ht hk _ => absurd hk (hkind t ht)

end SmartEnter.Enter
