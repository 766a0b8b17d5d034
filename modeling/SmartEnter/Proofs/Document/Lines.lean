/-
# The lines of a document, read off its text

A document looks its lines up in a table of offsets.  Here the same is said of the text alone.  A
line starts behind a text that is empty or ends with a line feed (`StartsLine`); if the text of the
document is `a ++ r` and a line starts behind `a`, then

* the line has as many lines above it as `a` has line feeds;
* it starts at the length of `a` (`startOf_eq`);
* it holds what `r` has before the next break (`endOf_eq`, `contentOf_eq`).

Every offset lies on such a line (`exists_line`), and every line number below the number of lines is
that of such a line (`exists_startsLine`).

With this, lines are a matter of splitting the text, and a statement about a line is proved by
naming the text before it and the text from it on.  The table of offsets is opened in two places
only: where it is appended to, and where its entry for a line is found (`getElem?_lineStarts`).

The carriage return of a break makes the end of a line a little harder than its start.  Whether it
belongs to the break depends on whether it is on the line, and it is, unless the line starts right
behind it; the break that is read off the text comes to the same in all cases (`endOf_eq`).
-/
import SmartEnter.Document
import SmartEnter.Proofs.Token.Break

namespace SmartEnter

open Text (isBreak Unbroken)
open Lexis (untilBreak untilBreak_append untilBreak_eq_nil_iff)

/-! ## 1. Where lines start in a text

A first part of the text, up to the start of a line, stands for that line. -/

/-- A line starts behind the text: the text is empty, or its last character is a line feed.  With
what follows, such a text is a way to name a line without counting. -/
def StartsLine (a : List Char) : Prop := a = [] ∨ a.getLast? = some '\n'

theorem startsLine_append_newline (a : List Char) : StartsLine (a ++ ['\n']) :=
  .inr List.getLast?_concat

theorem StartsLine.cons {a : List Char} (h : StartsLine a) (hne : a ≠ []) (c : Char) :
    StartsLine (c :: a) := by
  cases a with
  | nil => exact absurd rfl hne
  | cons d a => exact .inr (by rw [List.getLast?_cons_cons]; exact h.resolve_left hne)

theorem StartsLine.tail {c : Char} {a : List Char} (h : StartsLine (c :: a)) : StartsLine a := by
  cases a with
  | nil => exact .inl rfl
  | cons d a =>
    refine .inr ?_
    rw [← List.getLast?_cons_cons (a := c)]
    exact h.resolve_left (List.cons_ne_nil c _)

/-- Every text is made up of whole lines and the start of a further one.  The induction is on the
text, from the front. -/
theorem exists_startsLine_append (p : List Char) :
    ∃ a b, p = a ++ b ∧ StartsLine a ∧ '\n' ∉ b := by
  induction p with
  | nil => exact ⟨[], [], rfl, .inl rfl, List.not_mem_nil⟩
  | cons c p ih =>
    obtain ⟨a, b, rfl, ha, hb⟩ := ih
    by_cases hne : a = []
    · subst hne
      by_cases hc : c = '\n'
      · subst hc
        exact ⟨['\n'], b, rfl, .inr rfl, hb⟩
      · exact ⟨[], c :: b, rfl, .inl rfl, by simp [hb, Ne.symm hc]⟩
    · exact ⟨c :: a, b, rfl, ha.cons hne c, hb⟩

/-- There is a line behind each number of line feeds that a text has. -/
theorem exists_startsLine {s : List Char} {n : Nat} (h : n ≤ s.count '\n') :
    ∃ a r, s = a ++ r ∧ StartsLine a ∧ a.count '\n' = n := by
  induction s generalizing n with
  | nil =>
    obtain rfl : n = 0 := by simpa using h
    exact ⟨[], [], rfl, .inl rfl, rfl⟩
  | cons c s ih =>
    cases n with
    | zero => exact ⟨[], c :: s, rfl, .inl rfl, rfl⟩
    | succ n =>
      by_cases hc : c = '\n'
      · subst hc
        obtain ⟨a, r, rfl, ha, hn⟩ := ih (n := n) (by simpa using h)
        refine ⟨'\n' :: a, r, rfl, ?_, by simp [hn]⟩
        rcases ha with rfl | ha
        · exact .inr rfl
        · exact StartsLine.cons (.inr ha) (by rintro rfl; cases ha) _
      · obtain ⟨a, r, rfl, ha, hn⟩ := ih (n := n + 1) (by simpa [hc] using h)
        have hne : a ≠ [] := by
          rintro rfl
          cases hn
        exact ⟨c :: a, r, rfl, ha.cons hne c, by simpa [hc] using hn⟩

theorem breaksFrom_append (n : Nat) (s t : List Char) :
    breaksFrom n (s ++ t) = breaksFrom n s ++ breaksFrom (n + s.length) t := by
  induction s generalizing n with
  | nil => rfl
  | cons c s ih =>
    rw [List.cons_append, breaksFrom, breaksFrom, ih, List.length_cons,
      show n + 1 + s.length = n + (s.length + 1) by omega]
    split <;> rfl

theorem length_breaksFrom (n : Nat) (s : List Char) : (breaksFrom n s).length = s.count '\n' := by
  induction s generalizing n with
  | nil => rfl
  | cons c s ih =>
    rw [breaksFrom]
    split
    · next hc => rw [hc, List.count_cons_self, List.length_cons, ih]
    · next hc => rw [List.count_cons_of_ne hc, ih]

/-! ## 2. The line behind a text

What the look-ups of the document find for the line behind the part `a` of its text. -/

namespace Document

variable {d : Document} {a b p r : List Char}

theorem length_le (h : d.text = p ++ r) : p.length ≤ d.text.length := by
  rw [h]
  exact (List.prefix_append p r).length_le

/-- The table of lines has the line at its number, which is the number of line feeds before it. -/
theorem getElem?_lineStarts (h : d.text = a ++ r) (ha : StartsLine a) :
    d.lineStarts[a.count '\n']? = some a.length := by
  rcases ha with rfl | ha
  · rfl
  · obtain ⟨a, rfl⟩ := List.getLast?_eq_some_iff.1 ha
    have hcount : (breaksFrom 0 a).length = a.count '\n' := length_breaksFrom 0 a
    rw [lineStarts, h, List.count_append, List.count_singleton_self, List.getElem?_cons_succ,
      List.append_assoc, breaksFrom_append, List.getElem?_append_right (by omega), hcount,
      Nat.sub_self, List.singleton_append, breaksFrom, if_pos rfl, List.length_append]
    simp

theorem startOf_eq (h : d.text = a ++ r) (ha : StartsLine a) :
    d.startOf (a.count '\n') = a.length := by
  rw [startOf, List.getD_eq_getElem?_getD, getElem?_lineStarts h ha, Option.getD_some]

theorem startOf_le (d : Document) (n : Nat) : d.startOf n ≤ d.text.length := by
  by_cases h : n < d.lineCount
  · rw [lineCount_eq_count] at h
    obtain ⟨a, r, ht, ha, rfl⟩ := exists_startsLine (Nat.le_of_lt_succ h)
    rw [startOf_eq ht ha, ht, List.length_append]
    exact Nat.le_add_right _ _
  · rw [startOf, List.getD_eq_getElem?_getD, List.getElem?_eq_none (Nat.not_lt.1 h)]
    exact Nat.le_refl _

/-- The line ends at the first break behind its start, or at the end of the text if there is no
break. -/
theorem endOf_eq (h : d.text = a ++ r) (ha : StartsLine a) :
    d.endOf (a.count '\n') = a.length + (untilBreak r).length := by
  by_cases hn : '\n' ∈ r
  · obtain ⟨x, z, rfl, hx⟩ := List.eq_append_cons_of_mem hn
    -- the next line starts behind the first line feed of `r`
    have hnext : d.lineStarts[a.count '\n' + 1]? = some (a.length + x.length + 1) := by
      have hcount : (a ++ x ++ ['\n']).count '\n' = a.count '\n' + 1 := by
        rw [List.count_append, List.count_append, List.count_eq_zero.2 hx]
        rfl
      have := getElem?_lineStarts (d := d) (r := z) (by rw [h]; simp)
        (startsLine_append_newline (a ++ x))
      rwa [hcount, List.length_append, List.length_append] at this
    rw [endOf, hnext]
    dsimp only
    rw [startOf_eq h ha]
    rcases List.eq_nil_or_concat x with rfl | ⟨x, e, rfl⟩
    · rw [if_neg (by simp), List.nil_append, untilBreak_eq_nil_iff.2 (.inr rfl)]
      rfl
    · rw [List.concat_eq_append] at h hx hnext ⊢
      have he : d.text[a.length + (x ++ [e]).length + 1 - 2]? = some e := by
        rw [h, List.length_append, List.length_singleton,
          show a.length + (x.length + 1) + 1 - 2 = a.length + x.length by omega,
          List.getElem?_append_right (by omega), Nat.add_sub_cancel_left]
        simp
      rw [he, List.length_append, List.length_singleton]
      by_cases hcr : e = '\r'
      · subst hcr
        have hx' : Unbroken x ('\r' :: '\n' :: z) :=
          ⟨fun hm => hx (List.mem_append_left _ hm), fun _ => by simp⟩
        rw [if_pos ⟨by omega, rfl⟩, List.append_assoc, List.singleton_append,
          untilBreak_append hx', untilBreak_eq_nil_iff.2 (.inr rfl), List.append_nil]
        omega
      · have hx' : Unbroken (x ++ [e]) ('\n' :: z) := ⟨hx, fun hl => by simp_all⟩
        rw [if_neg (fun hc => hcr (Option.some.inj hc.2)), untilBreak_append hx',
          untilBreak_eq_nil_iff.2 (.inr rfl), List.append_nil, List.length_append,
          List.length_singleton]
        omega
  · have hnone : d.lineStarts[a.count '\n' + 1]? = none := by
      rw [List.getElem?_eq_none_iff]
      have := d.lineCount_eq_count
      rw [lineCount, h, List.count_append, List.count_eq_zero.2 hn] at this
      omega
    have hu := untilBreak_append (t := r) (y := []) ⟨hn, by rintro - ⟨⟩⟩
    rw [List.append_nil, Lexis.untilBreak, List.append_nil] at hu
    rw [endOf, hnone, hu, h, List.length_append]

/-- The line holds what stands before the first break behind its start. -/
theorem contentOf_eq (h : d.text = a ++ r) (ha : StartsLine a) :
    d.contentOf (a.count '\n') = untilBreak r := by
  have hp : r.take (untilBreak r).length = untilBreak r :=
    List.prefix_iff_eq_take.1 (Lexis.untilBreak_isPrefix r) |>.symm
  rw [contentOf, endOf_eq h ha, startOf_eq h ha, h, List.take_length_add_append, List.drop_left, hp]

/-- A line is as long as its contents: nothing lies between where it starts and where it ends but
these. -/
theorem startOf_add_length_contentOf {n : Nat} (hn : n < d.lineCount) :
    d.startOf n + (d.contentOf n).length = d.endOf n := by
  rw [lineCount_eq_count] at hn
  obtain ⟨a, r, ht, ha, rfl⟩ := exists_startsLine (Nat.le_of_lt_succ hn)
  rw [startOf_eq ht ha, contentOf_eq ht ha, endOf_eq ht ha]

/-! ## 3. The line of an offset

An offset splits the text in three: the lines before its own, what its line has before it, and the
rest.  Everything that is asked about the line of an offset is read off this splitting. -/

/-- Behind a text without line feeds the number of the line is still the same. -/
theorem lineNumber_eq (h : d.text = a ++ b ++ r) (hb : '\n' ∉ b) :
    d.lineNumber ((a ++ b).length : Nat) = a.count '\n' := by
  rw [lineNumber_eq_count (length_le h), h, List.take_left, List.count_append,
    List.count_eq_zero.2 hb,
    Nat.add_zero]

/-- **The line of an offset**, with the text before the line, the part of the line before the
offset, and the text behind the offset. -/
theorem exists_line {n : Nat} (h : n ≤ d.text.length) :
    ∃ a b r, d.text = a ++ b ++ r ∧ n = (a ++ b).length ∧ StartsLine a ∧ '\n' ∉ b := by
  obtain ⟨a, b, hab, ha, hb⟩ := exists_startsLine_append (d.text.take n)
  refine ⟨a, b, d.text.drop n, ?_, ?_, ha, hb⟩
  · rw [← hab, List.take_append_drop]
  · rw [← hab, List.length_take, Nat.min_eq_left h]

/-- A line ends where it breaks next, seen from a place on it, as long as the place is not between
the two characters of a break. -/
theorem endOf_lineNumber (h : d.text = p ++ r)
    (hj : p.getLast? = some '\r' → r.head? ≠ some '\n') :
    d.endOf (d.lineNumber (p.length : Nat)) = p.length + (untilBreak r).length := by
  obtain ⟨a, b, rfl, ha, hb⟩ := exists_startsLine_append p
  have hu : Unbroken b r := by
    refine ⟨hb, fun hl => hj ?_⟩
    rw [List.getLast?_append, hl]
    rfl
  rw [lineNumber_eq h hb, endOf_eq (by rw [h, List.append_assoc]) ha, untilBreak_append hu,
    List.length_append, List.length_append, Nat.add_assoc]

/-- What a line has behind a place on it: all before the next break. -/
theorem slice_endOf {n : Nat} (h : n ≤ d.text.length) :
    Text.slice d.text n (d.endOf (d.lineNumber n)) = untilBreak (d.text.drop n) := by
  obtain ⟨a, b, r, ht, rfl, ha, hb⟩ := exists_line h
  have hend := endOf_eq (ht.trans (List.append_assoc a b r)) ha
  have hle : (untilBreak (b ++ r)).length ≤ (b ++ r).length :=
    (Lexis.untilBreak_isPrefix (b ++ r)).length_le
  have htake : (b ++ r).take (untilBreak (b ++ r)).length = untilBreak (b ++ r) :=
    (List.prefix_iff_eq_take.1 (Lexis.untilBreak_isPrefix (b ++ r))).symm
  have hlen : d.text.length = a.length + (b ++ r).length := by
    rw [ht, List.append_assoc, List.length_append]
  rw [lineNumber_eq ht hb, hend, Text.slice, Text.bound_natCast h,
    Text.bound_natCast (by rw [hlen]; omega), ht, List.drop_left, List.append_assoc,
    List.take_length_add_append, htake, List.length_append, List.drop_length_add_append,
    Lexis.drop_untilBreak hb]

theorem slice_startOf (h : d.text = a ++ b ++ r) (ha : StartsLine a) (hb : '\n' ∉ b) :
    Text.slice d.text (d.startOf (d.lineNumber ((a ++ b).length : Nat))) ((a ++ b).length : Nat)
      = b := by
  have hlen : d.text.length = a.length + b.length + r.length := by
    rw [h, List.length_append, List.length_append]
  rw [lineNumber_eq h hb, startOf_eq (h.trans (List.append_assoc a b r)) ha, Text.slice,
    Text.bound_natCast (length_le h), Text.bound_natCast (by omega), h, List.take_left,
    List.drop_left]

/-- Behind a first part of the text, as many lines lie above as the part has line feeds. -/
theorem lineNumber_length (h : d.text = p ++ r) :
    d.lineNumber (p.length : Nat) = p.count '\n' := by
  rw [lineNumber_eq_count (length_le h), h, List.take_left]

theorem lineNumber_mono {m n : Nat} (hmn : m ≤ n) (hn : n ≤ d.text.length) :
    d.lineNumber m ≤ d.lineNumber n := by
  rw [lineNumber_eq_count (Nat.le_trans hmn hn), lineNumber_eq_count hn]
  exact (List.take_sublist_take_left hmn).count_le '\n'

theorem lineNumber_lt_lineCount {n : Nat} (h : n ≤ d.text.length) :
    d.lineNumber n < d.lineCount := by
  rw [lineNumber_eq_count h, lineCount_eq_count]
  exact Nat.lt_succ_of_le ((List.take_sublist n d.text).count_le '\n')

/-- A line starts at or before an offset exactly if it is the line of the offset or one above.  So
offsets and lines are in the same order. -/
theorem startOf_le_iff {n m : Nat} (hn : n < d.lineCount) (hm : m ≤ d.text.length) :
    d.startOf n ≤ m ↔ n ≤ d.lineNumber m := by
  rw [lineCount_eq_count] at hn
  obtain ⟨a, r, ht, ha, rfl⟩ := exists_startsLine (Nat.le_of_lt_succ hn)
  rw [startOf_eq ht ha, lineNumber_eq_count hm, ht]
  constructor
  · intro h
    obtain ⟨k, rfl⟩ := Nat.exists_eq_add_of_le h
    rw [List.take_length_add_append, List.count_append]
    omega
  · intro h
    rcases ha with rfl | ha
    · exact Nat.zero_le m
    · obtain ⟨a, rfl⟩ := List.getLast?_eq_some_iff.1 ha
      rw [← Nat.not_lt]
      intro hlt
      -- the line feed that ends the lines before would be missing
      rw [List.length_append, List.length_singleton] at hlt
      rw [List.append_assoc, List.take_append_of_le_length (by omega), List.count_append] at h
      have := (List.take_sublist m a).count_le '\n'
      rw [List.count_singleton_self] at h
      omega

theorem lineNumber_endOf {n : Nat} (hn : n < d.lineCount) : d.lineNumber (d.endOf n) = n := by
  rw [lineCount_eq_count] at hn
  obtain ⟨a, r, ht, ha, rfl⟩ := exists_startsLine (Nat.le_of_lt_succ hn)
  obtain ⟨z, hz⟩ := Lexis.untilBreak_isPrefix r
  have hline := lineNumber_eq (d := d) (a := a) (b := untilBreak r) (r := z)
    (by rw [ht, List.append_assoc, hz]) (Lexis.not_mem_untilBreak r)
  rwa [List.length_append, ← endOf_eq ht ha] at hline

end Document

end SmartEnter
