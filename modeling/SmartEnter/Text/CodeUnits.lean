/-
# Code units

An editor client counts the columns of a line in code units, and how many units a character takes
is agreed on with the client.  The conversion is not the business of the library: it is done by a
codec that belongs to the protocol.  `Codec` says what the library relies on.

* A character takes some units, and a blank takes one.  So blanks can be counted in either way.
* A column that a line has is found by counting along the line (`charsWithin`); a break of two
  characters counts as one.
* A column that a line does not have is drawn back.  The library does not care where to, as long as
  it comes to lie before the column that was asked for.

What is proved about clients is proved for every codec.  The three encodings of the protocol are
codecs (`Encoding.codec`), and there a column beyond the line stands for the one right before the
last unit of the line.
-/
import SmartEnter.Text.Lines

namespace SmartEnter.Text

/-- The number of code units of a text, given how many each character takes.  It is additive, so the
width of a line can be put together from those of its parts. -/
def unitCount (units : Char → Nat) (s : List Char) : Nat := s.foldr (fun c n => units c + n) 0

/-- How many characters it takes to use up `n` units, or all of them if the text is shorter.  A
character that straddles the column counts as used up: a column inside a character stands for the
place behind it. -/
def charsWithin (units : Char → Nat) : Nat → List Char → Nat
  | 0, _ => 0
  | _, [] => 0
  | n + 1, c :: rest => charsWithin units (n + 1 - units c) rest + 1

/-- There are no more characters before a column than units, because no character takes none.  So a
column that is drawn back in units is drawn back in characters as well. -/
theorem charsWithin_le {units : Char → Nat} (hpos : ∀ c, 0 < units c) (n : Nat) (s : List Char) :
    charsWithin units n s ≤ n := by
  induction s generalizing n with
  | nil => cases n <;> exact Nat.zero_le _
  | cons c s ih =>
    cases n with
    | zero => exact Nat.zero_le _
    | succ n =>
      have hc := hpos c
      have hle := ih (n + 1 - units c)
      rw [charsWithin]
      omega

/-- A way to count the columns of a line, with what is relied on.  `units` and `position` are the
two questions that are ever asked of a codec, and the four laws are all that is known of the
answers; whatever a codec does with a column that the line does not have is left open but for
`position_lt`. -/
structure Codec where
  /-- The number of code units of a character. -/
  units (c : Char) : Nat
  /-- How many characters of a line, its break included, lie before a column given in units. -/
  position (line : List Char) (column : Nat) : Nat
  units_pos (c : Char) : 0 < units c
  units_blank (c : Char) (hc : isBlank c = true) : units c = 1
  /-- A column that the line has is found by counting, a break of two characters counting as one. -/
  position_of_le (line : List Char) (column : Nat)
    (h : column ≤ unitCount units (joinBreaks line)) :
    position line column = charsWithin units column (joinBreaks line)
  /-- A column that the line does not have is drawn back. -/
  position_lt (line : List Char) (column : Nat) (h : unitCount units (joinBreaks line) < column) :
    position line column < column

namespace Codec

variable (e : Codec)

def length (s : List Char) : Nat := unitCount e.units s

/-- How many characters of a text lie before a column, or all of them if the text is shorter. -/
def charsFor (n : Nat) (s : List Char) : Nat := charsWithin e.units n s

@[simp]
theorem length_nil : e.length [] = 0 := rfl

@[simp]
theorem length_cons (c : Char) (s : List Char) : e.length (c :: s) = e.units c + e.length s := rfl

@[simp]
theorem length_append (s t : List Char) : e.length (s ++ t) = e.length s + e.length t := by
  induction s with
  | nil => rw [List.nil_append, length_nil, Nat.zero_add]
  | cons c r ih => rw [List.cons_append, length_cons, length_cons, ih, Nat.add_assoc]

@[simp]
theorem charsFor_zero (s : List Char) : e.charsFor 0 s = 0 := by cases s <;> rfl

@[simp]
theorem charsFor_nil (n : Nat) : e.charsFor n [] = 0 := by cases n <;> rfl

theorem charsFor_succ_cons (n : Nat) (c : Char) (s : List Char) :
    e.charsFor (n + 1) (c :: s) = e.charsFor (n + 1 - e.units c) s + 1 := rfl

theorem charsFor_le (n : Nat) (s : List Char) : e.charsFor n s ≤ n := charsWithin_le e.units_pos n s

/-- A column that is the width of a first part of the text lies behind exactly that part. -/
theorem charsFor_length_append (s t : List Char) :
    e.charsFor (e.length s) (s ++ t) = s.length := by
  induction s with
  | nil => exact e.charsFor_zero t
  | cons c r ih =>
    have hc := e.units_pos c
    obtain ⟨n, hn⟩ : ∃ n, e.units c + e.length r = n + 1 :=
      ⟨_, (Nat.succ_pred (by omega)).symm⟩
    rw [length_cons, hn, List.cons_append, charsFor_succ_cons, List.length_cons,
      show n + 1 - e.units c = e.length r by omega, ih]

end Codec

/-! ## The encodings of the protocol

A client and the library agree on one of three encodings.  Each is a codec: the laws about units are
those of the encoding, and the laws about positions follow from the way a column beyond the line is
drawn back, which the three have in common. -/

/-- The encodings in which a client may count columns.  They differ in how wide a character is, and
agree that it is at least one unit. -/
inductive Encoding where
  | utf8
  | utf16
  | utf32
  deriving Repr, DecidableEq

namespace Encoding

def units : Encoding → Char → Nat
  | utf8, c => c.utf8Size
  | utf16, c => if c.toNat > 0xFFFF then 2 else 1
  | utf32, _ => 1

theorem units_pos (e : Encoding) (c : Char) : 0 < e.units c := by
  cases e with
  | utf8 => exact c.utf8Size_pos
  | utf16 => simp only [units]; split <;> omega
  | utf32 => simp [units]

theorem units_blank (e : Encoding) (c : Char) (hc : isBlank c = true) : e.units c = 1 := by
  simp only [isBlank, Bool.or_eq_true, decide_eq_true_eq] at hc
  rcases hc with rfl | rfl <;> cases e <;> rfl

/-- The characters of a line before a column.  A column beyond the line stands for the one right
before the last unit of the line, which is the unit of the break if the line has one; an empty line
has no column but the first. -/
def position (e : Encoding) (line : List Char) (column : Nat) : Nat :=
  let line := joinBreaks line
  let width := unitCount e.units line
  charsWithin e.units (if column > width then width - 1 else column) line

/-- An encoding as a codec.  A column that the line has is not drawn back, and one that it does not
have comes to lie at least one unit before the end of the line, so before itself. -/
def codec (e : Encoding) : Codec where
  units := e.units
  position := e.position
  units_pos := e.units_pos
  units_blank := e.units_blank
  position_of_le line column h := by
    unfold position
    dsimp only
    rw [if_neg (Nat.not_lt.2 h)]
  position_lt line column h := by
    have hle := charsWithin_le e.units_pos (unitCount e.units (joinBreaks line) - 1)
      (joinBreaks line)
    unfold position
    dsimp only
    rw [if_pos h]
    omega

end Encoding

end SmartEnter.Text
