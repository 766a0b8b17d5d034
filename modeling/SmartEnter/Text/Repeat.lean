/-
# How long a text may be

Indices into a text and counts of characters are signed numbers of 64 bits (`IsIndex`).  A text
that is made by repeating a character can fail in two ways: the count is no such number, or the
text would not fit into memory (`repeated`).

The first limit is a fixed number, and the second one is not: how much fits into memory is a matter
of the machine and of what else runs on it.  So the library knows no number for it.  `Memory` holds
the limit of the machine at hand, every function that may have to write a long text depends on it,
and what is proved of them holds on every machine.  It is a class because the limit is the same
throughout a run and is looked at in one place only, which is `repeated`: nothing in between has to
hand it on.
-/
namespace SmartEnter.Text

/-- Is the number one that can be an index or a count?  The range is not symmetric: there is one
more number below zero than above. -/
def IsIndex (n : Int) : Prop := -0x8000000000000000 ≤ n ∧ n < 0x8000000000000000

instance (n : Int) : Decidable (IsIndex n) := by unfold IsIndex; infer_instance

def noIndexMessage : String := "cannot fit 'int' into an index-sized integer"

/-- The memory of a machine, as far as a repeated character can use it up. -/
class Memory where
  /-- The greatest number of copies of a character that fit into memory. -/
  limit : Nat
  /-- No text is longer than the greatest index, however large the memory is. -/
  limit_lt : limit < 0x8000000000000000

/-- A small machine, to have one for an example.  Its texts have 1024 characters at most. -/
@[reducible]
def Memory.kilobyte : Memory := ⟨0x400, by decide⟩

/-- Why a character cannot be repeated: the number is no count of characters at all, or so many do
not fit into memory. -/
inductive RepeatFailure where
  /-- The count is no count at all. -/
  | noCount
  | outOfMemory
  deriving Repr, DecidableEq

/-- The message of a failure; there is nothing to be said of memory that is used up. -/
def RepeatFailure.message : RepeatFailure → String
  | noCount => noIndexMessage
  | outOfMemory => ""

variable [Memory] {n : Int} {c : Char} {s : List Char}

/-- A character a number of times; a count below zero is as good as zero.  A count that is no index
is refused before anything else, so memory is asked about indices only. -/
def repeated (n : Int) (c : Char) : Except RepeatFailure (List Char) :=
  if ¬IsIndex n then .error .noCount
  else if Memory.limit < n then .error .outOfMemory
  else .ok (List.replicate n.toNat c)

theorem isIndex_of_le (h : 0 ≤ n) (hn : n ≤ Memory.limit) : IsIndex n := by
  have hlimit := Memory.limit_lt
  unfold IsIndex
  omega

/-- **Within the limit of memory a character can be repeated.**  This is the only way in which
results about wide levels depend on the machine. -/
theorem repeated_natCast {n : Nat} (h : n ≤ Memory.limit) (c : Char) :
    repeated n c = .ok (List.replicate n c) := by
  have hi : IsIndex (n : Int) := isIndex_of_le (by omega) (by omega)
  unfold repeated
  rw [if_neg (not_not_intro hi), if_neg (by omega), Int.toNat_natCast]

/-- What comes of a repetition is nothing but the character, as often as was asked for; there is
none if the count is below zero. -/
theorem eq_replicate_of_repeated (h : repeated n c = .ok s) : s = List.replicate n.toNat c := by
  unfold repeated at h
  split at h
  · cases h
  · split at h
    · cases h
    · cases h
      rfl

end SmartEnter.Text
