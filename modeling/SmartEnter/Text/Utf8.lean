/-
# UTF-8

Bytes are decoded strictly: every character in its shortest form, no surrogates, nothing above the
last code point.  The first byte that cannot be read stops the decoding, and the error names the
bytes that were begun with and what is wrong with them.

What is allowed is decided by the first byte of a character and by narrower limits for the second
one (`lead?`).  The limits rule out the forms that are too long, the surrogates and the code points
beyond the last one as soon as the second byte is seen, so no code point is ever put together only
to be thrown away.  That is also what fixes the number of bytes that an error names.

That decoding undoes encoding, and refuses everything else, is proved in `Proofs/Text/Utf8`.
-/
namespace SmartEnter.Text.Utf8

/-- What is wrong with a sequence of bytes: no character starts with the first one, or one of those
behind it does not go on with the character, or there are too few of them. -/
inductive Fault where
  | invalidStart
  | invalidContinuation
  | unexpectedEnd
  deriving Repr, DecidableEq

/-- The bytes that are no character: where they start, how many they are, and the first of them. -/
structure Failure where
  fault : Fault
  position : Nat
  count : Nat
  first : UInt8
  deriving Repr, DecidableEq

/-- What the first byte of a character tells: its own bits of the code point, how many bytes follow,
and between which bounds the next one is. -/
structure Lead where
  /-- The bits of the code point that are in the first byte. -/
  bits : Nat
  /-- How many bytes follow. -/
  following : Nat
  /-- The least value of the byte after the first. -/
  least : Nat
  /-- The greatest value of the byte after the first. -/
  greatest : Nat

/-- Reads the first byte of a character.  The bytes from 0x80 to 0xBF only continue a character,
0xC0 and 0xC1 would start forms that are too long, and those from 0xF5 on would lead beyond the last
code point. -/
def lead? (b : UInt8) : Option Lead :=
  let n := b.toNat
  if n < 0x80 then some ⟨n, 0, 0x80, 0xBF⟩
  else if n < 0xC2 then none
  else if n < 0xE0 then some ⟨n - 0xC0, 1, 0x80, 0xBF⟩
  else if n < 0xF0 then
    some ⟨n - 0xE0, 2, if n = 0xE0 then 0xA0 else 0x80, if n = 0xED then 0x9F else 0xBF⟩
  else if n < 0xF5 then
    some ⟨n - 0xF0, 3, if n = 0xF0 then 0x90 else 0x80, if n = 0xF4 then 0x8F else 0xBF⟩
  else none

/-- Reads the bytes that follow in a character, of which `seen` have been read and `missing` are to
come; the next one has to lie between `least` and `greatest`, and those behind it in the usual
range.  A failure names how many bytes had been good. -/
def follow (code seen : Nat) :
    (missing least greatest : Nat) → List UInt8 → Except (Fault × Nat) Nat
  | 0, _, _, _ => .ok code
  | _ + 1, _, _, [] => .error (.unexpectedEnd, seen)
  | missing + 1, least, greatest, b :: rest =>
    if least ≤ b.toNat ∧ b.toNat ≤ greatest then
      follow (code * 64 + (b.toNat - 0x80)) (seen + 1) missing 0x80 0xBF rest
    else .error (.invalidContinuation, seen)

/-- Decodes bytes that start at a position.  The position is that of the first byte of a character,
and an error keeps it even if it is a later byte that is at fault. -/
def decodeAt (position : Nat) : List UInt8 → Except Failure (List Char)
  | [] => .ok []
  | b :: rest =>
    match lead? b with
    | none => .error ⟨.invalidStart, position, 1, b⟩
    | some lead =>
      match follow lead.bits 1 lead.following lead.least lead.greatest rest with
      | .error (fault, count) => .error ⟨fault, position, count, b⟩
      | .ok code =>
        (Char.ofNat code :: ·) <$>
          decodeAt (position + lead.following + 1) (rest.drop lead.following)
termination_by bytes => bytes.length
decreasing_by simp only [List.length_drop, List.length_cons]; omega

def decode (bytes : List UInt8) : Except Failure (List Char) := decodeAt 0 bytes

/-- The bytes of a text.  Every text has some, since a character is never a surrogate. -/
def encode (s : List Char) : List UInt8 := s.flatMap String.utf8EncodeChar

def Fault.message : Fault → String
  | invalidStart => "invalid start byte"
  | invalidContinuation => "invalid continuation byte"
  | unexpectedEnd => "unexpected end of data"

/-- The message of a failure.  One byte is shown with its value, several are named by their
positions only. -/
def Failure.message (f : Failure) : String :=
  let place :=
    if f.count = 1 then
      let digits := Nat.toDigits 16 f.first.toNat
      "byte 0x" ++ (if digits.length = 1 then "0" else "") ++ String.ofList digits
        ++ " in position " ++ toString f.position
    else "bytes in position " ++ toString f.position ++ "-" ++ toString (f.position + f.count - 1)
  "'utf-8' codec can't decode " ++ place ++ ": " ++ f.fault.message

end SmartEnter.Text.Utf8
