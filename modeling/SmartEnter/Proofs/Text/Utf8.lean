/-
# UTF-8 loses nothing

Bytes are decoded strictly, so there is one way to write a text, and reading it back is the inverse
of writing it: a text is what bytes decode to exactly if the bytes are its encoding
(`decode_eq_ok_iff`).

The step is one character.  Its first byte tells how many follow and between which bounds
(`lead?_one` and the three rows behind it), and the bits of all of them make up the code point.
What is read as a character is written as it was (`encode_of_lead`), and what is written as one is
read as it (`lead_of_encode`).

The bounds on the second byte are what makes decoding strict.  They leave out the code points that
have a shorter form, the surrogates, and everything behind the last character.
-/
import SmartEnter.Text.Utf8
import Mathlib.Data.List.Basic

namespace SmartEnter.Text.Utf8

variable {b : UInt8} {rest : List UInt8} {c : Char} {lead : Lead}
  {code seen missing least greatest n : Nat}

/-! ## 1. The bytes of a character

The first byte is one of four rows, by its size, and each following byte is read in one step. -/

theorem lead?_one (h : b.toNat < 0x80) : lead? b = some ⟨b.toNat, 0, 0x80, 0xBF⟩ := by
  rw [lead?, if_pos h]

theorem lead?_two (h : 0xC2 ≤ b.toNat) (h' : b.toNat < 0xE0) :
    lead? b = some ⟨b.toNat - 0xC0, 1, 0x80, 0xBF⟩ := by
  rw [lead?, if_neg (by omega), if_neg (by omega), if_pos h']

theorem lead?_three (h : 0xE0 ≤ b.toNat) (h' : b.toNat < 0xF0) :
    lead? b = some ⟨b.toNat - 0xE0, 2, if b.toNat = 0xE0 then 0xA0 else 0x80,
      if b.toNat = 0xED then 0x9F else 0xBF⟩ := by
  rw [lead?, if_neg (by omega), if_neg (by omega), if_neg (by omega), if_pos h']

theorem lead?_four (h : 0xF0 ≤ b.toNat) (h' : b.toNat < 0xF5) :
    lead? b = some ⟨b.toNat - 0xF0, 3, if b.toNat = 0xF0 then 0x90 else 0x80,
      if b.toNat = 0xF4 then 0x8F else 0xBF⟩ := by
  rw [lead?, if_neg (by omega), if_neg (by omega), if_neg (by omega), if_neg (by omega), if_pos h']

theorem lead?_ranges (h : lead? b = some lead) :
    b.toNat < 0x80 ∨ (0xC2 ≤ b.toNat ∧ b.toNat < 0xE0) ∨ (0xE0 ≤ b.toNat ∧ b.toNat < 0xF0) ∨
      0xF0 ≤ b.toNat ∧ b.toNat < 0xF5 := by
  by_contra hout
  rw [lead?] at h
  simp only [not_or, not_and] at hout
  have hnone : ¬b.toNat < 0x80 ∧ (b.toNat < 0xC2 ∨ 0xF5 ≤ b.toNat) := by omega
  rcases hnone.2 with hlow | hhigh
  · rw [if_neg hnone.1, if_pos hlow] at h
    cases h
  · rw [if_neg hnone.1, if_neg (by omega), if_neg (by omega), if_neg (by omega),
      if_neg (by omega)] at h
    cases h

theorem follow_zero : follow code seen 0 least greatest rest = .ok n ↔ code = n := by
  rw [follow, Except.ok.injEq]

/-- Each byte behind the first one lies between its bounds and adds six bits. -/
theorem follow_succ :
    follow code seen (missing + 1) least greatest rest = .ok n ↔
      ∃ b r, rest = b :: r ∧ least ≤ b.toNat ∧ b.toNat ≤ greatest ∧
        follow (code * 64 + (b.toNat - 0x80)) (seen + 1) missing 0x80 0xBF r = .ok n := by
  cases rest with
  | nil => simp [follow]
  | cons b r =>
    rw [follow]
    split
    · next h => simp [h.1, h.2]
    · next h =>
      simp only [reduceCtorEq, List.cons.injEq, false_iff]
      rintro ⟨b', r', ⟨rfl, rfl⟩, hleast, hgreatest, -⟩
      exact h ⟨hleast, hgreatest⟩

/-! ## 2. From bytes to a character and back

Both directions are arithmetic: code points are split in groups of six bits and put together
again. -/

theorem toNat_ofNat (h : n.isValidChar) : (Char.ofNat n).val.toNat = n := by
  rw [Char.ofNat, dif_pos h]
  rfl

theorem ofNat_eq (h : n = b.toNat) : UInt8.ofNat n = b := by
  rw [h, UInt8.ofNat_toNat]

/-- **What is read as a character is written as it was.**  There is one case for each number of
bytes; the bounds of the second byte keep the code point out of the shorter forms and away from the
surrogates. -/
theorem encode_of_lead (hl : lead? b = some lead)
    (hf : follow lead.bits 1 lead.following lead.least lead.greatest rest = .ok code) :
    String.utf8EncodeChar (Char.ofNat code) ++ rest.drop lead.following = b :: rest := by
  -- one case for each number of bytes; the bounds on the second byte rule out overlong forms
  rcases lead?_ranges hl with h | ⟨h, h'⟩ | ⟨h, h'⟩ | ⟨h, h'⟩
  · obtain rfl := Option.some.inj ((lead?_one h).symm.trans hl)
    obtain rfl := follow_zero.1 hf
    have hv := toNat_ofNat (n := b.toNat) (.inl (by omega))
    simp only [String.utf8EncodeChar, hv]
    rw [if_pos (by omega), ofNat_eq rfl]
    rfl
  · obtain rfl := Option.some.inj ((lead?_two h h').symm.trans hl)
    obtain ⟨b₂, r, rfl, hleast, hgreatest, hf⟩ := follow_succ.1 hf
    have hcode := follow_zero.1 hf
    dsimp only at hcode hleast hgreatest
    have hv := toNat_ofNat (n := code) (.inl (by omega))
    simp only [String.utf8EncodeChar, hv]
    rw [if_neg (by omega), if_pos (by omega), ofNat_eq (b := b) (by omega),
      ofNat_eq (b := b₂) (by omega)]
    rfl
  · obtain rfl := Option.some.inj ((lead?_three h h').symm.trans hl)
    obtain ⟨b₂, r, rfl, hleast, hgreatest, hf⟩ := follow_succ.1 hf
    obtain ⟨b₃, r, rfl, hleast₃, hgreatest₃, hf⟩ := follow_succ.1 hf
    have hcode := follow_zero.1 hf
    dsimp only at hcode hleast hgreatest
    have htail : 0x80 ≤ b₂.toNat ∧ b₂.toNat ≤ 0xBF := by
      split at hleast <;> split at hgreatest <;> omega
    have hlong : 0x7FF < code := by split at hleast <;> omega
    have hv := toNat_ofNat (n := code) (by unfold Nat.isValidChar; split at hgreatest <;> omega)
    simp only [String.utf8EncodeChar, hv]
    rw [if_neg (by omega), if_neg (by omega), if_pos (by omega), ofNat_eq (b := b) (by omega),
      ofNat_eq (b := b₂) (by omega), ofNat_eq (b := b₃) (by omega)]
    rfl
  · obtain rfl := Option.some.inj ((lead?_four h h').symm.trans hl)
    obtain ⟨b₂, r, rfl, hleast, hgreatest, hf⟩ := follow_succ.1 hf
    obtain ⟨b₃, r, rfl, hleast₃, hgreatest₃, hf⟩ := follow_succ.1 hf
    obtain ⟨b₄, r, rfl, hleast₄, hgreatest₄, hf⟩ := follow_succ.1 hf
    have hcode := follow_zero.1 hf
    dsimp only at hcode hleast hgreatest
    have htail : 0x80 ≤ b₂.toNat ∧ b₂.toNat ≤ 0xBF := by
      split at hleast <;> split at hgreatest <;> omega
    have hlong : 0xFFFF < code := by split at hleast <;> omega
    have hvalid : code < 0x110000 := by split at hgreatest <;> omega
    have hv := toNat_ofNat (n := code) (.inr (by omega))
    simp only [String.utf8EncodeChar, hv]
    rw [if_neg (by omega), if_neg (by omega), if_neg (by omega), ofNat_eq (b := b) (by omega),
      ofNat_eq (b := b₂) (by omega), ofNat_eq (b := b₃) (by omega), ofNat_eq (b := b₄) (by omega)]
    rfl

theorem toNat_byte (h : n < 256) : (UInt8.ofNat n).toNat = n := by
  rw [UInt8.toNat_ofNat']
  exact Nat.mod_eq_of_lt h

/-- **What is written as a character is read as it.**  The number of bytes of a character depends on
its code point only, and so does the row of its first byte. -/
theorem lead_of_encode {r : List UInt8} (h : String.utf8EncodeChar c ++ r = b :: rest) :
    ∃ lead, lead? b = some lead ∧ rest.drop lead.following = r ∧
      follow lead.bits 1 lead.following lead.least lead.greatest rest = .ok c.val.toNat := by
  have hvalid : c.val.toNat.isValidChar := c.valid
  unfold Nat.isValidChar at hvalid
  simp only [String.utf8EncodeChar] at h
  generalize c.val.toNat = n at h hvalid
  split at h
  · obtain ⟨rfl, rfl⟩ := List.cons.inj h
    have hb := toNat_byte (n := n) (by omega)
    refine ⟨_, lead?_one (by omega), rfl, ?_⟩
    rw [follow_zero, hb]
  split at h
  · obtain ⟨rfl, rfl⟩ := List.cons.inj h
    have hb := toNat_byte (n := n / 64 % 32 + 192) (by omega)
    have hb₂ := toNat_byte (n := n % 64 + 128) (by omega)
    refine ⟨_, lead?_two (by omega) (by omega), rfl, ?_⟩
    dsimp only
    refine follow_succ.2 ⟨_, _, rfl, by omega, by omega, follow_zero.2 ?_⟩
    omega
  split at h
  · obtain ⟨rfl, rfl⟩ := List.cons.inj h
    have hb := toNat_byte (n := n / 4096 % 16 + 224) (by omega)
    have hb₂ := toNat_byte (n := n / 64 % 64 + 128) (by omega)
    have hb₃ := toNat_byte (n := n % 64 + 128) (by omega)
    refine ⟨_, lead?_three (by omega) (by omega), rfl, ?_⟩
    dsimp only
    refine follow_succ.2 ⟨_, _, rfl, by split <;> omega, by split <;> omega, follow_succ.2 ?_⟩
    refine ⟨_, _, rfl, by omega, by omega, follow_zero.2 ?_⟩
    omega
  · obtain ⟨rfl, rfl⟩ := List.cons.inj h
    have hb := toNat_byte (n := n / 262144 % 8 + 240) (by omega)
    have hb₂ := toNat_byte (n := n / 4096 % 64 + 128) (by omega)
    have hb₃ := toNat_byte (n := n / 64 % 64 + 128) (by omega)
    have hb₄ := toNat_byte (n := n % 64 + 128) (by omega)
    refine ⟨_, lead?_four (by omega) (by omega), rfl, ?_⟩
    dsimp only
    refine follow_succ.2 ⟨_, _, rfl, by split <;> omega, by split <;> omega, follow_succ.2 ?_⟩
    refine ⟨_, _, rfl, by omega, by omega, follow_succ.2 ?_⟩
    refine ⟨_, _, rfl, by omega, by omega, follow_zero.2 ?_⟩
    omega

/-! ## 3. Texts -/

theorem encode_cons (c : Char) (s : List Char) :
    encode (c :: s) = String.utf8EncodeChar c ++ encode s := rfl

theorem encode_eq_nil_iff {s : List Char} : encode s = [] ↔ s = [] := by
  cases s with
  | nil => simp [encode]
  | cons c s =>
    rw [encode_cons]
    unfold String.utf8EncodeChar
    dsimp only
    split <;> [skip; split <;> [skip; split]] <;> simp

/-- Bytes from any position on decode to a text exactly if they are its encoding.  The position is
only told in errors. -/
theorem decodeAt_eq_ok_iff {position : Nat} {bytes : List UInt8} {s : List Char} :
    decodeAt position bytes = .ok s ↔ encode s = bytes := by
  fun_induction decodeAt position bytes generalizing s with
  | case1 => rw [encode_eq_nil_iff, Except.ok.injEq, eq_comm]
  | case2 position b rest hl =>
    refine ⟨nofun, fun h => ?_⟩
    cases s with
    | nil => cases h
    | cons c s =>
      obtain ⟨lead, hlead, -⟩ := lead_of_encode h
      rw [hl] at hlead
      cases hlead
  | case3 position b rest lead hl fault count hf =>
    refine ⟨nofun, fun h => ?_⟩
    cases s with
    | nil => cases h
    | cons c s =>
      obtain ⟨lead', hlead, -, hok⟩ := lead_of_encode h
      obtain rfl := Option.some.inj (hl.symm.trans hlead)
      rw [hf] at hok
      cases hok
  | case4 position b rest lead hl code hf ih =>
    constructor
    · intro h
      cases hrest : decodeAt (position + lead.following + 1) (rest.drop lead.following) with
      | error f => rw [hrest] at h; cases h
      | ok s' =>
        rw [hrest] at h
        obtain rfl := Except.ok.inj h
        rw [encode_cons, ih.1 hrest, encode_of_lead hl hf]
    · intro h
      cases s with
      | nil => cases h
      | cons c s =>
        obtain ⟨lead', hlead, hdrop, hok⟩ := lead_of_encode h
        obtain rfl := Option.some.inj (hl.symm.trans hlead)
        obtain rfl := Except.ok.inj (hf.symm.trans hok)
        have hc : Char.ofNat c.val.toNat = c := Char.ofNat_toNat c
        rw [ih.2 hdrop.symm, hc]
        rfl

/-- **Bytes decode to a text exactly if they are its encoding.**  So no text has two encodings, and
bytes that are none are refused. -/
theorem decode_eq_ok_iff {bytes : List UInt8} {s : List Char} :
    decode bytes = .ok s ↔ encode s = bytes :=
  decodeAt_eq_ok_iff

end SmartEnter.Text.Utf8
