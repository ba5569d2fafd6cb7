/-
  UTF-8 as `core::str::from_utf8` checks it, and the bytes of a Lean `String`.

  `from_utf8` runs `run_utf8_validation`: char after char, the first byte gives the width, the
  second byte must lie in the range that width and first byte allow (no overlong forms, no
  surrogates, nothing past `U+10FFFF`), and the others are continuation bytes.  `Str` is a
  `&str`: bytes that pass, carrying the proof.  Every Lean `Char` is a Unicode scalar value, and
  its encoding passes (`validUtf8_encodeChar`), so the bytes of every `String` are a `Str`
  (`Str.ofString`).

  And CONVERSELY: the bytes `nextChar` accepts at the front spell out the encoding of the scalar
  value they carry, width by width (`encodes_two`, `encodes_three`, `encodes_four`), and the lead
  byte fixes the width, so a char's encoding is read back unambiguously
  (`encodeChar_append_inj`).  Hence `from_utf8` accepts EXACTLY the bytes of strings, each the
  bytes of ONE string (`fromUtf8_exactly_strings`): the check transcribed from `core` and Lean's
  `String` are the same set of texts.
-/
import Mathlib.Algebra.Group.Nat.Basic
import Mathlib.Data.List.Basic

namespace Feo.DebugFmt

/-- A byte slice. -/
abbrev Bytes := List UInt8

/-- A continuation byte `0b10xx_xxxx`. -/
def isCont (b : UInt8) : Bool := 0x80 ≤ b.toNat && b.toNat ≤ 0xBF

/-- The second byte of a three-byte char, after first byte `b`. -/
def secondOf3 (b c : UInt8) : Bool :=
  if b.toNat = 0xE0 then 0xA0 ≤ c.toNat && c.toNat ≤ 0xBF
  else if b.toNat = 0xED then 0x80 ≤ c.toNat && c.toNat ≤ 0x9F
  else isCont c

/-- The second byte of a four-byte char, after first byte `b`. -/
def secondOf4 (b c : UInt8) : Bool :=
  if b.toNat = 0xF0 then 0x90 ≤ c.toNat && c.toNat ≤ 0xBF
  else if b.toNat = 0xF4 then 0x80 ≤ c.toNat && c.toNat ≤ 0x8F
  else isCont c

/-- The bytes after the char encoded at the front, as `run_utf8_validation` checks it: the
    first byte gives the width (`utf8_char_width`), the second must lie in the range that
    width and first byte allow, and the others are continuation bytes; `none` for an error. -/
def nextChar (b : UInt8) (rest : Bytes) : Option Bytes :=
  if b.toNat < 0x80 then some rest
  else if 0xC2 ≤ b.toNat ∧ b.toNat ≤ 0xDF then
    match rest with
    | c :: rest => if isCont c then some rest else none
    | [] => none
  else if 0xE0 ≤ b.toNat ∧ b.toNat ≤ 0xEF then
    match rest with
    | c₁ :: c₂ :: rest => if secondOf3 b c₁ && isCont c₂ then some rest else none
    | _ => none
  else if 0xF0 ≤ b.toNat ∧ b.toNat ≤ 0xF4 then
    match rest with
    | c₁ :: c₂ :: c₃ :: rest =>
        if secondOf4 b c₁ && isCont c₂ && isCont c₃ then some rest else none
    | _ => none
  else none

theorem nextChar_suffix {b : UInt8} {rest rest' : Bytes} (h : nextChar b rest = some rest') :
    rest' <:+ rest := by
  unfold nextChar at h
  repeat' split at h
  all_goals cases h <;> simp [List.suffix_cons_iff]

/-- `core::str::from_utf8`'s check, `run_utf8_validation`: char after char to the end. -/
def validUtf8 : Bytes → Bool
  | [] => true
  | b :: rest =>
      match h : nextChar b rest with
      | some rest' =>
          have : rest'.length < rest.length + 1 :=
            Nat.lt_succ_of_le (nextChar_suffix h).length_le
          validUtf8 rest'
      | none => false
termination_by bytes => bytes.length

theorem validUtf8_cons {b : UInt8} {rest rest' : Bytes} (h : nextChar b rest = some rest') :
    validUtf8 (b :: rest) = validUtf8 rest' := by
  rw [validUtf8]
  split <;> simp_all

theorem validUtf8_cons_none {b : UInt8} {rest : Bytes} (h : nextChar b rest = none) :
    validUtf8 (b :: rest) = false := by
  rw [validUtf8]
  split <;> simp_all

theorem validUtf8_one {b : UInt8} (rest : Bytes) (hb : b.toNat < 0x80) :
    validUtf8 (b :: rest) = validUtf8 rest :=
  validUtf8_cons (by unfold nextChar; rw [if_pos hb])

theorem validUtf8_two {b c : UInt8} (rest : Bytes) (hb : 0xC2 ≤ b.toNat ∧ b.toNat ≤ 0xDF)
    (hc : isCont c) : validUtf8 (b :: c :: rest) = validUtf8 rest :=
  validUtf8_cons (by rw [nextChar, if_neg (by omega), if_pos hb]; simp [hc])

theorem validUtf8_three {b c₁ c₂ : UInt8} (rest : Bytes) (hb : 0xE0 ≤ b.toNat ∧ b.toNat ≤ 0xEF)
    (h₁ : secondOf3 b c₁) (h₂ : isCont c₂) : validUtf8 (b :: c₁ :: c₂ :: rest) = validUtf8 rest :=
  validUtf8_cons (by rw [nextChar, if_neg (by omega), if_neg (by omega), if_pos hb]; simp [h₁, h₂])

theorem validUtf8_four {b c₁ c₂ c₃ : UInt8} (rest : Bytes) (hb : 0xF0 ≤ b.toNat ∧ b.toNat ≤ 0xF4)
    (h₁ : secondOf4 b c₁) (h₂ : isCont c₂) (h₃ : isCont c₃) :
    validUtf8 (b :: c₁ :: c₂ :: c₃ :: rest) = validUtf8 rest :=
  validUtf8_cons (by
    rw [nextChar, if_neg (by omega), if_neg (by omega), if_neg (by omega), if_pos hb]
    simp [h₁, h₂, h₃])

theorem toNat_toUInt8 (v : UInt32) : v.toUInt8.toNat = v.toNat % 256 := by
  simp [UInt32.toUInt8, Nat.toUInt8, UInt8.toNat, UInt8.ofNat]

theorem toNat_shiftRight (v k : UInt32) : (v >>> k).toNat = v.toNat / 2 ^ (k.toNat % 32) := by
  show (v.toBitVec >>> (UInt32.mod k 32).toBitVec).toNat = _
  simp [BitVec.toNat_ushiftRight, Nat.shiftRight_eq_div_pow, UInt32.toNat]
  rfl

theorem toNat_mask_or (y m t : UInt8) (k : Nat) (hm : m.toNat = 2 ^ k - 1)
    (ht : t.toNat % 2 ^ k = 0) : (y &&& m ||| t).toNat = y.toNat % 2 ^ k + t.toNat := by
  show ((y.toBitVec &&& m.toBitVec) ||| t.toBitVec).toNat = _
  rw [BitVec.toNat_or, BitVec.toNat_and]
  show (y.toNat &&& m.toNat) ||| t.toNat = _
  rw [hm, Nat.and_pow_two_sub_one_eq_mod, Nat.or_comm]
  have := Nat.mul_add_lt_is_or (Nat.mod_lt y.toNat (Nat.two_pow_pos k)) (t.toNat / 2 ^ k)
  rw [Nat.mul_div_cancel' (Nat.dvd_of_mod_eq_zero ht)] at this
  omega

/-- A continuation byte of a char's encoding: six bits of `v >>> k`, tagged `0b10`. -/
theorem isCont_tail (v : UInt32) : isCont (v.toUInt8 &&& 0x3f ||| 0x80) := by
  have := toNat_mask_or v.toUInt8 0x3f 0x80 6 rfl rfl
  simp only [isCont, this, Bool.and_eq_true, decide_eq_true_eq]
  have : (0x80 : UInt8).toNat = 128 := rfl
  omega

theorem validUtf8_encodeChar (c : Char) (rest : Bytes) :
    validUtf8 (String.utf8EncodeChar c ++ rest) = validUtf8 rest := by
  have hc : c.val.toNat < 0xd800 ∨ (0xdfff < c.val.toNat ∧ c.val.toNat < 0x110000) := c.valid
  have hlt : c.val.toNat < 2 ^ 32 := c.val.toBitVec.isLt
  have h6 : (c.val >>> 6).toNat = c.val.toNat / 64 := toNat_shiftRight c.val 6
  have h12 : (c.val >>> 12).toNat = c.val.toNat / 4096 := toNat_shiftRight c.val 12
  have h18 : (c.val >>> 18).toNat = c.val.toNat / 262144 := toNat_shiftRight c.val 18
  have mid := fun k : UInt32 => toNat_mask_or (c.val >>> k).toUInt8 0x3f 0x80 6 rfl rfl
  unfold String.utf8EncodeChar
  dsimp only
  split
  · next h =>
    have : c.val.toNat ≤ 0x7f := h
    exact validUtf8_one rest (by rw [toNat_toUInt8]; omega)
  · split
    · next h h' =>
      have : 0x7f < c.val.toNat := Nat.lt_of_not_le h
      have : c.val.toNat ≤ 0x7ff := h'
      have hb : ((c.val >>> 6).toUInt8 &&& 0x1f ||| 0xc0).toNat = c.val.toNat / 64 % 256 % 32 + 0xc0 := by
        rw [toNat_mask_or _ 0x1f 0xc0 5 rfl rfl, toNat_toUInt8, h6]; rfl
      exact validUtf8_two rest (by rw [hb]; omega) (isCont_tail _)
    · split
      · next h h' h'' =>
        have : 0x7ff < c.val.toNat := Nat.lt_of_not_le h'
        have : c.val.toNat ≤ 0xffff := h''
        have hb₁ : ((c.val >>> 12).toUInt8 &&& 0x0f ||| 0xe0).toNat =
            c.val.toNat / 4096 % 256 % 16 + 0xe0 := by
          rw [toNat_mask_or _ 0x0f 0xe0 4 rfl rfl, toNat_toUInt8, h12]; rfl
        have hb₂ : ((c.val >>> 6).toUInt8 &&& 0x3f ||| 0x80).toNat =
            c.val.toNat / 64 % 256 % 64 + 0x80 := by
          rw [mid, toNat_toUInt8, h6]; rfl
        refine validUtf8_three rest (by rw [hb₁]; omega) ?_
          (isCont_tail _)
        -- after `0xE0` the char is at least `U+0800`, after `0xED` it is not a surrogate
        simp only [secondOf3, isCont, hb₁, hb₂]
        split_ifs <;> simp only [Bool.and_eq_true, decide_eq_true_eq] <;> omega
      · next h h' h'' =>
        have : 0xffff < c.val.toNat := Nat.lt_of_not_le h''
        have hb₁ : ((c.val >>> 18).toUInt8 &&& 0x07 ||| 0xf0).toNat =
            c.val.toNat / 262144 % 256 % 8 + 0xf0 := by
          rw [toNat_mask_or _ 0x07 0xf0 3 rfl rfl, toNat_toUInt8, h18]; rfl
        have hb₂ : ((c.val >>> 12).toUInt8 &&& 0x3f ||| 0x80).toNat =
            c.val.toNat / 4096 % 256 % 64 + 0x80 := by
          rw [mid, toNat_toUInt8, h12]; rfl
        refine validUtf8_four rest (by rw [hb₁]; omega) ?_
          (isCont_tail _) (isCont_tail _)
        -- after `0xF0` the char is at least `U+10000`, after `0xF4` at most `U+10FFFF`
        simp only [secondOf4, isCont, hb₁, hb₂]
        split_ifs <;> simp only [Bool.and_eq_true, decide_eq_true_eq] <;> omega

/-- `str::as_bytes` of a Lean string: its chars' UTF-8 encodings. -/
def utf8 (s : String) : Bytes := s.data.flatMap String.utf8EncodeChar

theorem validUtf8_utf8 (s : String) : validUtf8 (utf8 s) = true := by
  obtain ⟨cs⟩ := s
  induction cs with
  | nil => simp [utf8, validUtf8]
  | cons c cs ih => simpa [utf8, validUtf8_encodeChar] using ih

/-- A `&str`: bytes that pass `from_utf8`'s check. -/
structure Str where
  bytes : Bytes
  valid : validUtf8 bytes = true

/-- A Lean string as a `&str`. -/
def Str.ofString (s : String) : Str := ⟨utf8 s, validUtf8_utf8 s⟩

/-- `core::str::from_utf8`. -/
def fromUtf8 (bytes : Bytes) : Option Str :=
  if h : validUtf8 bytes = true then some ⟨bytes, h⟩ else none

theorem fromUtf8_utf8 (s : String) : fromUtf8 (utf8 s) = some (Str.ofString s) := by
  simp [fromUtf8, validUtf8_utf8, Str.ofString]

/-! ## What passes is exactly the strings -/

/-- The UTF-8 encoding of scalar value `v`, byte values as numbers: what
    `String.utf8EncodeChar` writes. -/
def utf8Nat (v : Nat) : List Nat :=
  if v ≤ 0x7f then [v]
  else if v ≤ 0x7ff then [v / 64 % 32 + 0xC0, v % 64 + 0x80]
  else if v ≤ 0xffff then [v / 4096 % 16 + 0xE0, v / 64 % 64 + 0x80, v % 64 + 0x80]
  else [v / 262144 % 8 + 0xF0, v / 4096 % 64 + 0x80, v / 64 % 64 + 0x80, v % 64 + 0x80]

/-- A byte of a char's encoding, as a number: `bits` bits of `v >>> k` under the tag `t`. -/
theorem toNat_byte (v k : UInt32) (m t : UInt8) (bits : Nat) (hb : bits ≤ 8)
    (hm : m.toNat = 2 ^ bits - 1) (ht : t.toNat % 2 ^ bits = 0) :
    ((v >>> k).toUInt8 &&& m ||| t).toNat = v.toNat / 2 ^ (k.toNat % 32) % 2 ^ bits + t.toNat := by
  rw [toNat_mask_or _ m t bits hm ht, toNat_toUInt8, toNat_shiftRight,
    Nat.mod_mod_of_dvd _ (Nat.pow_dvd_pow 2 hb)]

theorem map_toNat_encodeChar (c : Char) :
    (String.utf8EncodeChar c).map UInt8.toNat = utf8Nat c.val.toNat := by
  have low : (c.val.toUInt8 &&& 0x3f ||| 0x80).toNat = c.val.toNat % 64 + 0x80 := by
    rw [toNat_mask_or _ 0x3f 0x80 6 rfl rfl, toNat_toUInt8,
      Nat.mod_mod_of_dvd _ (by decide : 2 ^ 6 ∣ 256)]; rfl
  have m₆ : ((c.val >>> 6).toUInt8 &&& 0x3f ||| 0x80).toNat = c.val.toNat / 64 % 64 + 0x80 :=
    toNat_byte c.val 6 0x3f 0x80 6 (by decide) rfl rfl
  have m₁₂ : ((c.val >>> 12).toUInt8 &&& 0x3f ||| 0x80).toNat =
      c.val.toNat / 4096 % 64 + 0x80 := toNat_byte c.val 12 0x3f 0x80 6 (by decide) rfl rfl
  have l₂ : ((c.val >>> 6).toUInt8 &&& 0x1f ||| 0xc0).toNat = c.val.toNat / 64 % 32 + 0xC0 :=
    toNat_byte c.val 6 0x1f 0xc0 5 (by decide) rfl rfl
  have l₃ : ((c.val >>> 12).toUInt8 &&& 0x0f ||| 0xe0).toNat =
      c.val.toNat / 4096 % 16 + 0xE0 := toNat_byte c.val 12 0x0f 0xe0 4 (by decide) rfl rfl
  have l₄ : ((c.val >>> 18).toUInt8 &&& 0x07 ||| 0xf0).toNat =
      c.val.toNat / 262144 % 8 + 0xF0 := toNat_byte c.val 18 0x07 0xf0 3 (by decide) rfl rfl
  unfold String.utf8EncodeChar utf8Nat
  by_cases h₁ : c.val.toNat ≤ 0x7f
  · rw [if_pos (show c.val ≤ 0x7f from h₁), if_pos h₁]
    simp only [List.map_cons, List.map_nil, toNat_toUInt8]
    rw [Nat.mod_eq_of_lt (by omega)]
  rw [if_neg (show ¬c.val ≤ 0x7f from h₁), if_neg h₁]
  by_cases h₂ : c.val.toNat ≤ 0x7ff
  · rw [if_pos (show c.val ≤ 0x7ff from h₂), if_pos h₂]
    simp only [List.map_cons, List.map_nil, l₂, low]
  rw [if_neg (show ¬c.val ≤ 0x7ff from h₂), if_neg h₂]
  by_cases h₃ : c.val.toNat ≤ 0xffff
  · rw [if_pos (show c.val ≤ 0xffff from h₃), if_pos h₃]
    simp only [List.map_cons, List.map_nil, l₃, m₆, low]
  rw [if_neg (show ¬c.val ≤ 0xffff from h₃), if_neg h₃]
  simp only [List.map_cons, List.map_nil, l₄, m₁₂, m₆, low]

/-- Bytes that spell out `utf8Nat v`, for a scalar value `v`, are the encoding of `v`'s char. -/
theorem encodes_front {v : Nat} (hv : v.isValidChar) (bs rest : Bytes)
    (h : bs.map UInt8.toNat = utf8Nat v) :
    ∃ c : Char, bs ++ rest = String.utf8EncodeChar c ++ rest :=
  ⟨Char.ofNatAux v hv, by
    rw [List.map_injective_iff.mpr (fun _ _ => UInt8.toNat.inj)
      ((map_toNat_encodeChar (Char.ofNatAux v hv)).trans h.symm)]⟩

theorem encodes_one {b : UInt8} (hb : b.toNat < 0x80) (rest : Bytes) :
    ∃ c : Char, b :: rest = String.utf8EncodeChar c ++ rest :=
  encodes_front (v := b.toNat) (Or.inl (by omega)) [b] rest
    (by simp only [List.map_cons, List.map_nil, utf8Nat, if_pos (show b.toNat ≤ 0x7f by omega)])

/-- Two bytes: five bits and six. -/
theorem encodes_two {b c : UInt8} (hb : 0xC2 ≤ b.toNat ∧ b.toNat ≤ 0xDF) (hc : isCont c = true)
    (rest : Bytes) : ∃ ch : Char, b :: c :: rest = String.utf8EncodeChar ch ++ rest := by
  obtain ⟨v, hv⟩ : ∃ v, v = b.toNat % 32 * 64 + c.toNat % 64 := ⟨_, rfl⟩
  simp only [isCont, Bool.and_eq_true, decide_eq_true_eq] at hc
  refine encodes_front (v := v) (Or.inl (by omega)) [b, c] rest ?_
  rw [utf8Nat, if_neg (by omega : ¬v ≤ 0x7f), if_pos (by omega : v ≤ 0x7ff)]
  simp only [List.map_cons, List.map_nil, List.cons.injEq, and_true]
  omega

/-- Three bytes: four bits and twice six.  The second byte's range rules out overlong forms
    (after `0xE0`) and surrogates (after `0xED`). -/
theorem encodes_three {b c₁ c₂ : UInt8} (hb : 0xE0 ≤ b.toNat ∧ b.toNat ≤ 0xEF)
    (h₁ : secondOf3 b c₁ = true) (h₂ : isCont c₂ = true) (rest : Bytes) :
    ∃ c : Char, b :: c₁ :: c₂ :: rest = String.utf8EncodeChar c ++ rest := by
  obtain ⟨v, hv⟩ : ∃ v, v = b.toNat % 16 * 4096 + c₁.toNat % 64 * 64 + c₂.toNat % 64 := ⟨_, rfl⟩
  simp only [isCont, Bool.and_eq_true, decide_eq_true_eq] at h₂
  have hr : 0x80 ≤ c₁.toNat ∧ c₁.toNat ≤ 0xBF ∧ 0x7ff < v ∧ (v < 0xd800 ∨ 0xdfff < v) := by
    unfold secondOf3 isCont at h₁
    split_ifs at h₁ <;> simp only [Bool.and_eq_true, decide_eq_true_eq] at h₁ <;> omega
  refine encodes_front (v := v) (by unfold Nat.isValidChar; omega) [b, c₁, c₂] rest ?_
  rw [utf8Nat, if_neg (by omega : ¬v ≤ 0x7f), if_neg (by omega : ¬v ≤ 0x7ff),
    if_pos (by omega : v ≤ 0xffff)]
  simp only [List.map_cons, List.map_nil, List.cons.injEq, and_true]
  omega

/-- Four bytes: three bits and three times six.  The second byte's range rules out overlong
    forms (after `0xF0`) and everything past `U+10FFFF` (after `0xF4`). -/
theorem encodes_four {b c₁ c₂ c₃ : UInt8} (hb : 0xF0 ≤ b.toNat ∧ b.toNat ≤ 0xF4)
    (h₁ : secondOf4 b c₁ = true) (h₂ : isCont c₂ = true) (h₃ : isCont c₃ = true) (rest : Bytes) :
    ∃ c : Char, b :: c₁ :: c₂ :: c₃ :: rest = String.utf8EncodeChar c ++ rest := by
  obtain ⟨v, hv⟩ : ∃ v, v = b.toNat % 8 * 262144 + c₁.toNat % 64 * 4096 + c₂.toNat % 64 * 64 +
      c₃.toNat % 64 := ⟨_, rfl⟩
  simp only [isCont, Bool.and_eq_true, decide_eq_true_eq] at h₂ h₃
  have hr : 0x80 ≤ c₁.toNat ∧ c₁.toNat ≤ 0xBF ∧ 0xffff < v ∧ v < 0x110000 := by
    unfold secondOf4 isCont at h₁
    split_ifs at h₁ <;> simp only [Bool.and_eq_true, decide_eq_true_eq] at h₁ <;> omega
  refine encodes_front (v := v) (Or.inr (by omega)) [b, c₁, c₂, c₃] rest ?_
  rw [utf8Nat, if_neg (by omega : ¬v ≤ 0x7f), if_neg (by omega : ¬v ≤ 0x7ff),
    if_neg (by omega : ¬v ≤ 0xffff)]
  simp only [List.map_cons, List.map_nil, List.cons.injEq, and_true]
  omega

/-- The bytes `nextChar` accepts at the front are a char's encoding. -/
theorem nextChar_encodes {b : UInt8} {rest rest' : Bytes} (h : nextChar b rest = some rest') :
    ∃ c : Char, b :: rest = String.utf8EncodeChar c ++ rest' := by
  unfold nextChar at h
  split_ifs at h with h₁ h₂ h₃ h₄
  · cases h
    exact encodes_one h₁ _
  · rcases rest with _ | ⟨c, rest⟩
    · cases h
    simp only at h
    split_ifs at h with hc
    cases h
    exact encodes_two h₂ hc _
  · rcases rest with _ | ⟨c₁, _ | ⟨c₂, rest⟩⟩
    · cases h
    · cases h
    simp only at h
    split_ifs at h with hc
    cases h
    simp only [Bool.and_eq_true] at hc
    exact encodes_three h₃ hc.1 hc.2 _
  · rcases rest with _ | ⟨c₁, _ | ⟨c₂, _ | ⟨c₃, rest⟩⟩⟩
    · cases h
    · cases h
    · cases h
    simp only at h
    split_ifs at h with hc
    cases h
    simp only [Bool.and_eq_true] at hc
    exact encodes_four h₄ hc.1.1 hc.1.2 hc.2 _

/-- Bytes that pass the check are the encoding of some string. -/
theorem utf8_of_validUtf8 : ∀ (bytes : Bytes), validUtf8 bytes = true → ∃ s : String, utf8 s = bytes
  | [], _ => ⟨"", rfl⟩
  | b :: rest, h => by
    cases hn : nextChar b rest with
    | none => rw [validUtf8_cons_none hn] at h; cases h
    | some rest' =>
      have : rest'.length < rest.length + 1 := Nat.lt_succ_of_le (nextChar_suffix hn).length_le
      obtain ⟨s, hs⟩ := utf8_of_validUtf8 rest' (by rwa [validUtf8_cons hn] at h)
      obtain ⟨c, hc⟩ := nextChar_encodes hn
      exact ⟨⟨c :: s.data⟩, by simp [utf8, hc, ← hs]⟩
termination_by bytes => bytes.length

theorem encodeChar_ne_nil (c : Char) : String.utf8EncodeChar c ≠ [] := fun h => by
  have := congrArg List.length h
  rw [String.length_utf8EncodeChar] at this
  exact absurd this (Char.utf8Size_pos c).ne'

theorem toNat_val_lt (c : Char) : c.val.toNat < 0x110000 := by
  have := c.valid
  unfold Nat.isValidChar at this
  omega

/-- The width of a char's encoding, read off its lead byte. -/
def widthOf (lead : Nat) : Nat :=
  if lead < 0x80 then 1 else if lead < 0xE0 then 2 else if lead < 0xF0 then 3 else 4

/-- The scalar value that bytes of `utf8Nat`'s form carry. -/
def valueOf : List Nat → Nat
  | [x] => x
  | [x, y] => (x - 0xC0) * 64 + (y - 0x80)
  | [x, y, z] => (x - 0xE0) * 4096 + (y - 0x80) * 64 + (z - 0x80)
  | [x, y, z, w] => (x - 0xF0) * 262144 + (y - 0x80) * 4096 + (z - 0x80) * 64 + (w - 0x80)
  | _ => 0

/-- An encoding's lead byte gives its width, and its bytes give back the value. -/
theorem utf8Nat_readback {v : Nat} (hv : v < 0x110000) :
    (utf8Nat v).length = widthOf ((utf8Nat v).headD 0) ∧ valueOf (utf8Nat v) = v := by
  unfold utf8Nat
  split_ifs <;> refine ⟨?_, ?_⟩ <;>
    simp only [List.length_cons, List.length_nil, List.headD_cons, valueOf, widthOf] <;>
    (try split_ifs) <;> omega

/-- Encodings with the same lead byte have the same width. -/
theorem encodeChar_length_eq {c d : Char}
    (h : (String.utf8EncodeChar c).head? = (String.utf8EncodeChar d).head?) :
    (String.utf8EncodeChar c).length = (String.utf8EncodeChar d).length := by
  have key : ∀ e : Char, (String.utf8EncodeChar e).length =
      widthOf (((String.utf8EncodeChar e).head?.map UInt8.toNat).getD 0) := fun e => by
    have := (utf8Nat_readback (toNat_val_lt e)).1
    rw [← map_toNat_encodeChar, List.length_map] at this
    rw [this]
    cases String.utf8EncodeChar e <;> rfl
  rw [key c, key d, h]

/-- A char's encoding and what follows it determine the char. -/
theorem encodeChar_append_inj {c d : Char} {r r' : Bytes}
    (h : String.utf8EncodeChar c ++ r = String.utf8EncodeChar d ++ r') : c = d ∧ r = r' := by
  have hhead := congrArg List.head? h
  rw [List.head?_append_of_ne_nil _ (encodeChar_ne_nil c),
    List.head?_append_of_ne_nil _ (encodeChar_ne_nil d)] at hhead
  have hlen := encodeChar_length_eq hhead
  obtain ⟨he, hr⟩ := List.append_inj h hlen
  refine ⟨Char.eq_of_val_eq (UInt32.toNat.inj ?_), hr⟩
  have hv := congrArg (fun l => valueOf (l.map UInt8.toNat)) he
  simpa only [map_toNat_encodeChar, (utf8Nat_readback (toNat_val_lt c)).2,
    (utf8Nat_readback (toNat_val_lt d)).2] using hv

/-- Two strings with the same bytes are the same string. -/
theorem utf8_injective : ∀ (s t : String), utf8 s = utf8 t → s = t
  | ⟨[]⟩, ⟨[]⟩, _ => rfl
  | ⟨[]⟩, ⟨d :: ds⟩, h => by simp [utf8, encodeChar_ne_nil] at h
  | ⟨c :: cs⟩, ⟨[]⟩, h => by simp [utf8, encodeChar_ne_nil] at h
  | ⟨c :: cs⟩, ⟨d :: ds⟩, h => by
    simp only [utf8, List.flatMap_cons] at h
    obtain ⟨rfl, h'⟩ := encodeChar_append_inj h
    obtain rfl : cs = ds := congrArg String.data (utf8_injective ⟨cs⟩ ⟨ds⟩ h')
    rfl

/-- A cut of a string's bytes that is itself a string's bytes falls on a char boundary: that
    string is the first `k` chars. -/
theorem utf8_eq_take : ∀ {t s : String} {n : Nat}, utf8 t = (utf8 s).take n →
    ∃ k, t.data = s.data.take k
  | ⟨[]⟩, _, _, _ => ⟨0, rfl⟩
  | ⟨c :: cs⟩, ⟨[]⟩, n, h => by simp [utf8, encodeChar_ne_nil] at h
  | ⟨c :: cs⟩, ⟨d :: ds⟩, 0, h => by simp [utf8, encodeChar_ne_nil] at h
  | ⟨c :: cs⟩, ⟨d :: ds⟩, n + 1, h => by
    simp only [utf8, List.flatMap_cons] at h
    -- the cut keeps the first char's lead byte, hence its whole width
    obtain ⟨x, xs, hx⟩ := List.exists_cons_of_ne_nil (encodeChar_ne_nil d)
    have hhead := congrArg List.head? h
    rw [List.head?_append_of_ne_nil _ (encodeChar_ne_nil c), hx, List.cons_append,
      List.take_succ_cons, List.head?_cons, ← List.head?_cons (l := xs), ← hx] at hhead
    have hlen := encodeChar_length_eq hhead
    have hfit : (String.utf8EncodeChar d).length ≤ n + 1 := by
      have := congrArg List.length h
      simp only [List.length_append, List.length_take] at this
      omega
    rw [List.take_append_eq_append_take, List.take_of_length_le hfit] at h
    obtain ⟨rfl, h'⟩ := encodeChar_append_inj h
    obtain ⟨k, hk⟩ := utf8_eq_take (t := ⟨cs⟩) (s := ⟨ds⟩) h'
    exact ⟨k + 1, by simpa using hk⟩

/-- `from_utf8` on the first `n` bytes of a string accepts them exactly when `n` falls on a char
    boundary, and then hands on the chars before it. -/
theorem fromUtf8_take (s : String) (n : Nat) (str : Str) :
    fromUtf8 ((utf8 s).take n) = some str ↔
      ∃ k, (utf8 s).take n = utf8 ⟨s.data.take k⟩ ∧ str = Str.ofString ⟨s.data.take k⟩ := by
  refine ⟨fun h => ?_, fun ⟨k, hk, hstr⟩ => by rw [hk, hstr, fromUtf8_utf8]⟩
  unfold fromUtf8 at h
  split at h
  · next hv =>
    cases h
    obtain ⟨⟨td⟩, ht⟩ := utf8_of_validUtf8 _ hv
    obtain ⟨k, rfl⟩ := utf8_eq_take ht
    exact ⟨k, ht.symm, by simp only [Str.ofString, ht]⟩
  · cases h

/-- **`from_utf8` accepts exactly the strings.**  A byte string passes `run_utf8_validation`
    exactly when it is the UTF-8 encoding of a string of Unicode scalar values, and that string
    is unique: `from_utf8` then hands on the `&str` of exactly that string.  So the check
    transcribed from `core` agrees with what a Lean `String` is, in both directions. -/
theorem fromUtf8_exactly_strings (bytes : Bytes) (str : Str) :
    (fromUtf8 bytes = some str ↔ ∃ s : String, utf8 s = bytes ∧ str = Str.ofString s) ∧
      ∀ s t : String, utf8 s = bytes → utf8 t = bytes → s = t := by
  refine ⟨⟨fun h => ?_, fun ⟨s, hs, hstr⟩ => by rw [← hs, hstr, fromUtf8_utf8]⟩,
    fun s t hs ht => utf8_injective s t (hs.trans ht.symm)⟩
  unfold fromUtf8 at h
  split at h
  · next hv =>
    cases h
    obtain ⟨s, rfl⟩ := utf8_of_validUtf8 bytes hv
    exact ⟨s, rfl, rfl⟩
  · cases h

end Feo.DebugFmt
