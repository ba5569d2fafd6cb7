/-
  The part of `postcard`'s deserializer that the recording reader leans on.

  `postcard::take_from_bytes::<T>(bytes)` decodes one `T` from the front of a byte slice and
  returns it with the REST of the slice, so what it leaves is always a SUFFIX of what it was
  given: `Decoder` carries this as a field, and a decoder that could hand back other bytes
  cannot be built.  An enum, such as the recorder's `Record`, is its variant index as a
  `varint(u32)` followed by the variant's fields; a varint is at least one byte, so decoding an
  enum consumes at least one byte (`takeEnum_shortens`).
-/
import Mathlib.Data.List.Basic

namespace Feo.MiniAdas

/-- A byte slice. -/
abbrev Bytes := List UInt8

/-- `postcard::take_from_bytes::<α>`: a value from the front of the bytes and the rest of
    them; `none` for an `Err`. -/
structure Decoder (α : Type) where
  take : Bytes → Option (α × Bytes)
  suffix : ∀ {bytes : Bytes} {a : α} {rest : Bytes}, take bytes = some (a, rest) → rest <:+ bytes

/-- A `u8`: one byte as it is. -/
def Decoder.u8 : Decoder UInt8 where
  take
    | [] => none
    | b :: rest => some (b, rest)
  suffix {bytes a rest} h := by
    cases bytes with
    | nil => cases h
    | cons b bs => cases h; exact List.suffix_cons _ _

/-- A unit variant or struct: no bytes. -/
def Decoder.pure {α : Type} (a : α) : Decoder α where
  take bytes := some (a, bytes)
  suffix h := by cases h; exact List.suffix_refl _

/-- Two fields in a row, as a struct's fields are. -/
def Decoder.seq {α β : Type} (d₁ : Decoder α) (d₂ : Decoder β) : Decoder (α × β) where
  take bytes :=
    match d₁.take bytes with
    | none => none
    | some (a, rest) =>
        match d₂.take rest with
        | none => none
        | some (b, rest') => some ((a, b), rest')
  suffix {bytes ab rest} h := by
    dsimp only at h
    split at h
    · cases h
    · next a rest₁ h₁ =>
      split at h
      · cases h
      · next b rest₂ h₂ => cases h; exact (d₂.suffix h₂).trans (d₁.suffix h₁)

/-- The decoded value, transformed. -/
def Decoder.map {α β : Type} (f : α → β) (d : Decoder α) : Decoder β where
  take bytes := (d.take bytes).map fun r => (f r.1, r.2)
  suffix {bytes b rest} h := by
    dsimp only at h
    cases hd : d.take bytes with
    | none => simp [hd] at h
    | some r => simp only [hd, Option.map_some', Option.some.injEq, Prod.mk.injEq] at h
                exact h.2 ▸ d.suffix hd

/-- `try_take_varint_u32` from byte `i` (of at most five) on, with the bits read so far: seven
    bits a byte, low group first, the high bit set on every byte but the last; the fifth byte
    may carry only the four bits a `u32` has left. -/
def takeVarint32Go (i acc : Nat) : Bytes → Option (Nat × Bytes)
  | [] => none
  | b :: rest =>
      let acc := acc ||| ((b.toNat &&& 0x7F) <<< (7 * i))
      if b.toNat &&& 0x80 = 0 then
        if i = 4 ∧ 0x0F < b.toNat then none else some (acc, rest)
      else if i = 4 then none else takeVarint32Go (i + 1) acc rest

/-- `try_take_varint_u32`. -/
def takeVarint32 (bytes : Bytes) : Option (Nat × Bytes) := takeVarint32Go 0 0 bytes

example : takeVarint32 [0xAC, 0x02, 7] = some (300, [7]) := by decide

/-- A varint is read from the first byte on: what is left is a suffix of the bytes after it. -/
theorem takeVarint32Go_tail {i acc n : Nat} :
    ∀ {bytes rest : Bytes}, takeVarint32Go i acc bytes = some (n, rest) →
      ∃ b bs, bytes = b :: bs ∧ rest <:+ bs
  | [], _, h => by simp [takeVarint32Go] at h
  | b :: bs, rest, h => by
    refine ⟨b, bs, rfl, ?_⟩
    simp only [takeVarint32Go] at h
    split at h
    · split at h
      · cases h
      · cases h; exact List.suffix_refl _
    · split at h
      · cases h
      · obtain ⟨b', bs', rfl, hs⟩ := takeVarint32Go_tail h
        exact hs.trans (List.suffix_cons _ _)

/-- An enum with the given variants' decoders: the variant index as a `varint(u32)`, then the
    variant's fields; `none` for an index no variant has. -/
def takeEnum {α : Type} (variants : Nat → Option (Decoder α)) : Decoder α where
  take bytes :=
    match takeVarint32 bytes with
    | none => none
    | some (index, rest) =>
        match variants index with
        | none => none
        | some variant => variant.take rest
  suffix {bytes a rest} h := by
    dsimp only at h
    split at h
    · cases h
    · next index rest' hv =>
      obtain ⟨b, bs, rfl, hs⟩ := takeVarint32Go_tail hv
      split at h
      · cases h
      · next variant _ => exact ((variant.suffix h).trans hs).trans (List.suffix_cons _ _)

/-- Decoding an enum consumes at least its variant index. -/
theorem takeEnum_shortens {α : Type} {variants : Nat → Option (Decoder α)} {bytes rest : Bytes}
    {a : α} (h : (takeEnum variants).take bytes = some (a, rest)) : rest.length < bytes.length := by
  simp only [takeEnum] at h
  split at h
  · cases h
  · next index rest' hv =>
    obtain ⟨b, bs, rfl, hs⟩ := takeVarint32Go_tail hv
    split at h
    · cases h
    · next variant _ =>
      have h₁ := (variant.suffix h).length_le
      have h₂ := hs.length_le
      simp only [List.length_cons]
      omega

end Feo.MiniAdas
