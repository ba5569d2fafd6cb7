/-
  Consistent Overhead Byte Stuffing, the FRAMING of the trace wire protocol.

  The worker hands every packet to `postcard::to_slice_cobs`, which serializes it and stuffs the
  bytes so that `0` never occurs inside a frame; a single `0` then ends the frame on the stream.
  The encoder here is the one the `cobs` crate runs block by block: a block is a CODE byte `n`
  followed by `n - 1` non-zero data bytes, standing for those bytes and one `0` after them; the
  code `0xFF` stands for 254 data bytes and NO zero (a full block), and the final block's implied
  zero is the end of the data.

  The stuffed bytes hold NO `0` (`zero_not_mem_cobsGo`), and the collector's decoder gets the
  data back (`cobsEncode_spec`), so the stream splits at each `0` into whole frames.
-/
import Mathlib.Data.List.Basic

namespace Feo.Tracing

/-- Raw bytes, as the worker and the socket see them. -/
abbrev Bytes := List UInt8

/-- The code byte of a block holding `run` (fewer than 255 data bytes). -/
def cobsCode (run : Bytes) : UInt8 := (run.length + 1).toUInt8

/-- `cobsGo data run`: encode `data`, where `run` holds the non-zero bytes of the block begun
    so far (fewer than 254 of them). -/
def cobsGo : Bytes → Bytes → Bytes
  | [], run => cobsCode run :: run
  | b :: rest, run =>
      if b = 0 then (cobsCode run :: run) ++ cobsGo rest []
      else if run.length + 1 = 254 then (0xFF :: (run ++ [b])) ++ cobsGo rest []
      else cobsGo rest (run ++ [b])

/-- The COBS encoding of `data`, without its `0` sentinel. -/
def cobsEncode (data : Bytes) : Bytes := cobsGo data []

example : cobsEncode [0x11, 0x00, 0x22] = [0x02, 0x11, 0x02, 0x22] := by decide

/-- The encoder's overhead: one code byte per block, so at least one, and at most one more per
    254 bytes of the open block and the data. -/
theorem length_cobsGo : ∀ (data run : Bytes), run.length < 254 →
    data.length + run.length + 1 ≤ (cobsGo data run).length ∧
      (cobsGo data run).length ≤ data.length + run.length + 1 + (data.length + run.length) / 254
  | [], run, _ => by simp [cobsGo]
  | b :: rest, run, hl => by
    have ih := length_cobsGo rest [] (by simp)
    have hdiv : rest.length / 254 ≤ (rest.length + 1 + run.length) / 254 :=
      Nat.div_le_div_right (by omega)
    unfold cobsGo
    split_ifs with hb hfull
    · -- a `0` closes the block
      simp only [List.length_append, List.length_cons, List.length_nil] at ih ⊢
      omega
    · -- a full block: the code `0xFF` and 254 data bytes
      simp only [List.length_append, List.length_cons, List.length_singleton,
        List.length_nil] at ih ⊢
      omega
    · have := length_cobsGo rest (run ++ [b]) (by simp; omega)
      simp only [List.length_append, List.length_singleton, List.length_cons, List.length_nil] at this ⊢
      omega

/-! ## Decoding -/

/-- The COBS decoder a collector runs on one frame, its `0` sentinel removed: each block is a
    code byte `n`, never `0`, and `n - 1` non-zero data bytes, standing for those bytes and,
    unless the code is `0xFF` or the block is the last, one `0` after them; `none` when a
    block has code `0`, is cut short, or holds a `0`. -/
def cobsDecode : Bytes → Option Bytes
  | [] => some []
  | code :: rest =>
      if code.toNat = 0 ∨ rest.length < code.toNat - 1 ∨ 0 ∈ rest.take (code.toNat - 1) then none
      else
        (cobsDecode (rest.drop (code.toNat - 1))).map fun d =>
          rest.take (code.toNat - 1) ++
            (if code.toNat = 0xFF ∨ rest.drop (code.toNat - 1) = [] then [] else [0]) ++ d
termination_by bytes => bytes.length
decreasing_by simp only [List.length_drop, List.length_cons]; omega

theorem cobsCode_toNat {run : Bytes} (h : run.length < 254) :
    (cobsCode run).toNat = run.length + 1 := by
  simp [cobsCode, Nat.toUInt8, UInt8.toNat, UInt8.ofNat]
  omega

theorem cobsGo_ne_nil : ∀ (data run : Bytes), cobsGo data run ≠ []
  | [], _ => by simp [cobsGo]
  | b :: rest, run => by
    unfold cobsGo
    split_ifs
    · simp
    · simp
    · exact cobsGo_ne_nil rest _

theorem cobsDecode_cons {code : UInt8} {rest : Bytes} (h0 : code.toNat ≠ 0)
    (hlen : code.toNat - 1 ≤ rest.length) (hz : 0 ∉ rest.take (code.toNat - 1)) :
    cobsDecode (code :: rest) = (cobsDecode (rest.drop (code.toNat - 1))).map fun d =>
      rest.take (code.toNat - 1) ++
        (if code.toNat = 0xFF ∨ rest.drop (code.toNat - 1) = [] then [] else [0]) ++ d := by
  rw [cobsDecode, if_neg (not_or.mpr ⟨h0, not_or.mpr ⟨by omega, hz⟩⟩)]

theorem cobsCode_ne_zero {run : Bytes} (h : run.length < 254) : cobsCode run ≠ 0 := fun h0 => by
  have := cobsCode_toNat h
  rw [h0] at this
  simp at this

/-- The encoder's output holds no `0`: code bytes count at least one, and data bytes are the
    non-zero bytes of the input. -/
theorem zero_not_mem_cobsGo : ∀ (data run : Bytes), 0 ∉ run → run.length < 254 →
    0 ∉ cobsGo data run
  | [], run, hr, hl => by
    simp only [cobsGo, List.mem_cons, not_or]
    exact ⟨(cobsCode_ne_zero hl).symm, hr⟩
  | b :: rest, run, hr, hl => by
    have hrest := zero_not_mem_cobsGo rest [] (List.not_mem_nil _) (by simp)
    unfold cobsGo
    split_ifs with hb hfull
    · -- a `0` ends the block
      simp only [List.cons_append, List.mem_cons, List.mem_append, not_or]
      exact ⟨(cobsCode_ne_zero hl).symm, hr, hrest⟩
    · -- a full block of 254 data bytes
      simp [hr, Ne.symm hb, hrest]
    · exact zero_not_mem_cobsGo rest (run ++ [b]) (by simp [hr, Ne.symm hb]) (by simp; omega)

/-- One block: a code byte counting `block`, then `block`, then what follows. -/
theorem cobsDecode_block {code : UInt8} {block tail : Bytes} (hc : code.toNat = block.length + 1)
    (hz : 0 ∉ block) :
    cobsDecode (code :: (block ++ tail)) = (cobsDecode tail).map fun d =>
      block ++ (if code.toNat = 0xFF ∨ tail = [] then [] else [0]) ++ d := by
  rw [cobsDecode_cons (by omega) (by simp; omega)
    (by rw [hc, Nat.add_sub_cancel, List.take_left' rfl]; exact hz)]
  simp only [hc, Nat.add_sub_cancel, List.take_left' rfl, List.drop_left' rfl]

/-- Decoding undoes the encoder, from any block begun with `run`. -/
theorem cobsDecode_cobsGo : ∀ (data run : Bytes), 0 ∉ run → run.length < 254 →
    cobsDecode (cobsGo data run) = some (run ++ data)
  | [], run, hr, hl => by
    have h : cobsDecode (cobsCode run :: (run ++ [])) = _ :=
      cobsDecode_block (cobsCode_toNat hl) hr
    rw [List.append_nil] at h
    rw [cobsGo, h]
    simp [cobsDecode]
  | b :: rest, run, hr, hl => by
    have ih := cobsDecode_cobsGo rest [] (List.not_mem_nil _) (by simp)
    have hne := cobsGo_ne_nil rest []
    unfold cobsGo
    split_ifs with hb hfull
    · -- a `0` ends the block, and a block follows
      subst hb
      rw [List.cons_append, cobsDecode_block (cobsCode_toNat hl) hr, ih, cobsCode_toNat hl]
      simp [hne, show run.length ≠ 254 by omega]
    · -- a full block: code `0xFF`, no `0` after it
      rw [List.cons_append,
        cobsDecode_block (show (0xFF : UInt8).toNat = (run ++ [b]).length + 1 by simp; omega)
          (by simp [hr, Ne.symm hb]), ih]
      simp
    · rw [cobsDecode_cobsGo rest (run ++ [b]) (by simp [hr, Ne.symm hb]) (by simp; omega)]
      simp

/-- **COBS round trip.**  A frame's stuffed bytes hold no `0`, and decode to the data. -/
theorem cobsEncode_spec (data : Bytes) :
    0 ∉ cobsEncode data ∧ cobsDecode (cobsEncode data) = some data :=
  ⟨zero_not_mem_cobsGo data [] (List.not_mem_nil _) (by simp),
    cobsDecode_cobsGo data [] (List.not_mem_nil _) (by simp)⟩

example : cobsDecode [0x02, 0x11, 0x02, 0x22] = some [0x11, 0x00, 0x22] :=
  (cobsEncode_spec [0x11, 0x00, 0x22]).2

end Feo.Tracing
