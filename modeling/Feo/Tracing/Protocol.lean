/-
  The trace-packet PROTOCOL the subscriber speaks: the closed `TraceData` variant set, the
  `TracePacket` envelope, name truncation, and `postcard::to_slice_cobs`.

  The subscriber imports all of it from `crate::protocol`, which is NOT among the sources.  The
  variant set and the envelope follow the spec's data model; what the spec leaves open is a field
  of `Protocol`: the two size constants and postcard's (schema-less) encoding of a packet.  The
  structured field set `EventInfo` is the type parameter `Info`.  No theorem about the pipeline
  depends on these parameters: it holds for every protocol.
-/
import Feo.Tracing.Cobs

namespace Feo.Tracing

/-- `TraceData`: what one packet reports.  `newSpan` CREATES its id; the other variants REFER to
    a span already created. -/
inductive TraceData (Info : Type) where
  | newSpan (id : UInt64) (name : Bytes) (nameLen : Nat) (info : Info)
  | record (span : UInt64)
  | event (parentSpan : Option UInt64) (name : Bytes) (nameLen : Nat) (info : Info)
  | enter (span : UInt64)
  | exit (span : UInt64)
  deriving DecidableEq, Repr

/-- `TracePacket`: a capture timestamp, whether process context was captured with it, and the
    payload. -/
structure TracePacket (Info : Type) where
  timestamp : Nat
  withProcess : Bool
  data : TraceData Info
  deriving DecidableEq, Repr

variable {Info : Type}

/-- Modelled from the spec: `TracePacket::now_with_data` stamps the payload with the clock and
    captures process context (span creation, records, events). -/
def TracePacket.nowWithData (clock : Nat) (data : TraceData Info) : TracePacket Info :=
  ⟨clock, true, data⟩

/-- Modelled from the spec: `TracePacket::now_without_process`, the cheaper capture used on the
    hot enter/exit path. -/
def TracePacket.nowWithoutProcess (clock : Nat) (data : TraceData Info) : TracePacket Info :=
  ⟨clock, false, data⟩

/-- The longest prefix of `cs` whose UTF-8 encoding fits in `room` bytes. -/
def fitChars : List Char → Nat → List Char
  | [], _ => []
  | c :: cs, room => if c.utf8Size ≤ room then c :: fitChars cs (room - c.utf8Size) else []

/-- Modelled from the spec: `protocol::truncate` copies `name` into a zeroed buffer of
    `capacity` bytes, cut at the last character boundary that fits, and returns the buffer with
    the number of bytes kept. -/
def truncate (capacity : Nat) (name : String) : Bytes × Nat :=
  let kept := (fitChars name.data capacity).flatMap String.utf8EncodeChar
  (kept ++ List.replicate (capacity - kept.length) 0, kept.length)

/-- The parts of the missing `protocol` module the subscriber depends on. -/
structure Protocol (Info : Type) where
  /-- `MAX_PACKET_SIZE`: the serialization buffer, in bytes. -/
  maxPacketSize : Nat
  /-- `MAX_INFO_SIZE`: the capacity of a name buffer. -/
  maxInfoSize : Nat
  /-- postcard's encoding of a packet, before framing. -/
  serialize : TracePacket Info → Bytes

/-- `postcard::to_slice_cobs(&packet, &mut buffer[..])` with `buffer : [u8; MAX_PACKET_SIZE]`:
    the stuffed encoding and its `0` sentinel, or `SerializeBufferFull` (`none`) when they do
    not fit the buffer. -/
def toSliceCobs (P : Protocol Info) (packet : TracePacket Info) : Option Bytes :=
  let framed := cobsEncode (P.serialize packet) ++ [0]
  if framed.length ≤ P.maxPacketSize then some framed else none

theorem toSliceCobs_eq_some {P : Protocol Info} {packet : TracePacket Info} {framed : Bytes}
    (h : toSliceCobs P packet = some framed) : framed = cobsEncode (P.serialize packet) ++ [0] := by
  unfold toSliceCobs at h
  dsimp only at h
  split at h
  · exact (Option.some.inj h).symm
  · cases h

/-- **Which packets are framed.**  `to_slice_cobs` adds to a packet's postcard encoding one COBS
    code byte per block, at least one and at most one more per 254 bytes, and the `0` sentinel.
    So a packet whose encoding has `n` bytes is framed, into `n + 2` to `n + n / 254 + 2` bytes,
    whenever `n + n / 254 + 2 ≤ MAX_PACKET_SIZE`; and it is dropped (`SerializeBufferFull`)
    whenever `MAX_PACKET_SIZE < n + 2`. -/
theorem toSliceCobs_frames (P : Protocol Info) (packet : TracePacket Info) :
    ((P.serialize packet).length + (P.serialize packet).length / 254 + 2 ≤ P.maxPacketSize →
      ∃ framed, toSliceCobs P packet = some framed ∧
        (P.serialize packet).length + 2 ≤ framed.length ∧
        framed.length ≤ (P.serialize packet).length + (P.serialize packet).length / 254 + 2) ∧
    (P.maxPacketSize < (P.serialize packet).length + 2 → toSliceCobs P packet = none) := by
  have h := length_cobsGo (P.serialize packet) [] (by simp)
  simp only [List.length_nil, Nat.add_zero] at h
  have hlen : (cobsEncode (P.serialize packet) ++ [0]).length =
      (cobsGo (P.serialize packet) []).length + 1 := by simp [cobsEncode]
  unfold toSliceCobs
  refine ⟨fun hfit => ⟨_, if_pos (by omega), by omega, by omega⟩, fun hbig => if_neg (by omega)⟩

/-- A three-byte encoding frames into five bytes of a 64-byte buffer. -/
theorem toSliceCobs_frames_small :
    ∃ framed, toSliceCobs (⟨64, 8, fun _ => [7, 0, 9]⟩ : Protocol Unit)
        ⟨0, true, .record 1⟩ = some framed ∧ 3 + 2 ≤ framed.length ∧ framed.length ≤ 3 + 3 / 254 + 2 :=
  (toSliceCobs_frames (⟨64, 8, fun _ => [7, 0, 9]⟩ : Protocol Unit) ⟨0, true, .record 1⟩).1
    (by decide)

/-- The bytes the worker emits for a packet: its frame, or nothing when it does not encode
    (the worker logs and drops it). -/
def frame (P : Protocol Info) (packet : TracePacket Info) : Bytes :=
  (toSliceCobs P packet).getD []

/-- The frames of a run of packets, back to back. -/
def frames (P : Protocol Info) (packets : List (TracePacket Info)) : Bytes :=
  (packets.map (frame P)).flatten

@[simp] theorem frames_nil (P : Protocol Info) : frames P [] = [] := rfl

@[simp] theorem frames_cons (P : Protocol Info) (p : TracePacket Info) (ps) :
    frames P (p :: ps) = frame P p ++ frames P ps := rfl

@[simp] theorem frames_append (P : Protocol Info) (ps qs : List (TracePacket Info)) :
    frames P (ps ++ qs) = frames P ps ++ frames P qs := by
  simp [frames]

end Feo.Tracing
