/-
  What a COLLECTOR reads off the socket.

  The collector is outside the repository: it reads the stream, splits it at each `0` into
  frames, and COBS-decodes each frame to a packet's serialization.  The frames the worker emits
  hold no `0` before their sentinel, so the split finds exactly the frames
  (`readFrames_frames`), and each decodes to the serialization it was made from.  With the
  stream invariant: in EVERY reachable state, under every interleaving and every socket
  behaviour, the complete frames in the bytes the socket has accepted decode to the
  serializations of the first admitted packets that fit `MAX_PACKET_SIZE`, in admission order,
  each exactly once (`collector_reads_admitted`); only the last frame may still be arriving.
-/
import Feo.Tracing.Stream

namespace Feo.Tracing

variable {Info : Type} {P : Protocol Info} {s : State Info}

/-- The collector splitting the stream at each `0`: the frames ended so far, without their
    `0`, and the bytes of the frame still arriving, which begins with `cur`. -/
def readFramesFrom (cur : Bytes) : Bytes → List Bytes × Bytes
  | [] => ([], cur)
  | b :: rest =>
      if b = 0 then (cur :: (readFramesFrom [] rest).1, (readFramesFrom [] rest).2)
      else readFramesFrom (cur ++ [b]) rest

/-- The collector's reading of a stream from its start. -/
def readFrames (bytes : Bytes) : List Bytes × Bytes := readFramesFrom [] bytes

/-- The serializations of the packets whose frames fit `MAX_PACKET_SIZE`, in order: what the
    worker puts on the wire. -/
def wirePayloads (P : Protocol Info) (ps : List (TracePacket Info)) : List Bytes :=
  ps.filterMap fun p => (toSliceCobs P p).map fun _ => P.serialize p

/-! ## Splitting the stream -/

/-- Reading a stream in two parts: the second goes on from the frame the first left open. -/
theorem readFramesFrom_append (cur l₁ l₂ : Bytes) :
    readFramesFrom cur (l₁ ++ l₂) =
      ((readFramesFrom cur l₁).1 ++ (readFramesFrom (readFramesFrom cur l₁).2 l₂).1,
        (readFramesFrom (readFramesFrom cur l₁).2 l₂).2) := by
  induction l₁ generalizing cur with
  | nil => simp [readFramesFrom]
  | cons b l ih => by_cases hb : b = 0 <;> simp [readFramesFrom, hb, ih]

/-- A frame: bytes free of `0`, then the `0` that ends it. -/
theorem readFramesFrom_frame (cur e rest : Bytes) (he : 0 ∉ e) :
    readFramesFrom cur (e ++ 0 :: rest) =
      ((cur ++ e) :: (readFrames rest).1, (readFrames rest).2) := by
  induction e generalizing cur with
  | nil => simp [readFramesFrom, readFrames]
  | cons b e ih =>
    have hb : b ≠ 0 := fun h => he (h ▸ List.mem_cons_self _ _)
    rw [List.cons_append, readFramesFrom, if_neg hb, ih _ (fun h => he (List.mem_cons_of_mem _ h))]
    simp

/-- The worker's frames split into exactly the stuffed serializations of the packets that
    fit, with nothing left over. -/
theorem readFrames_frames (ps : List (TracePacket Info)) :
    readFrames (frames P ps) = ((wirePayloads P ps).map cobsEncode, []) := by
  induction ps with
  | nil => rfl
  | cons p ps ih =>
    cases h : toSliceCobs P p with
    | none => simpa [frames_cons, frame, h, wirePayloads] using ih
    | some f =>
      obtain rfl := toSliceCobs_eq_some h
      rw [frames_cons, frame, h, Option.getD_some, List.append_assoc, List.singleton_append,
        readFrames, readFramesFrom_frame _ _ _ (cobsEncode_spec _).1, ih]
      simp [wirePayloads, h]

/-! ## What the collector decodes -/

/-- **The collector decodes the admitted packets, in order.**  In every reachable state the
    complete frames in the bytes the socket has accepted decode to the serializations of the
    first `k` admitted packets that fit `MAX_PACKET_SIZE`, for some `k`: none is lost in the
    middle, duplicated, reordered or corrupted on the way. -/
theorem collector_reads_admitted (hs : Reachable P s) :
    ∃ k, (readFrames s.delivered).1.map cobsDecode =
      ((wirePayloads P s.admitted).take k).map some := by
  obtain ⟨t, ht⟩ := (List.prefix_append _ _).trans (streamInv_reachable hs).accepted
  have h := congrArg readFrames ht
  rw [readFrames, readFramesFrom_append, ← readFrames, readFrames_frames] at h
  have hpre : (readFrames s.delivered).1 <+: (wirePayloads P s.admitted).map cobsEncode :=
    ⟨_, (Prod.mk.inj h).1⟩
  refine ⟨(readFrames s.delivered).1.length,
    (congrArg (List.map cobsDecode) (List.prefix_iff_eq_take.mp hpre)).trans ?_⟩
  rw [← List.map_take, List.map_map]
  exact List.map_congr_left fun d _ => (cobsEncode_spec d).2

/-- One `record` packet, framed, flushed and accepted whole by the socket. -/
theorem collector_reads_admitted_flushed :
    ∃ s, run demoProtocol init [.connect true, .tick (flushInterval + 1), .call 0 (.record 1),
        .thread 0, .thread 0, .worker, .worker, .worker, .worker, .socket (.ok 5)] = some s ∧
      s.delivered = [2, 7, 2, 9, 0] ∧
      ∃ k, (readFrames s.delivered).1.map cobsDecode =
        ((wirePayloads demoProtocol s.admitted).take k).map some :=
  ⟨_, rfl, rfl, collector_reads_admitted (reachable_run (rfl : run demoProtocol init
    [.connect true, .tick (flushInterval + 1), .call 0 (.record 1), .thread 0, .thread 0,
      .worker, .worker, .worker, .worker, .socket (.ok 5)] = _))⟩

end Feo.Tracing
