/-
  The pipeline delivers EXACTLY the admitted packets' frames, in admission order.

  Let `frames admitted` be the concatenation of the frames of all packets the channel ever
  admitted, in admission order (a packet that does not fit `MAX_PACKET_SIZE` has the empty
  frame).  Then in EVERY reachable state, under every interleaving of producers and worker and
  every pattern of partial, interrupted and failing socket writes:

  * the bytes the socket accepted are a prefix of `frames admitted`;
  * while the worker streams, the accepted bytes, then the bytes the `BufWriter` still holds,
    then the rest of the frame in hand, then the frames of the queued packets in queue order,
    are `frames admitted` exactly.

  So no byte is lost, duplicated or reordered between `send` and the socket while the worker is
  healthy, and after a failure the socket has seen a prefix.  The proof is one invariant
  (`StreamInv`) preserved by each kind of step: a producer's step appends one frame to both
  sides, a worker step moves bytes from the queue to the frame in hand to the buffer to the
  socket without changing their concatenation, and a failure gives up the equation but keeps the
  prefix.  Two facts about the buffer carry the direct-write branch of `write_all_cold`: the
  buffer never exceeds its capacity, and it is EMPTY whenever a frame goes straight to the
  socket, so that frame cannot overtake buffered bytes.
-/
import Feo.Tracing.Steps

namespace Feo.Tracing

variable {Info : Type} {P : Protocol Info} {s s' : State Info}

/-- The worker is in the streaming loop of `thread_main`: connected, and no error returned. -/
def Worker.streaming : Worker Info → Bool
  | .recv | .serialize _ | .writeAll _ | .writeDirect _ | .checkFlush => true
  | .flushBuf _ (.writeAllCold _) | .flushBuf _ .flush => true
  | _ => false

/-- The worker has not failed: it is connecting or streaming. -/
def Worker.live : Worker Info → Bool
  | .connecting => true
  | w => w.streaming

/-- The bytes the `BufWriter` holds for the socket: its buffer less what the running
    `flush_buf` has written; nothing before the `BufWriter` exists or after it is dropped. -/
def Worker.held : Worker Info → Bytes → Bytes
  | .connecting, _ | .disable false, _ | .exited _, _ => []
  | .flushBuf written _, buf => buf.drop written
  | _, buf => buf

/-- The bytes of the packet in hand that the socket has not yet seen. -/
def Worker.pending (P : Protocol Info) : Worker Info → Bytes
  | .serialize packet => frame P packet
  | .writeAll f | .flushBuf _ (.writeAllCold f) | .writeDirect f => f
  | _ => []

/-- Accepted, held, in hand, queued: everything on its way to the socket, in order. -/
def State.stream (P : Protocol Info) (s : State Info) : Bytes :=
  s.delivered ++ s.worker.held s.buf ++ s.worker.pending P ++ frames P s.queue

/-- The invariant of the byte stream. -/
structure StreamInv (P : Protocol Info) (s : State Info) : Prop where
  live : s.worker.live → s.stream P = frames P s.admitted
  accepted : s.delivered ++ s.worker.held s.buf <+: frames P s.admitted
  bounded : s.buf.length ≤ bufwriterSize P
  direct : ∀ rest, s.worker = .writeDirect rest → s.buf = []

theorem streamInv_init : StreamInv P (init : State Info) :=
  ⟨fun _ => rfl, ⟨[], rfl⟩, Nat.zero_le _, fun _ h => nomatch h⟩

/-! ## Producer steps: one frame more on both sides -/

/-- A step that leaves the worker's side alone and appends the same packets to the queue and
    to the admission history keeps the invariant. -/
theorem StreamInv.admit (h : StreamInv P s) (qs : List (TracePacket Info))
    (hw : s'.worker = s.worker) (hb : s'.buf = s.buf) (hd : s'.delivered = s.delivered)
    (hq : s'.queue = s.queue ++ qs) (ha : s'.admitted = s.admitted ++ qs) : StreamInv P s' where
  live hl := by
    have e := h.live (hw ▸ hl)
    unfold State.stream at e ⊢
    rw [hw, hb, hd, hq, ha, frames_append, frames_append, ← e]
    simp
  accepted := by
    rw [hw, hb, hd, ha, frames_append]
    exact h.accepted.trans (List.prefix_append _ _)
  bounded := hb ▸ h.bounded
  direct r hr := hb ▸ h.direct r (hw ▸ hr)

theorem streamInv_callStart (h : StreamInv P s) (t : Nat) (c : Call Info) :
    StreamInv P (callStart P s t c) :=
  have hp : ProducerOnly s (callStart P s t c) := callStart_producerOnly c t
  h.admit [] hp.worker hp.buf hp.delivered (by simp) (by simp)

theorem StreamInv.thread {t : Nat} (h : StreamInv P s) (hm : ThreadMove P s t s') :
    StreamInv P s' := by
  have hp := hm.producerOnly
  rcases hm.channel with ⟨hq, ha⟩ | ⟨-, p, hq, ha⟩
  · exact h.admit [] hp.worker hp.buf hp.delivered (by simp [hq]) (by simp [ha])
  · exact h.admit [p] hp.worker hp.buf hp.delivered hq ha

/-! ## Worker steps: bytes move along, or the worker gives up -/

/-- A worker step that stays live and keeps the stream. -/
theorem StreamInv.keep (h : StreamInv P s) (ha : s'.admitted = s.admitted)
    (hl : s.worker.live) (he : s'.stream P = s.stream P) (hb : s'.buf.length ≤ bufwriterSize P)
    (hd : ∀ rest, s'.worker = .writeDirect rest → s'.buf = []) : StreamInv P s' where
  live _ := by rw [he, ha, h.live hl]
  accepted := by
    rw [ha, ← h.live hl, ← he, State.stream]
    exact (List.prefix_append _ _).trans (List.prefix_append _ _)
  bounded := hb
  direct := hd

/-- A worker step after which the worker has failed: what the socket accepted and what is still
    held stay a prefix of what they were. -/
theorem StreamInv.fail (h : StreamInv P s) (ha : s'.admitted = s.admitted)
    (hl' : s'.worker.live = false)
    (hp : s'.delivered ++ s'.worker.held s'.buf <+: s.delivered ++ s.worker.held s.buf)
    (hb : s'.buf.length ≤ bufwriterSize P) : StreamInv P s' where
  live hl := by simp [hl'] at hl
  accepted := ha ▸ hp.trans h.accepted
  bounded := hb
  direct r hr := by simp [hr, Worker.live, Worker.streaming] at hl'

/-- The tail of `write_all_cold`, from a state `s₀` the worker reached from `s` without moving a
    byte: the frame goes into the buffer when it has room, or straight to the socket when the
    buffer is empty. -/
theorem StreamInv.writeCold {s₀ : State Info} (h : StreamInv P s) (frame : Bytes)
    (ha : s₀.admitted = s.admitted) (hl : s.worker.live)
    (he : s₀.delivered ++ s₀.buf ++ frame ++ frames P s₀.queue = s.stream P)
    (hroom : writesDirect (bufwriterSize P) frame = false →
      s₀.buf.length + frame.length ≤ bufwriterSize P)
    (hdir : writesDirect (bufwriterSize P) frame = true → s₀.buf = []) :
    StreamInv P (s₀.writeCold P frame) := by
  unfold State.writeCold
  split
  · next hd =>
    refine h.keep ha hl (by simpa [State.stream, Worker.held, Worker.pending] using he) ?_
      (fun _ _ => hdir hd)
    simp [hdir hd]
  · next hd =>
    refine h.keep ha hl ?_ ?_ (fun _ hr => nomatch hr)
    · simpa [State.stream, State.append, Worker.held, Worker.pending] using he
    · simpa [State.append] using hroom (by simpa using hd)

/-- Every move of the worker keeps the invariant: bytes move from the queue to the frame in
    hand, to the buffer, to the socket, without changing their concatenation; or the worker
    gives up, and what the socket accepted stays a prefix. -/
theorem StreamInv.move (h : StreamInv P s) (hm : WorkerMove P s s') : StreamInv P s' := by
  cases hm with
  | connected hw =>
    exact h.keep rfl (by simp [hw, Worker.live])
      (by simp [State.stream, Worker.held, Worker.pending, hw]) (by simp) (fun _ hr => nomatch hr)
  | recv hw hq =>
    -- the head of the queue becomes the packet in hand
    exact h.keep rfl (by simp [hw, Worker.live, Worker.streaming])
      (by simp [State.stream, Worker.held, Worker.pending, hw, hq]) h.bounded
      (fun _ hr => nomatch hr)
  | encoded hw hf | encodeFailed hw hf =>
    -- the packet in hand becomes its frame, or nothing when it does not encode
    exact h.keep rfl (by simp [hw, Worker.live, Worker.streaming])
      (by simp [State.stream, Worker.held, Worker.pending, hw, frame, hf]) h.bounded
      (fun _ hr => nomatch hr)
  | buffered hw hp =>
    -- room in the buffer
    have := writeAllPath_buffer hp
    refine h.keep rfl (by simp [hw, Worker.live, Worker.streaming]) ?_ ?_ (fun _ hr => nomatch hr)
    · simp [State.stream, State.append, Worker.held, Worker.pending, hw]
    · simp only [State.append, List.length_append]; omega
  | cold hw hp =>
    -- exactly the spare capacity: no flush
    have hc := writeAllPath_cold hp
    have hb := h.bounded
    refine h.writeCold _ rfl (by simp [hw, Worker.live, Worker.streaming])
      (by simp [State.stream, Worker.held, Worker.pending, hw]) (fun _ => by omega) (fun hd => ?_)
    simp only [writesDirect, decide_eq_true_eq] at hd
    exact List.eq_nil_of_length_eq_zero (by omega)
  | @flushed w c hw hb =>
    have hd : s.buf.drop w = [] := List.drop_eq_nil_of_le hb
    cases c with
    | writeAllCold f =>
      refine h.writeCold f rfl (by simp [hw, Worker.live, Worker.streaming])
        (by simp [State.stream, Worker.held, Worker.pending, hw, hd]) (fun hn => ?_) (fun _ => rfl)
      simp only [writesDirect, decide_eq_false_iff_not] at hn
      simp; omega
    | flush =>
      exact h.keep rfl (by simp [hw, Worker.live, Worker.streaming])
        (by simp [State.flushed, State.stream, Worker.held, Worker.pending, hw, hd])
        (by simp [State.flushed]) (fun _ hr => nomatch hr)
    | drop p =>
      exact h.fail rfl rfl (by simp [State.flushed, State.exit, Worker.held, hw, hd])
        (by simp [State.flushed, State.exit])
  | @flushWrote w n c hw hn hle =>
    -- `n` bytes move from what `flush_buf` holds to the socket
    have hmove : s.delivered ++ (s.buf.drop w).take n ++ s.buf.drop (w + n) =
        s.delivered ++ s.buf.drop w := by
      rw [← List.drop_drop, List.append_assoc, List.take_append_drop]
    cases c with
    | drop p =>
      refine h.fail rfl rfl ?_ h.bounded
      simp only [Worker.held, hw]
      exact hmove ▸ List.prefix_refl _
    | writeAllCold | flush =>
      refine h.keep rfl (by simp [hw, Worker.live, Worker.streaming]) ?_ h.bounded
        (fun _ hr => nomatch hr)
      simp only [State.stream, Worker.held, Worker.pending, hw]
      rw [hmove]
  | @flushFailed w c hw hp =>
    -- `flush_buf` gives up; its guard drains what it wrote
    have hb : (s.buf.drop w).length ≤ bufwriterSize P := by
      rw [List.length_drop]; have := h.bounded; omega
    cases c <;> refine h.fail rfl rfl ?_ (by simpa [State.flushFailed, State.exit] using hb)
    all_goals simp [State.flushFailed, State.exit, Worker.held, hw]
  | directWrote hw hn hle =>
    -- bytes of the frame go straight to the socket; the buffer is empty
    have hb := h.direct _ hw
    exact h.keep rfl (by simp [hw, Worker.live, Worker.streaming])
      (by simp [State.stream, Worker.held, Worker.pending, hw, hb]) h.bounded (fun _ _ => hb)
  | directFailed hw hr =>
    exact h.fail rfl rfl (by simp [Worker.held, hw, h.direct _ hw]) h.bounded
  | flushFirst hw _ | directDone hw | flushDue hw _ | flushNotDue hw _ =>
    exact h.keep rfl (by simp [hw, Worker.live, Worker.streaming])
      (by simp [State.stream, Worker.held, Worker.pending, hw]) h.bounded (fun _ hr => nomatch hr)
  | connectFailed hw | disableWriter hw =>
    exact h.fail rfl rfl (by simp [Worker.held, hw]) h.bounded
  | disableReturn hw => exact h.fail rfl rfl (by simp [State.exit, Worker.held, hw]) h.bounded
  | retry => exact h

/-! ## Every reachable state -/

theorem streamInv_step {a : Action Info} (h : StreamInv P s) (hs : step P s a = some s') :
    StreamInv P s' := by
  rcases step_cases hs with ⟨ns, rfl⟩ | ⟨t, c, -, -, rfl⟩ | ⟨t, ht⟩ | hm
  · exact h.admit [] rfl rfl rfl (by simp) (by simp)
  · exact streamInv_callStart h t c
  · exact h.thread ht
  · exact h.move hm

theorem streamInv_reachable {allowed : State Info → Action Info → Prop}
    (hs : ReachableBy P allowed s) : StreamInv P s :=
  hs.invariant streamInv_init fun h _ hst => streamInv_step h hst

/-- **The socket sees the admitted frames, in admission order.**  In every reachable state the
    accepted bytes are a prefix of the admitted packets' frames; while the worker streams, the
    accepted bytes, the bytes the `BufWriter` holds, the rest of the frame in hand and the
    queued packets' frames make up exactly those frames. -/
theorem delivered_frames_in_order (hs : Reachable P s) :
    s.delivered <+: frames P s.admitted ∧
      (s.worker.streaming →
        s.delivered ++ s.worker.held s.buf ++ s.worker.pending P ++ frames P s.queue =
          frames P s.admitted) := by
  have h := streamInv_reachable hs
  refine ⟨(List.prefix_append _ _).trans h.accepted, fun hst => h.live ?_⟩
  cases hw : s.worker <;> simp_all [Worker.live]

/-- One `record` after the flush interval: its frame is buffered, the periodic flush starts, and
    the socket accepts three of the five bytes; the other two are still held. -/
def partialFlushRun : List (Action Unit) :=
  [.connect true, .tick (flushInterval + 1), .call 0 (.record 1), .thread 0, .thread 0,
    .worker, .worker, .worker, .worker, .socket (.ok 3)]

theorem delivered_frames_in_order_demo :
    ∃ s, run demoProtocol init partialFlushRun = some s ∧
      s.delivered = [2, 7, 2] ∧ s.worker.held s.buf = [9, 0] ∧
      s.delivered <+: frames demoProtocol s.admitted ∧
      (s.worker.streaming →
        s.delivered ++ s.worker.held s.buf ++ s.worker.pending demoProtocol ++
          frames demoProtocol s.queue = frames demoProtocol s.admitted) := by
  obtain ⟨s, hs⟩ : ∃ s, run demoProtocol init partialFlushRun = some s := ⟨_, rfl⟩
  have hd : s.delivered = [2, 7, 2] ∧ s.worker.held s.buf = [9, 0] := by
    simp only [Option.some.inj hs.symm]; exact ⟨rfl, rfl⟩
  exact ⟨s, hs, hd.1, hd.2, delivered_frames_in_order (reachable_run hs)⟩

end Feo.Tracing
