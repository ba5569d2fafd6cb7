/-
  BACKPRESSURE, and the pipeline's memory staying BOUNDED.

  `sync_channel(MPSC_CHANNEL_BOUND)` holds at most 512 packets: `sender.send` blocks while the
  channel is full and the receiver alive, and only the worker makes room, by `recv` or by
  returning, which drops the receiver with the channel's contents.  The `BufWriter` holds at
  most `BUFWRITER_SIZE` bytes: `write_all` buffers a frame only while it fits, a frame that does
  not fit flushes the buffer first, and one at least as long as the whole buffer goes to the
  socket directly.  Both bounds hold in EVERY reachable state (`memory_bounded`); the
  buffer's is part of the stream invariant (`StreamInv.bounded`).

  So demand beyond the channel's capacity is never discarded: the producer WAITS
  (`producer_waits_on_full_channel`).  The only place a producer with work to do waits is
  `sender.send` on a full channel with the receiver alive, and every step that makes room in
  the channel is a step of the worker.

  The wait is not only a healthy pipeline's.  A worker that has failed and is leaving through
  the `BufWriter`'s `Drop` drains the channel no more, yet holds the receiver until the socket
  answers `Drop`'s write; a producer on the full channel waits all that time
  (`producer_waits_on_failed_worker`), with the latch still set when the failure was the
  periodic flush's.
-/
import Feo.Tracing.Stream
import Feo.Tracing.Failure

namespace Feo.Tracing

variable {Info : Type} {P : Protocol Info} {s s' : State Info}

/-! ## Bounded memory -/

/-- The worker takes packets only from the front of the channel, or drops them all with the
    receiver. -/
theorem WorkerMove.queue_suffix (hm : WorkerMove P s s') : s'.queue <:+ s.queue := by
  cases hm
  case recv _ _ _ hq => rw [hq]; exact List.suffix_cons _ _
  case cold => unfold State.writeCold State.append; split <;> exact List.suffix_refl _
  case flushed c _ _ =>
    cases c
    case writeAllCold =>
      simp only [State.flushed]
      unfold State.writeCold State.append
      split <;> exact List.suffix_refl _
    case flush => exact List.suffix_refl _
    case drop => exact List.nil_suffix
  case flushFailed c _ _ =>
    cases c
    case drop => exact List.nil_suffix
    all_goals exact List.suffix_refl _
  case disableReturn => exact List.nil_suffix
  all_goals exact List.suffix_refl _

/-- A producer's step admits a packet only while the channel has room. -/
theorem ThreadMove.queue_bounded {t : Nat} (ht : ThreadMove P s t s')
    (h : s.queue.length ≤ mpscChannelBound) : s'.queue.length ≤ mpscChannelBound := by
  cases ht
  case sent hq =>
    show (s.queue ++ [_]).length ≤ _
    rw [List.length_append, List.length_singleton]
    omega
  case alloc => rw [allocSpan_eq]; exact h
  all_goals exact h

theorem queue_bounded_step {a : Action Info} (h : s.queue.length ≤ mpscChannelBound)
    (hst : step P s a = some s') : s'.queue.length ≤ mpscChannelBound := by
  rcases step_cases hst with ⟨ns, rfl⟩ | ⟨t, c, -, -, rfl⟩ | ⟨t, ht⟩ | hm
  · exact h
  · simpa using h
  · exact ht.queue_bounded h
  · exact hm.queue_suffix.length_le.trans h

theorem queue_bounded_reachable {allowed : State Info → Action Info → Prop}
    (hs : ReachableBy P allowed s) : s.queue.length ≤ mpscChannelBound :=
  @ReachableBy.invariant Info P allowed (fun s => s.queue.length ≤ mpscChannelBound)
    (Nat.zero_le _) (fun h _ hst => queue_bounded_step h hst) s hs

/-- **The pipeline's memory stays bounded.**  In every reachable state, under every schedule of
    the producers and the worker and every behaviour of the socket, the channel holds at most
    `MPSC_CHANNEL_BOUND` packets and the `BufWriter` at most `BUFWRITER_SIZE` bytes. -/
theorem memory_bounded (hs : Reachable P s) :
    s.queue.length ≤ mpscChannelBound ∧ s.buf.length ≤ bufwriterSize P :=
  ⟨queue_bounded_reachable hs, (streamInv_reachable hs).bounded⟩

/-- A `record` call whose packet waits in the channel. -/
theorem memory_bounded_one_queued :
    ∃ s, run demoProtocol init [.connect true, .call 0 (.record 1), .thread 0, .thread 0] = some s ∧
      s.queue.length = 1 ∧
      (s.queue.length ≤ mpscChannelBound ∧ s.buf.length ≤ bufwriterSize demoProtocol) :=
  ⟨_, rfl, rfl, memory_bounded (reachable_run
    (rfl : run demoProtocol init [.connect true, .call 0 (.record 1), .thread 0, .thread 0] = _))⟩

/-! ## Backpressure -/

/-- Only the worker takes packets out of the channel. -/
theorem queue_shrinks_by_worker {a : Action Info} (hst : step P s a = some s')
    (hlt : s'.queue.length < s.queue.length) : WorkerMove P s s' := by
  rcases step_cases hst with ⟨ns, rfl⟩ | ⟨t, c, -, -, rfl⟩ | ⟨t, ht⟩ | hm
  · exact absurd hlt (Nat.lt_irrefl _)
  · simp at hlt
  · rcases ht.channel with ⟨hq, -⟩ | ⟨-, p, hq, -⟩ <;>
      simp only [hq, List.length_append, List.length_singleton] at hlt <;> omega
  · exact hm

/-- **A producer waits only on a full channel, and only the worker ends the wait.**  A producer
    thread with work to do always has a step, except at `sender.send` while the channel holds
    `MPSC_CHANNEL_BOUND` packets and the worker holds the receiver: there it blocks, and the
    packet is not dropped.  And from a full channel, every step that leaves room is a step of
    the worker. -/
theorem producer_waits_on_full_channel (t : Nat) :
    (threadStep P s t = none ↔
      s.threads t = .idle ∨ s.threads t = .panicked ∨
        ∃ p ret, s.threads t = .enqueue p ret ∧ s.receiverAlive = true ∧
          mpscChannelBound ≤ s.queue.length) ∧
    (mpscChannelBound ≤ s.queue.length → ∀ a s', step P s a = some s' →
      s'.queue.length < mpscChannelBound → WorkerMove P s s') := by
  refine ⟨?_, fun hfull _ _ hst hlt => queue_shrinks_by_worker hst (by omega)⟩
  unfold threadStep
  cases hp : s.threads t with
  | idle | panicked | newSpan | disable => simp
  | send => cases s.enabled <;> simp
  | enqueue p ret =>
    -- `sender.send` fails on a dropped receiver, and blocks on a full channel
    cases hr : s.receiverAlive
    · simp [hr]
    · simp only [hr, Bool.not_true, Bool.false_eq_true, if_false]
      split <;> simp <;> omega

/-! ## Waiting on a failed worker -/

/-- `sender.send` blocks on a full channel while the receiver is alive. -/
theorem threadStep_full {t : Nat} {p : TracePacket Info} {ret : Option UInt64}
    (ht : s.threads t = .enqueue p ret) (hr : s.receiverAlive = true)
    (hq : mpscChannelBound ≤ s.queue.length) : threadStep P s t = none := by
  simp [threadStep, ht, hr, Nat.not_lt.mpr hq]

/-- Where a producer waits on a worker that is leaving through the `BufWriter`'s `Drop`. -/
structure WaitsOnDrop (s : State Info) (t w : Nat) (panicking : Bool) (p : TracePacket Info)
    (ret : Option UInt64) : Prop where
  worker : s.worker = .flushBuf w (.drop panicking)
  pending : s.buf.drop w ≠ []
  receiver : s.receiverAlive = true
  full : mpscChannelBound ≤ s.queue.length
  waiting : s.threads t = .enqueue p ret

theorem WaitsOnDrop.step {t w : Nat} {pk : Bool} {p : TracePacket Info} {ret : Option UInt64}
    {a : Action Info} (h : WaitsOnDrop s t w pk p ret) (hst : step P s a = some s')
    (ha : ∀ r, a ≠ .socket r) : WaitsOnDrop s' t w pk p ret := by
  cases a with
  | tick ns =>
    cases hst
    exact ⟨h.worker, h.pending, h.receiver, h.full, h.waiting⟩
  | call t' c =>
    -- another producer enters the façade
    simp only [Feo.Tracing.step] at hst
    split at hst
    · next hi =>
      cases hst
      have hne : t ≠ t' := by rintro rfl; rw [h.waiting] at hi; cases hi
      have hp : ProducerOnly s (callStart P s t' c) := callStart_producerOnly c t'
      exact ⟨hp.worker.trans h.worker, by rw [hp.buf]; exact h.pending,
        hp.receiverAlive.trans h.receiver, by rw [callStart_queue]; exact h.full,
        (callStart_threads_ne c hne).trans h.waiting⟩
    · cases hst
  | thread t' =>
    by_cases hne : t = t'
    · -- the waiting producer itself has no step
      subst hne
      rw [show Feo.Tracing.step P s (.thread t) = threadStep P s t from rfl,
        threadStep_full h.waiting h.receiver h.full] at hst
      cases hst
    · -- another producer moves; it cannot make room in the channel
      have ht := threadStep_move hst
      have hp := ht.producerOnly
      refine ⟨hp.worker.trans h.worker, by rw [hp.buf]; exact h.pending,
        hp.receiverAlive.trans h.receiver, ?_, (ht.threads_ne hne).trans h.waiting⟩
      have := h.full
      rcases ht.channel with ⟨hq, -⟩ | ⟨-, q, hq, -⟩ <;> rw [hq]
      · exact this
      · rw [List.length_append]; omega
  | worker =>
    -- `flush_buf` in `Drop` waits on the socket
    have hlt : w < s.buf.length := by have := h.pending; simpa using this
    simp only [Feo.Tracing.step, workerStep, h.worker] at hst
    rw [if_neg (by omega)] at hst
    cases hst
  | connect ok => simp [Feo.Tracing.step, connectStep, h.worker] at hst
  | socket r => exact absurd rfl (ha r)

/-- Every run without a socket result keeps the producer waiting. -/
theorem WaitsOnDrop.run_keeps {t w : Nat} {pk : Bool} {p : TracePacket Info} {ret : Option UInt64} :
    ∀ {as : List (Action Info)} {s s' : State Info}, WaitsOnDrop s t w pk p ret →
      (∀ a ∈ as, ∀ r, a ≠ .socket r) → run P s as = some s' → WaitsOnDrop s' t w pk p ret
  | [], _, _, h, _, hrun => by cases hrun; exact h
  | a :: as, s, s', h, hno, hrun => by
    simp only [Feo.Tracing.run, Option.bind_eq_some] at hrun
    obtain ⟨s₁, hst, hrun⟩ := hrun
    exact WaitsOnDrop.run_keeps (h.step hst (hno a (List.mem_cons_self _ _)))
      (fun b hb => hno b (List.mem_cons_of_mem _ hb)) hrun

/-- **A failed worker can keep a producer waiting.**  While the worker is in the
    `BufWriter`'s `Drop`, on its way out of `thread_main` after an error, with bytes still to
    write, the channel full and a producer at `sender.send`: no run without a socket result
    ends the wait, whatever the other producers do.  The worker no longer drains the channel;
    only the socket's answer to `Drop`'s write, and the drop of the receiver after it, lets
    the producer on. -/
theorem producer_waits_on_failed_worker {t w : Nat} {panicking : Bool} {p : TracePacket Info}
    {ret : Option UInt64} (hw : s.worker = .flushBuf w (.drop panicking))
    (hb : s.buf.drop w ≠ []) (hr : s.receiverAlive = true)
    (hq : mpscChannelBound ≤ s.queue.length) (ht : s.threads t = .enqueue p ret) :
    ∀ as s', (∀ a ∈ as, ∀ r, a ≠ .socket r) → run P s as = some s' →
      s'.worker = s.worker ∧ s'.threads t = .enqueue p ret ∧ threadStep P s' t = none := by
  intro as s' hno hrun
  have h' := WaitsOnDrop.run_keeps ⟨hw, hb, hr, hq, ht⟩ hno hrun
  exact ⟨h'.worker.trans hw.symm, h'.waiting, threadStep_full h'.waiting h'.receiver h'.full⟩

/-- A `record` call on an idle thread, with the latch set and room in the channel: the channel
    admits its packet, and the thread is idle again. -/
theorem run_record {t : Nat} (span : UInt64) (hi : s.threads t = .idle) (he : s.enabled = true)
    (hr : s.receiverAlive = true) (hq : s.queue.length < mpscChannelBound) :
    run P s [.call t (.record span), .thread t, .thread t] = some { s with
      queue := s.queue ++ [.nowWithData s.clock (.record span)],
      admitted := s.admitted ++ [.nowWithData s.clock (.record span)] } := by
  simp [run, step, hi, callStart, Subscriber.record, threadStep, State.setPc, State.finish, he, hr,
    hq]

/-- A `record` call on thread `0` whose packet the channel admits. -/
def recordRun : List (Action Info) := [.call 0 (.record 1), .thread 0, .thread 0]

theorem run_recordRun (hi : s.threads 0 = .idle) (he : s.enabled = true)
    (hr : s.receiverAlive = true) (hq : s.queue.length < mpscChannelBound) :
    run P s recordRun = some { s with
      queue := s.queue ++ [.nowWithData s.clock (.record 1)],
      admitted := s.admitted ++ [.nowWithData s.clock (.record 1)] } :=
  run_record 1 hi he hr hq

/-- `n` `record` calls on thread `0` fill the channel by `n` packets. -/
theorem run_recordRuns (n : Nat) : ∀ {s : State Info}, s.threads 0 = .idle → s.enabled = true →
    s.receiverAlive = true → s.queue.length + n ≤ mpscChannelBound →
    run P s (List.replicate n recordRun).flatten = some { s with
      queue := s.queue ++ List.replicate n (.nowWithData s.clock (.record 1)),
      admitted := s.admitted ++ List.replicate n (.nowWithData s.clock (.record 1)) } := by
  induction n with
  | zero => intro s _ _ _ _; simp [run]
  | succ n ih =>
    intro s hi he hr hq
    rw [List.replicate_succ, List.flatten_cons, run_append, run_recordRun hi he hr (by omega),
      Option.some_bind, ih]
    · simp [List.replicate_succ]
    all_goals first | assumption | (simp; omega)

/-- On `flushDueRun` the periodic flush is due, with one frame buffered.  512 `record` calls
    fill the channel, thread `1` loads the still-set latch and reaches `sender.send`, and the
    flush's socket write fails: the worker panics and unwinds into `Drop` with the latch set,
    and thread `1` waits on the full channel until the socket answers `Drop`'s write. -/
theorem producer_waits_on_failed_worker_flush_panic :
    ∃ s : State Unit, Reachable demoProtocol s ∧ s.worker = .flushBuf 0 (.drop true) ∧
      s.enabled = true ∧ ∃ p, ∀ as s', (∀ a ∈ as, ∀ r, a ≠ .socket r) →
        run demoProtocol s as = some s' →
          s'.worker = s.worker ∧ s'.threads 1 = .enqueue p none ∧
            threadStep demoProtocol s' 1 = none := by
  obtain ⟨s₁, hs₁, h0, h1, he, hr, hq, hw, hb⟩ : ∃ s₁ : State Unit,
      run demoProtocol init flushDueRun = some s₁ ∧ s₁.threads 0 = .idle ∧
      s₁.threads 1 = .idle ∧ s₁.enabled = true ∧ s₁.receiverAlive = true ∧ s₁.queue = [] ∧
      s₁.worker = .flushBuf 0 .flush ∧ s₁.buf = [2, 7, 2, 9, 0] :=
    ⟨_, rfl, rfl, rfl, rfl, rfl, rfl, rfl, rfl⟩
  have hrun : run demoProtocol init (flushDueRun ++ ((List.replicate 512 recordRun).flatten ++
      [.call 1 (.record 1), .thread 1, .socket .error])) =
      some ((({ s₁ with
        queue := s₁.queue ++ List.replicate 512 (.nowWithData s₁.clock (.record 1)),
        admitted := s₁.admitted ++ List.replicate 512 (.nowWithData s₁.clock (.record 1)) } :
          State Unit).setPc 1 (.enqueue (.nowWithData s₁.clock (.record 1)) none)).flushFailed
            0 .flush) := by
    rw [run_append, hs₁, Option.some_bind, run_append,
      run_recordRuns 512 h0 he hr (by rw [hq]; decide), Option.some_bind]
    generalize List.replicate 512 (TracePacket.nowWithData s₁.clock (TraceData.record 1)) = qs
    simp [Feo.Tracing.run, Feo.Tracing.step, callStart, Subscriber.record, threadStep, socketStep,
      writeTurn, State.setPc, h1, he, hw, hb]
  refine ⟨_, reachable_run hrun, rfl, he, _, producer_waits_on_failed_worker rfl
    (show s₁.buf.drop 0 ≠ [] by simp [hb]) hr
    (show mpscChannelBound ≤ (s₁.queue ++ List.replicate 512 _).length by
      rw [hq, List.nil_append, List.length_replicate]; decide)
    (show Function.update s₁.threads 1 (Pc.enqueue (.nowWithData s₁.clock (.record 1)) none) 1 =
      Pc.enqueue _ none from Function.update_same _ _ _)⟩

end Feo.Tracing
