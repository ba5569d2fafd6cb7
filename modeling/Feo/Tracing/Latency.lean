/-
  How long a byte can sit in the `BufWriter` before the socket gets it.

  `thread_main` tests `last_flush.elapsed() > FLUSH_INTERVAL` only AFTER a `write_all`, that
  is, once per received packet.  The test keeps its promise where it runs: every buffered byte
  was appended after the last periodic flush (`AgeInv`), so whenever the test sends the worker
  back to `recv`, no buffered byte is older than `FLUSH_INTERVAL`
  (`recv_after_check_within_interval`).  But nothing runs the test while the worker waits in
  `recv` on an empty channel: a frame buffered just before a quiet period stays in the buffer
  for as long as the quiet lasts, however short each iteration of the loop and however empty
  the buffer (`buffered_bytes_wait_unbounded`).
-/
import Feo.Tracing.Steps

namespace Feo.Tracing

variable {Info : Type} {P : Protocol Info} {s s' : State Info}

/-! ## Every buffered byte is younger than the last periodic flush -/

/-- The ghost time stamps of the buffered bytes: one per byte, none before the last periodic
    flush (or the connect), none in the future. -/
structure AgeInv (s : State Info) : Prop where
  aligned : s.bufTimes.length = s.buf.length
  flushPast : s.lastFlush ≤ s.clock
  stamped : ∀ t ∈ s.bufTimes, s.lastFlush ≤ t ∧ t ≤ s.clock

theorem ageInv_init : AgeInv (init : State Info) := ⟨rfl, le_rfl, fun _ h => nomatch h⟩

/-- A step that leaves the buffer, its stamps, the last flush and the clock alone. -/
theorem AgeInv.congr (h : AgeInv s) (hb : s'.buf = s.buf) (ht : s'.bufTimes = s.bufTimes)
    (hl : s'.lastFlush = s.lastFlush) (hc : s'.clock = s.clock) : AgeInv s' :=
  ⟨by rw [hb, ht]; exact h.aligned, by rw [hl, hc]; exact h.flushPast,
    by rw [ht, hl, hc]; exact h.stamped⟩

theorem AgeInv.clear (h : AgeInv s) : AgeInv { s with buf := [], bufTimes := [] } :=
  ⟨rfl, h.flushPast, fun _ h => nomatch h⟩

/-- `flush_buf`'s guard drains the bytes written, and their stamps. -/
theorem AgeInv.drop (h : AgeInv s) (w : Nat) :
    AgeInv { s with buf := s.buf.drop w, bufTimes := s.bufTimes.drop w } :=
  ⟨by simp [h.aligned], h.flushPast, fun t ht => h.stamped t (List.mem_of_mem_drop ht)⟩

/-- An appended frame is stamped with the current clock. -/
theorem AgeInv.append (h : AgeInv s) (f : Bytes) : AgeInv (s.append f) where
  aligned := by simp [State.append, h.aligned]
  flushPast := h.flushPast
  stamped t ht := by
    simp only [State.append, List.mem_append, List.mem_replicate] at ht
    rcases ht with ht | ⟨-, rfl⟩
    · exact h.stamped t ht
    · exact ⟨h.flushPast, le_rfl⟩

theorem AgeInv.writeCold (h : AgeInv s) (f : Bytes) : AgeInv (s.writeCold P f) := by
  unfold State.writeCold
  split
  · exact h.congr rfl rfl rfl rfl
  · exact h.append f

theorem AgeInv.move (h : AgeInv s) (hm : WorkerMove P s s') : AgeInv s' := by
  cases hm with
  | connected => exact ⟨rfl, le_rfl, fun _ h => nomatch h⟩
  | buffered => exact h.append _
  | cold => exact h.writeCold _
  | @flushed w c _ _ =>
    cases c with
    | writeAllCold f => exact h.clear.writeCold f
    | flush => exact ⟨rfl, le_rfl, fun _ h => nomatch h⟩
    | drop => exact h.clear.congr rfl rfl rfl rfl
  | @flushFailed w c _ _ => cases c <;> exact (h.drop w).congr rfl rfl rfl rfl
  | _ => exact h.congr rfl rfl rfl rfl

theorem AgeInv.step {a : Action Info} (h : AgeInv s) (hs : step P s a = some s') : AgeInv s' := by
  rcases step_cases hs with ⟨ns, rfl⟩ | ⟨t, c, -, -, rfl⟩ | ⟨t, ht⟩ | hm
  · have hf := h.flushPast
    exact ⟨h.aligned, by dsimp only; omega,
      fun t ht => have := h.stamped t ht; ⟨this.1, by dsimp only; omega⟩⟩
  · have hp : ProducerOnly s (callStart P s t c) := callStart_producerOnly c t
    exact h.congr hp.buf hp.bufTimes hp.lastFlush hp.clock
  · have hp := ht.producerOnly
    exact h.congr hp.buf hp.bufTimes hp.lastFlush hp.clock
  · exact h.move hm

theorem ageInv_reachable {allowed : State Info → Action Info → Prop}
    (hs : ReachableBy P allowed s) : AgeInv s :=
  hs.invariant ageInv_init fun h _ hst => h.step hst

/-- **The timer test keeps its promise where it runs.**  In every reachable state, when the
    test after a `write_all` sends the worker back to `recv`, no byte in the buffer is older
    than `FLUSH_INTERVAL`. -/
theorem recv_after_check_within_interval {allowed : State Info → Action Info → Prop}
    (hs : ReachableBy P allowed s) (hw : s.worker = .checkFlush) (hm : workerStep P s = some s')
    (hr : s'.worker = .recv) : ∀ t ∈ s'.bufTimes, s'.clock - t ≤ flushInterval := by
  simp only [workerStep, hw] at hm
  split at hm <;> cases hm
  · cases hr
  · intro t ht
    have := (ageInv_reachable hs).stamped t ht
    dsimp only; omega

/-- After one buffered `record` packet the timer test finds the interval not elapsed. -/
theorem recv_after_check_within_interval_first :
    ∃ s s', run demoProtocol init [.connect true, .call 0 (.record 1), .thread 0, .thread 0,
        .worker, .worker, .worker] = some s ∧ workerStep demoProtocol s = some s' ∧
      ∀ t ∈ s'.bufTimes, s'.clock - t ≤ flushInterval :=
  ⟨_, _, rfl, rfl, recv_after_check_within_interval
    (reachable_run (rfl : run demoProtocol init [.connect true, .call 0 (.record 1), .thread 0,
      .thread 0, .worker, .worker, .worker] = _)) rfl rfl rfl⟩

/-! ## Nothing flushes while the worker waits -/

/-- Connect, then one `record` call whose packet the worker buffers; the timer test finds the
    interval not elapsed, and the worker returns to `recv` on the empty channel. -/
def idleBufferRun : List (Action Unit) :=
  [.connect true, .call 0 (.record 1), .thread 0, .thread 0, .worker, .worker, .worker, .worker]

/-- The clock advances only while the worker waits in `recv` on an empty channel: each
    iteration of its loop takes no time, within any bound on one iteration. -/
def IdleTicks (s : State Info) : Action Info → Prop
  | .tick _ => s.worker = .recv ∧ s.queue = []
  | _ => True

/-- **Buffered bytes can wait without bound.**  For every `D`, on a schedule whose iterations
    take no time and whose buffer holds one five-byte frame, the frame appended at clock `0`
    is still in the buffer when the clock reads `FLUSH_INTERVAL + D + 1`. -/
theorem buffered_bytes_wait_unbounded (D : Nat) :
    ∃ s, ReachableBy demoProtocol IdleTicks s ∧ s.buf = [2, 7, 2, 9, 0] ∧
      s.bufTimes = List.replicate 5 0 ∧ s.clock = flushInterval + D + 1 := by
  obtain ⟨s, hrun, hw, hq, hb, ht, hc⟩ : ∃ s, run demoProtocol init idleBufferRun = some s ∧
      s.worker = .recv ∧ s.queue = [] ∧ s.buf = [2, 7, 2, 9, 0] ∧
      s.bufTimes = List.replicate 5 0 ∧ s.clock = 0 :=
    ⟨_, rfl, rfl, rfl, rfl, rfl, rfl⟩
  have hidle : ReachableBy demoProtocol IdleTicks s :=
    reachableBy_run .init (by simp [idleBufferRun, IdleTicks]) hrun
  have hwait : IdleTicks s (.tick (flushInterval + D + 1)) := ⟨hw, hq⟩
  exact ⟨{ s with clock := s.clock + (flushInterval + D + 1) }, .step hidle hwait rfl, hb, ht,
    by simp [hc]⟩

end Feo.Tracing
