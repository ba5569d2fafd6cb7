/-
  What the worker does on a TRANSPORT ERROR, and where it falls short of a one-way degrade.

  Two of the three error paths of `thread_main` degrade as intended: a failed `connect` and a
  failed `write_all` log, store `false` in `enabled`, and return (`quietStop_disabled`: the
  worker never stops normally with the latch still set).  The third does not: the periodic
  `socket_writer.flush().expect("failed to flush")` PANICS on an error, and the thread unwinds
  with `enabled` still `true` (`flush_error_panics_with_latch_set`).

  Both the return and the unwinding drop the `BufWriter`, and its `Drop` calls `flush_buf` ONCE
  MORE, ignoring the result.  So after a socket write has failed the thread writes to the
  socket again, and a socket that accepts that write receives the bytes still buffered
  (`drop_writes_after_failed_flush`, for every state; `bytes_written_after_socket_error` on a
  concrete run).

  Once the thread is gone, by either way, the receiver is dropped with the channel's contents,
  and from then on no packet is admitted and a producer's `send` stores `false`
  (`worker_gone_admits_nothing`).
-/
import Feo.Tracing.Steps

namespace Feo.Tracing

variable {Info : Type} {P : Protocol Info} {s s' : State Info}

/-! ## The normal exits clear the latch -/

/-- The worker is on its way out of `thread_main` by a `return`, not by a panic. -/
def Worker.quietStop : Worker Info → Bool
  | .flushBuf _ (.drop panicking) | .exited panicking => !panicking
  | _ => false

theorem quietStop_move (h : s.worker.quietStop → s.enabled = false) (hm : WorkerMove P s s') :
    s'.worker.quietStop → s'.enabled = false := by
  cases hm
  case flushed c hw _ =>
    cases c with
    | writeAllCold f =>
      simp only [State.flushed, State.writeCold, State.append]; split <;> simp [Worker.quietStop]
    | flush => simp [State.flushed, Worker.quietStop]
    | drop p =>
      -- the drop's flush is done: the thread leaves as it was leaving
      simpa [State.flushed, State.exit, Worker.quietStop, hw] using h
  case flushWrote c hw _ _ =>
    cases c
    case drop => simpa [Worker.quietStop, hw] using h
    all_goals simp [Worker.quietStop]
  case flushFailed c hw _ =>
    cases c
    case drop => simpa [State.flushFailed, State.exit, Worker.quietStop, hw] using h
    all_goals simp [State.flushFailed, Worker.quietStop]
  case cold => simp only [State.writeCold, State.append]; split <;> simp [Worker.quietStop]
  -- `enabled.store(false)`, then `return`
  case disableWriter | disableReturn => simp [State.exit]
  case retry => exact h
  all_goals simp [State.append, Worker.quietStop]

/-- **The normal exits clear the latch.**  In every reachable state, a worker that is leaving
    `thread_main` by a `return` (dropping its `BufWriter`, or gone) has stored `false` in
    `enabled` first: after a failed `connect` and after a failed `write_all` alike. -/
theorem quietStop_disabled {allowed : State Info → Action Info → Prop}
    (hs : ReachableBy P allowed s) : s.worker.quietStop → s.enabled = false := by
  refine @ReachableBy.invariant Info P allowed (fun s => s.worker.quietStop → s.enabled = false)
    (fun h => nomatch h) (fun {s s' _} h _ hst => ?_) s hs
  rcases step_cases hst with ⟨ns, rfl⟩ | ⟨t, c, -, -, rfl⟩ | ⟨t, ht⟩ | hm
  · exact h
  · simpa using h
  · have hp := ht.producerOnly
    intro hq
    rw [hp.worker] at hq
    cases he : s'.enabled
    · rfl
    · exact absurd (hp.enabled he) (by simp [h hq])
  · exact quietStop_move h hm

/-- A failed `connect`: the worker stores `false` and returns. -/
theorem quietStop_disabled_connect_failed :
    ∃ s, run demoProtocol init [.connect false, .worker] = some s ∧
      (s.worker.quietStop → s.enabled = false) :=
  ⟨_, rfl, quietStop_disabled
    (reachable_run (rfl : run demoProtocol init [.connect false, .worker] = _))⟩

/-! ## The periodic flush panics, and `Drop` writes after the error -/

/-- Connect, stay idle past `FLUSH_INTERVAL`, then one `record` call whose packet the worker
    buffers: the timer check after its `write_all` starts the periodic flush. -/
def flushDueRun : List (Action Unit) :=
  [.connect true, .tick (flushInterval + 1), .call 0 (.record 1), .thread 0, .thread 0,
    .worker, .worker, .worker, .worker]

/-- **A failed periodic flush panics with the latch set.**  On `flushDueRun`, the socket write
    of the flush fails; `expect` panics, the unwinding `Drop`'s `flush_buf` succeeds, and the
    thread is gone with `enabled` still `true`. -/
theorem flush_error_panics_with_latch_set :
    ∃ s, run demoProtocol init (flushDueRun ++ [.socket .error, .socket (.ok 5), .worker]) = some s ∧
      s.worker = .exited true ∧ s.enabled = true :=
  ⟨_, rfl, rfl, rfl⟩

/-- **After a failed flush the thread writes to the socket again.**  Wherever the periodic
    flush's socket write fails, `expect` unwinds, the `BufWriter`'s `Drop` runs `flush_buf` on
    the bytes still buffered, and a socket that then accepts `n` of them receives them. -/
theorem drop_writes_after_failed_flush {w n : Nat} (hw : s.worker = .flushBuf w .flush)
    (hp : s.buf.drop w ≠ []) (hn : 0 < n) (hle : n ≤ (s.buf.drop w).length) :
    ∃ s₁ s₂, step P s (.socket .error) = some s₁ ∧ step P s₁ (.socket (.ok n)) = some s₂ ∧
      s₁.worker = .flushBuf 0 (.drop true) ∧ s₂.delivered = s.delivered ++ (s.buf.drop w).take n := by
  obtain ⟨m, rfl⟩ : ∃ m, n = m + 1 := ⟨n - 1, by omega⟩
  refine ⟨s.flushFailed w .flush, { s.flushFailed w .flush with
    worker := .flushBuf (m + 1) (.drop true), delivered := s.delivered ++ (s.buf.drop w).take (m + 1) },
    ?_, ?_, rfl, rfl⟩
  · simp [step, socketStep, hw, hp, writeTurn]
  · rw [List.length_drop] at hle
    simp [step, socketStep, State.flushFailed, hp, writeTurn, hle]

/-- **Bytes reach the socket after a socket error.**  On `flushDueRun` the socket has accepted
    nothing when the flush's write fails; the next write, made by `Drop` while the thread
    unwinds, delivers the buffered frame. -/
theorem bytes_written_after_socket_error :
    ∃ s₁ s₂ s₃ : State Unit, run demoProtocol init flushDueRun = some s₁ ∧
      step demoProtocol s₁ (.socket .error) = some s₂ ∧
      step demoProtocol s₂ (.socket (.ok 5)) = some s₃ ∧
      s₂.delivered = [] ∧ s₃.delivered = [2, 7, 2, 9, 0] :=
  ⟨_, _, _, rfl, rfl, rfl, rfl, rfl⟩

/-! ## After the worker is gone -/

/-- A gone worker has dropped the receiver, and the channel's contents with it. -/
def Gone (s : State Info) : Prop :=
  ∀ b, s.worker = .exited b → s.receiverAlive = false ∧ s.queue = []

theorem gone_init : Gone (init : State Info) := fun _ h => nomatch h

/-- A gone worker makes no move but an `Interrupted` retry. -/
theorem WorkerMove.of_exited {b : Bool} (hm : WorkerMove P s s') (hw : s.worker = .exited b) :
    s' = s := by
  cases hm <;> first | rfl | simp only [hw, reduceCtorEq] at *

theorem Gone.move (h : Gone s) (hm : WorkerMove P s s') : Gone s' := by
  cases hm
  case flushed c _ _ =>
    cases c
    case writeAllCold =>
      simp only [State.flushed]
      unfold State.writeCold State.append
      split <;> exact fun _ h => nomatch h
    case flush => exact fun _ h => nomatch h
    case drop => exact fun _ _ => ⟨rfl, rfl⟩
  case flushFailed c _ _ =>
    cases c
    case drop => exact fun _ _ => ⟨rfl, rfl⟩
    all_goals exact fun _ h => nomatch h
  case cold => unfold State.writeCold State.append; split <;> exact fun _ h => nomatch h
  -- `return`: the receiver is dropped with the channel
  case disableReturn => exact fun _ _ => ⟨rfl, rfl⟩
  case retry => exact h
  all_goals exact fun _ h => nomatch h

theorem Gone.thread {t : Nat} (h : Gone s) (ht : ThreadMove P s t s') : Gone s' := by
  intro b hb
  have hp := ht.producerOnly
  obtain ⟨hr, hq⟩ := h b (hp.worker ▸ hb)
  refine ⟨hp.receiverAlive.trans hr, ?_⟩
  rcases ht.channel with ⟨hq', -⟩ | ⟨hr', -⟩
  · exact hq'.trans hq
  · simp [hr] at hr'

theorem Gone.step {a : Action Info} (h : Gone s) (hst : step P s a = some s') : Gone s' := by
  rcases step_cases hst with ⟨ns, rfl⟩ | ⟨t, c, -, -, rfl⟩ | ⟨t, ht⟩ | hm
  · exact h
  · intro b hb
    rw [callStart_worker] at hb
    obtain ⟨hr, hq⟩ := h b hb
    exact ⟨(callStart_producerOnly c t).receiverAlive.trans hr, (callStart_queue c t).trans hq⟩
  · exact h.thread ht
  · exact h.move hm

theorem gone_reachable {allowed : State Info → Action Info → Prop}
    (hs : ReachableBy P allowed s) : Gone s :=
  hs.invariant gone_init fun h _ hst => h.step hst

/-- A step from a gone worker's state leaves it gone, and admits nothing. -/
theorem step_of_exited {a : Action Info} {b : Bool} (h : Gone s) (hw : s.worker = .exited b)
    (hst : step P s a = some s') : s'.worker = .exited b ∧ s'.admitted = s.admitted := by
  rcases step_cases hst with ⟨ns, rfl⟩ | ⟨t, c, -, -, rfl⟩ | ⟨t, ht⟩ | hm
  · exact ⟨hw, rfl⟩
  · exact ⟨(callStart_worker c t).trans hw, callStart_admitted c t⟩
  · refine ⟨ht.producerOnly.worker.trans hw, ?_⟩
    rcases ht.channel with ⟨-, ha⟩ | ⟨hr, -⟩
    · exact ha
    · simp [(h b hw).1] at hr
  · rw [hm.of_exited hw]; exact ⟨hw, rfl⟩

theorem run_of_exited {b : Bool} :
    ∀ {as : List (Action Info)} {s s' : State Info}, Gone s → s.worker = .exited b →
      run P s as = some s' → Gone s' ∧ s'.worker = .exited b ∧ s'.admitted = s.admitted
  | [], _, _, h, hw, hrun => by cases hrun; exact ⟨h, hw, rfl⟩
  | a :: as, s, s', h, hw, hrun => by
    simp only [run, Option.bind_eq_some] at hrun
    obtain ⟨s₁, hst, hrun⟩ := hrun
    obtain ⟨hw₁, ha₁⟩ := step_of_exited h hw hst
    obtain ⟨h', hw', ha'⟩ := run_of_exited (h.step hst) hw₁ hrun
    exact ⟨h', hw', ha'.trans ha₁⟩

/-- **Once the worker is gone, nothing more is admitted.**  In every reachable state whose
    worker has left `thread_main`, by a return or by a panic, every run from there keeps it
    gone, the receiver dropped and the channel empty, and admits no packet: the admitted
    packets are final.  A producer at `sender.send` finds the channel closed and goes on to
    store `false` in `enabled`. -/
theorem worker_gone_admits_nothing {allowed : State Info → Action Info → Prop} {b : Bool}
    (hs : ReachableBy P allowed s) (hw : s.worker = .exited b) :
    (∀ as s', run P s as = some s' →
      s'.worker = .exited b ∧ s'.receiverAlive = false ∧ s'.queue = [] ∧
        s'.admitted = s.admitted) ∧
    ∀ t p ret, s.threads t = .enqueue p ret → threadStep P s t = some (s.setPc t (.disable ret)) := by
  have h := gone_reachable hs
  refine ⟨fun as s' hrun => ?_, fun t p ret hp => ?_⟩
  · obtain ⟨h', hw', ha'⟩ := run_of_exited h hw hrun
    exact ⟨hw', (h' b hw').1, (h' b hw').2, ha'⟩
  · exact threadStep_closed hp (h b hw).1

/-- A failed `connect`: the worker returns, and nothing is admitted after. -/
theorem worker_gone_admits_nothing_connect_failed :
    ∃ s, run demoProtocol init [.connect false, .worker] = some s ∧
      ((∀ as s', run demoProtocol s as = some s' →
        s'.worker = .exited false ∧ s'.receiverAlive = false ∧ s'.queue = [] ∧
          s'.admitted = s.admitted) ∧
      ∀ t p ret, s.threads t = .enqueue p ret →
        threadStep demoProtocol s t = some (s.setPc t (.disable ret))) :=
  ⟨_, rfl, worker_gone_admits_nothing
    (reachable_run (rfl : run demoProtocol init [.connect false, .worker] = _)) rfl⟩

end Feo.Tracing
