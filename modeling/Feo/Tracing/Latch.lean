/-
  What a CLEARED latch guarantees: the stream to the socket is frozen.

  `enabled` is stored `false` in two places: by the worker, on its way out of `thread_main`
  after a failed `connect` or `write_all`, and by a producer whose `send` found the receiver
  dropped, which only a worker that is gone has done.  So whenever the latch reads `false` the
  worker has STOPPED for good (`LatchInv`): it is about to return, or in the `BufWriter`'s `Drop`
  on its way out, or gone; it never receives, frames or buffers a packet again.  From such a
  state every step lets out at most the bytes the `BufWriter` already held (`stopped_step`), so
  every run from it delivers to the socket nothing beyond them (`disabled_delivers_only_held`).

  Clearing the latch does not stop a producer that has already loaded it: `send` loads the latch
  and sends on the channel in separate steps.  After the latch is cleared the channel admits
  only the packets of producers already at `sender.send`, each at most once
  (`disabled_admits_only_late_sends`).

  This is the part of the one-way degrade the code keeps.  It is not "no byte after a transport
  error": the held bytes may still go out through `Drop` (`drop_writes_after_failed_flush`),
  and after a failed periodic flush the latch is never cleared at all
  (`flush_error_panics_with_latch_set`).
-/
import Feo.Tracing.Stream

namespace Feo.Tracing

variable {Info : Type} {P : Protocol Info} {s s' : State Info}

/-- Where the worker is once it has given up: about to return after a failed `connect`, in the
    `BufWriter`'s `Drop` after a failed `write_all`, or gone. -/
def Worker.stopped : Worker Info → Bool
  | .disable false | .flushBuf _ (.drop false) | .exited _ => true
  | _ => false

theorem Worker.stopped_flushBuf {w : Nat} {c : FlushCaller} :
    (Worker.flushBuf w c : Worker Info).stopped = true ↔ c = .drop false := by
  cases c with
  | drop p => cases p <;> simp [Worker.stopped]
  | _ => simp [Worker.stopped]

/-- A stopped worker is out of the streaming loop. -/
theorem Worker.live_of_stopped {w : Worker Info} (h : w.stopped = true) : w.live = false := by
  unfold Worker.stopped at h
  split at h <;> first | rfl | cases h

/-- The latch reads `false`, a producer is about to store `false`, or the receiver is dropped,
    only once the worker has stopped. -/
structure LatchInv (s : State Info) : Prop where
  stopped : s.enabled = false → s.worker.stopped = true
  closed : ∀ t ret, s.threads t = .disable ret → s.worker.stopped = true
  receiver : s.receiverAlive = false → s.worker.stopped = true

theorem latchInv_init : LatchInv (init : State Info) :=
  ⟨(fun h => nomatch h), (fun _ _ h => nomatch h), (fun h => nomatch h)⟩

theorem latchInv_of_stopped (h : s.worker.stopped = true) : LatchInv s :=
  ⟨fun _ => h, fun _ _ _ => h, fun _ => h⟩

/-! ## A stopped worker only lets out what it holds -/

/-- A stopped worker moves only toward its exit, and the socket gets only bytes it held. -/
theorem WorkerMove.stopped_shrinks (hm : WorkerMove P s s') (hs : s.worker.stopped = true) :
    s'.worker.stopped = true ∧
      s'.delivered ++ s'.worker.held s'.buf <+: s.delivered ++ s.worker.held s.buf := by
  cases hm with
  | @flushed w c hw hb =>
    -- `Drop`'s flush is done: the thread leaves
    obtain rfl := Worker.stopped_flushBuf.1 (hw ▸ hs)
    exact ⟨rfl, by simp [State.flushed, State.exit, Worker.held, hw]⟩
  | @flushWrote w n c hw _ _ =>
    obtain rfl := Worker.stopped_flushBuf.1 (hw ▸ hs)
    -- `n` held bytes move to the socket
    have e : s.delivered ++ (s.buf.drop w).take n ++ s.buf.drop (w + n) =
        s.delivered ++ s.buf.drop w := by
      rw [List.append_assoc, ← List.drop_drop, List.take_append_drop]
    exact ⟨rfl, by simp only [Worker.held, hw]; exact e ▸ List.prefix_refl _⟩
  | @flushFailed w c hw _ =>
    obtain rfl := Worker.stopped_flushBuf.1 (hw ▸ hs)
    exact ⟨rfl, by simp [State.flushFailed, State.exit, Worker.held]⟩
  | disableReturn hw => exact ⟨rfl, by simp [State.exit, Worker.held, hw]⟩
  | retry => exact ⟨hs, List.prefix_refl _⟩
  | connected hw | connectFailed hw | recv hw _ | encoded hw _ | encodeFailed hw _
  | buffered hw _ | flushFirst hw _ | cold hw _ | directWrote hw _ _ | directFailed hw _
  | directDone hw | flushDue hw _ | flushNotDue hw _ | disableWriter hw =>
    simp [hw, Worker.stopped] at hs

/-- A producer's step leaves the worker's side as it was. -/
theorem ProducerOnly.held_eq (hp : ProducerOnly s s') :
    s'.worker = s.worker ∧ s'.delivered ++ s'.worker.held s'.buf = s.delivered ++ s.worker.held s.buf := by
  rw [hp.worker, hp.buf, hp.delivered]
  exact ⟨rfl, rfl⟩

/-- One step from a stopped worker. -/
theorem stopped_step {a : Action Info} (hs : s.worker.stopped = true) (hst : step P s a = some s') :
    s'.worker.stopped = true ∧
      s'.delivered ++ s'.worker.held s'.buf <+: s.delivered ++ s.worker.held s.buf := by
  rcases step_cases hst with ⟨ns, rfl⟩ | ⟨t, c, -, -, rfl⟩ | ⟨t, ht⟩ | hm
  · exact ⟨hs, List.prefix_refl _⟩
  · obtain ⟨hw, he⟩ := (callStart_producerOnly (P := P) (s := s) c t).held_eq
    exact ⟨hw ▸ hs, he ▸ List.prefix_refl _⟩
  · obtain ⟨hw, he⟩ := ht.producerOnly.held_eq
    exact ⟨hw ▸ hs, he ▸ List.prefix_refl _⟩
  · exact hm.stopped_shrinks hs

/-- Every run from a stopped worker keeps it stopped, and lets out only bytes it held. -/
theorem stopped_run : ∀ {as : List (Action Info)} {s s' : State Info}, s.worker.stopped = true →
    run P s as = some s' → s'.worker.stopped = true ∧
      s'.delivered ++ s'.worker.held s'.buf <+: s.delivered ++ s.worker.held s.buf
  | [], _, _, hs, h => by cases h; exact ⟨hs, List.prefix_refl _⟩
  | a :: as, s, s', hs, h => by
    simp only [run, Option.bind_eq_some] at h
    obtain ⟨s₁, hst, hrun⟩ := h
    obtain ⟨hs₁, hp₁⟩ := stopped_step hs hst
    obtain ⟨hs', hp'⟩ := stopped_run hs₁ hrun
    exact ⟨hs', hp'.trans hp₁⟩

/-! ## Each step keeps the invariant -/

/-- A worker move leaves the latch and the receiver alone, or stops the worker. -/
theorem WorkerMove.latch_or_stopped (hm : WorkerMove P s s') :
    (s'.enabled = s.enabled ∧ s'.receiverAlive = s.receiverAlive) ∨ s'.worker.stopped = true := by
  cases hm
  case cold => unfold State.writeCold State.append; split <;> exact .inl ⟨rfl, rfl⟩
  case flushed c _ _ =>
    cases c
    case writeAllCold =>
      simp only [State.flushed]
      unfold State.writeCold State.append
      split <;> exact .inl ⟨rfl, rfl⟩
    case flush => exact .inl ⟨rfl, rfl⟩
    case drop => exact .inr rfl
  case flushFailed c _ _ => cases c <;> first | exact .inl ⟨rfl, rfl⟩ | exact .inr rfl
  -- the worker gives up: after a failed `connect`, or at `enabled.store(false)`
  case connectFailed | disableWriter | disableReturn => exact .inr rfl
  all_goals exact .inl ⟨rfl, rfl⟩

theorem LatchInv.move (h : LatchInv s) (hm : WorkerMove P s s') : LatchInv s' := by
  by_cases hs : s.worker.stopped
  · exact latchInv_of_stopped (hm.stopped_shrinks hs).1
  rcases hm.latch_or_stopped with ⟨he, hr⟩ | hs'
  · have ht := hm.workerOnly.threads
    exact ⟨fun he' => absurd (h.stopped (he ▸ he')) hs,
      fun t ret ht' => absurd (h.closed t ret (ht ▸ ht')) hs,
      fun hr' => absurd (h.receiver (hr ▸ hr')) hs⟩
  · exact latchInv_of_stopped hs'

/-- A thread found at `q` after thread `t` moved to another pc was at `q` before. -/
theorem eq_of_update_ne {f : Nat → Pc Info} {t t' : Nat} {pc q : Pc Info} (hpc : pc ≠ q)
    (h : Function.update f t pc t' = q) : f t' = q := by
  by_cases e : t' = t
  · subst e
    rw [Function.update_same] at h
    exact absurd h hpc
  · rwa [Function.update_noteq e] at h

/-- A producer moving to any pc but `disable`, with the latch and the receiver as they were. -/
theorem LatchInv.setPc (h : LatchInv s) {t : Nat} {pc : Pc Info} (hpc : ∀ ret, pc ≠ .disable ret)
    (hw : s'.worker = s.worker) (he : s'.enabled = s.enabled) (hr : s'.receiverAlive = s.receiverAlive)
    (ht : s'.threads = Function.update s.threads t pc) : LatchInv s' :=
  ⟨fun he' => hw ▸ h.stopped (he ▸ he'),
    fun t' ret ht' => hw ▸ h.closed t' ret (eq_of_update_ne (hpc ret) (ht ▸ ht')),
    fun hr' => hw ▸ h.receiver (hr ▸ hr')⟩

theorem LatchInv.call (h : LatchInv s) (t : Nat) (c : Call Info) : LatchInv (callStart P s t c) := by
  cases c <;> exact h.setPc (by simp) rfl rfl rfl rfl

theorem LatchInv.thread {t : Nat} (h : LatchInv s) (hm : ThreadMove P s t s') : LatchInv s' := by
  cases hm with
  | @alloc name info _ =>
    rw [allocSpan_eq]
    exact h.setPc (by unfold allocPc; split <;> simp) rfl rfl rfl rfl
  | load _ _ | skip _ _ | sent _ _ _ => exact h.setPc (by simp) rfl rfl rfl rfl
  -- a closed channel, and a producer storing `false`: the worker is gone
  | closed _ hr => exact latchInv_of_stopped (h.receiver hr)
  | disable hp => exact latchInv_of_stopped (h.closed t _ hp)

theorem latchInv_step {a : Action Info} (h : LatchInv s) (hst : step P s a = some s') :
    LatchInv s' := by
  rcases step_cases hst with ⟨ns, rfl⟩ | ⟨t, c, -, -, rfl⟩ | ⟨t, ht⟩ | hm
  · exact ⟨h.1, h.2, h.3⟩
  · exact h.call t c
  · exact h.thread ht
  · exact h.move hm

theorem latchInv_reachable (hs : Reachable P s) : LatchInv s :=
  ReachableBy.invariant latchInv_init (fun h _ hst => latchInv_step h hst) hs

/-- A cleared latch stays cleared along every run. -/
theorem run_disabled : ∀ {as : List (Action Info)} {s s' : State Info}, s.enabled = false →
    run P s as = some s' → s'.enabled = false
  | [], _, _, he, h => by cases h; exact he
  | a :: as, s, s', he, h => by
    simp only [run, Option.bind_eq_some] at h
    obtain ⟨s₁, hst, hrun⟩ := h
    exact run_disabled (step_disabled he hst) hrun

/-- **A cleared latch stops the worker for good.**  In every reachable state where `enabled`
    reads `false`, the worker is stopped: returning after a failed `connect`, in the `Drop` of
    the `BufWriter` after a failed `write_all`, or gone.  Along every run from there the latch
    stays cleared and the worker stopped, so it never again receives, frames or buffers a
    packet: what the socket has accepted and what the `BufWriter` still holds only shrink
    toward the socket, which gets at most the bytes held when the latch was cleared. -/
theorem disabled_delivers_only_held (hs : Reachable P s) (he : s.enabled = false) :
    s.worker.stopped = true ∧
      ∀ as s', run P s as = some s' →
        s'.enabled = false ∧ s'.worker.stopped = true ∧
          s'.delivered ++ s'.worker.held s'.buf <+: s.delivered ++ s.worker.held s.buf := by
  have hst := (latchInv_reachable hs).stopped he
  exact ⟨hst, fun _ _ hrun => ⟨run_disabled he hrun, stopped_run hst hrun⟩⟩

/-- A failed `connect`: the worker clears the latch and returns. -/
theorem disabled_delivers_only_held_connect_failed :
    ∃ s, run demoProtocol init [.connect false, .worker] = some s ∧
      s.worker.stopped = true ∧
        ∀ as s', run demoProtocol s as = some s' →
          s'.enabled = false ∧ s'.worker.stopped = true ∧
            s'.delivered ++ s'.worker.held s'.buf <+: s.delivered ++ s.worker.held s.buf :=
  ⟨_, rfl, disabled_delivers_only_held
    (reachable_run (rfl : run demoProtocol init [.connect false, .worker] = _)) rfl⟩

/-! ## The window between `load` and `send`

`send` loads the latch and sends on the channel in separate steps, so clearing the latch does not
stop a producer that has already loaded it.  Such a producer still admits its packet, once; no
other packet is admitted after the latch is cleared. -/

/-- From `s₀`, whose latch reads `false`, to `s`: the packets admitted since are those of `late`,
    each held at `sender.send` in `s₀` by a producer of its own; a producer still at
    `sender.send` was there in `s₀` and has admitted nothing since. -/
structure LateSends (s₀ s : State Info) (late : List (Nat × TracePacket Info)) : Prop where
  disabled : s.enabled = false
  nodup : (late.map Prod.fst).Nodup
  held : ∀ tp ∈ late, ∃ ret, s₀.threads tp.1 = .enqueue tp.2 ret
  admitted : s.admitted = s₀.admitted ++ late.map Prod.snd
  waiting : ∀ t p ret, s.threads t = .enqueue p ret →
    s₀.threads t = .enqueue p ret ∧ t ∉ late.map Prod.fst

theorem lateSends_refl (he : s.enabled = false) : LateSends s s [] :=
  ⟨he, List.nodup_nil, (fun _ h => nomatch h), (List.append_nil _).symm,
    fun _ _ _ h => ⟨h, List.not_mem_nil _⟩⟩

/-- A step that admits nothing, keeps the latch clear, and moves no producer to `sender.send`. -/
theorem LateSends.frame {s₀ : State Info} {late : List (Nat × TracePacket Info)}
    (h : LateSends s₀ s late) (he : s'.enabled = false) (ha : s'.admitted = s.admitted)
    (ht : ∀ t p ret, s'.threads t = .enqueue p ret → s.threads t = .enqueue p ret) :
    LateSends s₀ s' late :=
  ⟨he, h.nodup, h.held, ha.trans h.admitted, fun t p ret h' => h.waiting t p ret (ht t p ret h')⟩

/-- A producer at `sender.send` admits its packet: it joins `late`. -/
theorem LateSends.sent {s₀ : State Info} {late : List (Nat × TracePacket Info)} {t : Nat}
    {p : TracePacket Info} {ret : Option UInt64} (h : LateSends s₀ s late)
    (hp : s.threads t = .enqueue p ret) :
    LateSends s₀ ({ s with queue := s.queue ++ [p], admitted := s.admitted ++ [p] }.finish t ret)
      (late ++ [(t, p)]) := by
  obtain ⟨h₀, hnew⟩ := h.waiting t p ret hp
  refine ⟨h.disabled, ?_, fun tp htp => ?_, by simp [State.finish, State.setPc, h.admitted],
    fun t' p' ret' h' => ?_⟩
  · rw [List.map_append]
    refine List.pairwise_append.2 ⟨h.nodup, List.pairwise_singleton _ _, fun a ha b hb => ?_⟩
    rw [List.mem_singleton.1 hb]
    rintro rfl
    exact hnew ha
  · rcases List.mem_append.1 htp with htp | htp
    · exact h.held tp htp
    · obtain rfl := List.mem_singleton.1 htp
      exact ⟨ret, h₀⟩
  · have e : t' ≠ t := by
      rintro rfl
      simp [State.finish, State.setPc] at h'
    obtain ⟨h₀', hnew'⟩ := h.waiting t' p' ret'
      (eq_of_update_ne (by simp) (show Function.update s.threads t .idle t' = _ from h'))
    exact ⟨h₀', by simpa [e] using hnew'⟩

theorem LateSends.thread {s₀ : State Info} {late : List (Nat × TracePacket Info)} {t : Nat}
    (h : LateSends s₀ s late) (hm : ThreadMove P s t s') :
    ∃ late', LateSends s₀ s' late' := by
  cases hm with
  | @alloc name info _ =>
    rw [allocSpan_eq]
    exact ⟨late, h.frame h.disabled rfl fun _ _ _ =>
      eq_of_update_ne (by unfold allocPc; split <;> simp)⟩
  -- loading the latch needs it set
  | load _ he => exact absurd h.disabled (by simp [he])
  | skip _ _ | closed _ _ =>
    exact ⟨late, h.frame h.disabled rfl fun _ _ _ => eq_of_update_ne (by simp)⟩
  | disable _ => exact ⟨late, h.frame rfl rfl fun _ _ _ => eq_of_update_ne (by simp)⟩
  | sent hp _ _ => exact ⟨_, h.sent hp⟩

theorem LateSends.step {s₀ : State Info} {late : List (Nat × TracePacket Info)} {a : Action Info}
    (h : LateSends s₀ s late) (hst : step P s a = some s') : ∃ late', LateSends s₀ s' late' := by
  rcases step_cases hst with ⟨ns, rfl⟩ | ⟨t, c, -, -, rfl⟩ | ⟨t, ht⟩ | hm
  · exact ⟨late, h.frame h.disabled rfl fun _ _ _ => id⟩
  · refine ⟨late, h.frame (by simpa using h.disabled) (by simp) fun _ _ _ h' => ?_⟩
    cases c <;> exact eq_of_update_ne (by simp) h'
  · exact h.thread ht
  · have hw := hm.workerOnly
    refine ⟨late, h.frame ?_ hw.admitted fun _ _ _ h' => hw.threads ▸ h'⟩
    cases e : s'.enabled
    · rfl
    · exact absurd (hw.enabled e) (by simp [h.disabled])

theorem LateSends.run {s₀ : State Info} :
    ∀ {as : List (Action Info)} {s s' : State Info} {late : List (Nat × TracePacket Info)},
      LateSends s₀ s late → run P s as = some s' → ∃ late', LateSends s₀ s' late'
  | [], _, _, late, h, hrun => by cases hrun; exact ⟨late, h⟩
  | a :: as, s, s', _, h, hrun => by
    simp only [Feo.Tracing.run, Option.bind_eq_some] at hrun
    obtain ⟨s₁, hst, hrun⟩ := hrun
    obtain ⟨late₁, h₁⟩ := h.step hst
    exact LateSends.run h₁ hrun

/-- **After the latch is cleared, only sends already past the load are admitted.**  From any
    state whose latch reads `false`, every run admits exactly the packets of a list `late` of
    producers and packets: each producer was at `sender.send` holding that packet when the run
    began, and appears at most once.  A `send` that begins after the latch is cleared admits
    nothing. -/
theorem disabled_admits_only_late_sends {as : List (Action Info)} (he : s.enabled = false)
    (hrun : run P s as = some s') :
    ∃ late : List (Nat × TracePacket Info), (late.map Prod.fst).Nodup ∧
      (∀ tp ∈ late, ∃ ret, s.threads tp.1 = .enqueue tp.2 ret) ∧
      s'.admitted = s.admitted ++ late.map Prod.snd := by
  obtain ⟨late, h⟩ := (lateSends_refl he).run hrun
  exact ⟨late, h.nodup, h.held, h.admitted⟩

/-- A producer had loaded the set latch, and is at `sender.send` when the latch is cleared: its
    packet is admitted all the same. -/
theorem disabled_admits_only_late_sends_window :
    let s : State Unit :=
      { init with enabled := false,
                  threads := Function.update init.threads 0 (.enqueue ⟨0, true, .record 1⟩ none) }
    ∃ s', run demoProtocol s [.thread 0] = some s' ∧
      ∃ late : List (Nat × TracePacket Unit), (late.map Prod.fst).Nodup ∧
        (∀ tp ∈ late, ∃ ret, s.threads tp.1 = .enqueue tp.2 ret) ∧
        s'.admitted = s.admitted ++ late.map Prod.snd :=
  ⟨_, rfl, disabled_admits_only_late_sends rfl (show run demoProtocol _ [.thread 0] = _ from rfl)⟩

end Feo.Tracing
