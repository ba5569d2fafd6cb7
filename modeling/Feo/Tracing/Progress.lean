/-
  PROGRESS: a healthy worker, facing a socket that takes bytes, always DRAINS the channel.

  The safety results say what the worker never does; this module says what it always can do.
  A draining step (`Action.drains`) is one of the worker's own steps, or a socket `write` that
  returns `Ok(n)` with `n > 0`, however small: partial writes included.  Each such step from
  `thread_main`'s streaming loop keeps the worker there and lowers a RANK (`drainRank`): ten per
  queued packet, the worker's own steps left of the current iteration, and one per byte still
  owed to the socket, which every accepted write lowers (`drain_lowers`).  So no draining run is
  longer than the rank it starts from (`drain_length_le`).  And no branch of `write_all`,
  `flush_buf` or the timer test waits on anything but the socket: unless the worker is in `recv`
  on an empty channel, its own step or EVERY accepting write goes on (`drain_enabled`).

  Together: every draining run that cannot be extended ends with the worker in `recv` on an
  empty channel, and then every packet ever admitted has reached the socket or sits in the
  `BufWriter`, in admission order (`healthy_worker_drains_channel`).  A producer blocked at
  `sender.send` on a full channel is RELEASED by the worker alone (`blocked_producer_released`):
  the wait of `producer_waits_on_full_channel` is only ever a wait on the socket, and a worker
  on its way out through `Drop` is the case where it is not released
  (`producer_waits_on_failed_worker`).

  The drain may leave bytes in the `BufWriter`: the timer test runs only after a `write_all`, so
  they wait for the next packet (`buffered_bytes_wait_unbounded`).  That packet is enough.  Once
  `FLUSH_INTERVAL` has passed, every way the worker takes from the last queued packet back to
  `recv`, whatever the socket does, passes the periodic flush (`LastFlush`).  So one `record`
  after the interval puts the frame of every packet ever admitted on the socket
  (`one_more_packet_flushes`).
-/
import Feo.Tracing.Backpressure
import Feo.Tracing.Latch

namespace Feo.Tracing

variable {Info : Type} {P : Protocol Info} {s s' : State Info}

/-- A step the worker takes on its own against a socket that accepts at least one byte of each
    write: its next step, or a `write` returning `Ok(n)` with `n > 0`. -/
def Action.drains : Action Info → Bool
  | .worker | .socket (.ok (_ + 1)) => true
  | _ => false

theorem Action.drains_move {a : Action Info} (ha : a.drains = true) (h : step P s a = some s') :
    WorkerMove P s s' := by
  cases a with
  | worker => exact workerStep_move h
  | socket r => exact socketStep_move P h
  | _ => simp [Action.drains] at ha

/-- An action of a producer thread: a façade call, or a thread's next step. -/
def Action.producer : Action Info → Bool
  | .call _ _ | .thread _ => true
  | _ => false

/-- A step no producer takes is the clock advancing or a move of the worker. -/
theorem Action.tick_or_move {a : Action Info} (ha : a.producer = false)
    (h : step P s a = some s') :
    (∃ ns, s' = { s with clock := s.clock + ns }) ∨ WorkerMove P s s' := by
  cases a with
  | tick ns => exact .inl ⟨ns, (Option.some.inj h).symm⟩
  | worker => exact .inr (workerStep_move h)
  | connect => exact .inr (connectStep_move P h)
  | socket => exact .inr (socketStep_move P h)
  | call | thread => simp [Action.producer] at ha

theorem WorkerOnly.refl : WorkerOnly s s := ⟨rfl, rfl, rfl, rfl, rfl, rfl, rfl, id⟩

theorem WorkerOnly.trans {s'' : State Info} (h : WorkerOnly s s') (h' : WorkerOnly s' s'') :
    WorkerOnly s s'' :=
  ⟨h'.threads.trans h.threads, h'.nextId.trans h.nextId, h'.allocated.trans h.allocated,
    h'.returned.trans h.returned, h'.admitted.trans h.admitted, h'.entered.trans h.entered,
    h'.clock.trans h.clock, fun he => h.enabled (h'.enabled he)⟩

/-! ## The rank -/

/-- The worker's own steps left of the current iteration before it is back in `recv`. -/
def Worker.drainRank : Worker Info → Nat
  | .serialize _ => 9
  | .writeAll _ => 8
  | .flushBuf _ (.writeAllCold _) => 6
  | .writeDirect _ => 4
  | .checkFlush => 3
  | .flushBuf _ .flush => 1
  | _ => 0

/-- The bytes still owed to the socket: what the `BufWriter` holds, the rest of the frame in
    hand, then the queued packets' frames. -/
def State.backlog (P : Protocol Info) (s : State Info) : Bytes :=
  s.worker.held s.buf ++ s.worker.pending P ++ frames P s.queue

/-- Ten for each queued packet, the worker's own steps left of the current iteration, and one
    for each byte still owed to the socket, which every accepted write lowers. -/
def drainRank (P : Protocol Info) (s : State Info) : Nat :=
  10 * s.queue.length + s.worker.drainRank + (s.backlog P).length

/-- The bytes handed to the worker's pending socket `write`: `&buf[written..]` in `flush_buf`,
    the rest of the frame in the direct branch of `write_all_cold`; none elsewhere. -/
def Worker.writing (buf : Bytes) : Worker Info → Bytes
  | .flushBuf written _ => buf.drop written
  | .writeDirect rest => rest
  | _ => []

/-! ## One step -/

/-- The tail of `write_all_cold` leaves the worker streaming, at most four of its own steps
    from `recv`, with the buffer and the frame still owed. -/
theorem State.writeCold_drain (s : State Info) (f : Bytes) :
    (s.writeCold P f).worker.streaming = true ∧
      (s.writeCold P f).receiverAlive = s.receiverAlive ∧
      drainRank P (s.writeCold P f) ≤
        10 * s.queue.length + 4 + (s.buf.length + f.length + (frames P s.queue).length) := by
  unfold State.writeCold State.append
  split <;> simp [drainRank, State.backlog, Worker.held, Worker.pending, Worker.drainRank,
    Worker.streaming] <;> omega

/-- One of the worker's own steps from the streaming loop keeps it there, leaves the receiver
    alone, and lowers the rank: bytes only move along, and the iteration goes on. -/
theorem drain_worker (hw : s.worker.streaming = true) (h : workerStep P s = some s') :
    s'.worker.streaming = true ∧ s'.receiverAlive = s.receiverAlive ∧
      drainRank P s' < drainRank P s := by
  unfold workerStep at h
  cases hwk : s.worker with
  | recv =>
    -- the head of the channel is received
    cases hq : s.queue with
    | nil => simp [hwk, hq] at h
    | cons p rest =>
      simp only [hwk, hq, Option.some.injEq] at h
      subst h
      simp [drainRank, State.backlog, Worker.drainRank, Worker.held, Worker.pending,
        Worker.streaming, hwk, hq]
      omega
  | serialize p =>
    cases hf : toSliceCobs P p <;> simp only [hwk, hf, Option.some.injEq] at h <;> subst h <;>
      simp [drainRank, State.backlog, Worker.drainRank, Worker.held, Worker.pending,
        Worker.streaming, frame, hwk, hf]
  | writeAll f =>
    cases hp : writeAllPath (bufwriterSize P) s.buf f <;>
      simp only [hwk, hp, Option.some.injEq] at h <;> subst h
    · simp [drainRank, State.backlog, State.append, Worker.drainRank, Worker.held,
        Worker.pending, Worker.streaming, hwk]
    · simp [drainRank, State.backlog, Worker.drainRank, Worker.held, Worker.pending,
        Worker.streaming, hwk]
    · obtain ⟨hs, hr, hle⟩ := s.writeCold_drain (P := P) f
      refine ⟨hs, hr, Nat.lt_of_le_of_lt hle ?_⟩
      simp [drainRank, State.backlog, Worker.drainRank, Worker.held, Worker.pending, hwk]
      omega
  | flushBuf w c =>
    by_cases hb : s.buf.length ≤ w <;>
      simp only [hwk, hb, if_true, if_false, Option.some.injEq, reduceCtorEq] at h
    subst h
    have hd : s.buf.drop w = [] := List.drop_eq_nil_of_le hb
    cases c with
    | writeAllCold f =>
      -- `flush_buf` is done: on to the tail of `write_all_cold`
      obtain ⟨hs, hr, hle⟩ := State.writeCold_drain (P := P) { s with buf := [], bufTimes := [] } f
      refine ⟨hs, hr, Nat.lt_of_le_of_lt hle ?_⟩
      simp [drainRank, State.backlog, Worker.drainRank, Worker.held, Worker.pending, hwk, hd]
    | flush =>
      simp [State.flushed, drainRank, State.backlog, Worker.drainRank, Worker.held,
        Worker.pending, Worker.streaming, hwk, hd]
    | drop => simp [hwk, Worker.streaming] at hw
  | writeDirect rest =>
    by_cases hr : rest = [] <;>
      simp only [hwk, hr, if_true, if_false, Option.some.injEq, reduceCtorEq] at h
    subst h hr
    simp [drainRank, State.backlog, Worker.drainRank, Worker.held, Worker.pending,
      Worker.streaming, hwk]
  | checkFlush =>
    by_cases hlt : flushInterval < s.clock - s.lastFlush <;>
      simp only [hwk, hlt, if_true, if_false, Option.some.injEq] at h <;> subst h <;>
      simp [drainRank, State.backlog, Worker.drainRank, Worker.held, Worker.pending,
        Worker.streaming, hwk]
  | connecting | disable | exited => simp [hwk, Worker.streaming] at hw

/-- A `write` returning `Ok(n)` with `n > 0` moves `n` of the bytes it was given to the socket:
    it is never retried and never a failure. -/
theorem socketStep_ok {n : Nat} (h : socketStep s (.ok (n + 1)) = some s') :
    (∃ w c, s.worker = .flushBuf w c ∧ n + 1 ≤ (s.buf.drop w).length ∧
      s' = { s with worker := .flushBuf (w + (n + 1)) c,
                    delivered := s.delivered ++ (s.buf.drop w).take (n + 1) }) ∨
    ∃ rest, s.worker = .writeDirect rest ∧ n + 1 ≤ rest.length ∧
      s' = { s with worker := .writeDirect (rest.drop (n + 1)),
                    delivered := s.delivered ++ rest.take (n + 1) } := by
  unfold socketStep at h
  cases hw : s.worker with
  | flushBuf w c =>
    by_cases hn : n + 1 ≤ (s.buf.drop w).length
    · have hp : s.buf.drop w ≠ [] := List.ne_nil_of_length_pos (by omega)
      simp only [hw, hp, if_false, writeTurn, hn, if_true, Option.some.injEq] at h
      exact .inl ⟨w, c, rfl, hn, h.symm⟩
    · simp only [List.length_drop] at hn
      simp [hw, writeTurn, hn] at h
  | writeDirect rest =>
    by_cases hn : n + 1 ≤ rest.length
    · have hp : rest ≠ [] := List.ne_nil_of_length_pos (by omega)
      simp only [hw, hp, if_false, writeTurn, hn, if_true, Option.some.injEq] at h
      exact .inr ⟨rest, rfl, hn, h.symm⟩
    · simp [hw, writeTurn, hn] at h
  | _ => simp [hw] at h

/-- Every `Ok(n)` with `n` from one to the number of bytes the pending `write` was given is a
    step. -/
theorem socketStep_ok_some {n : Nat} (hn : 0 < n) (hle : n ≤ (s.worker.writing s.buf).length) :
    ∃ s', socketStep s (.ok n) = some s' := by
  obtain ⟨m, rfl⟩ := Nat.exists_eq_add_one_of_ne_zero (Nat.pos_iff_ne_zero.1 hn)
  cases hw : s.worker with
  | flushBuf w c =>
    simp only [hw, Worker.writing, List.length_drop] at hle
    have hp : s.buf.drop w ≠ [] := List.ne_nil_of_length_pos (by simp; omega)
    simp [socketStep, hw, hp, writeTurn, hle]
  | writeDirect rest =>
    simp only [hw, Worker.writing] at hle
    have hp : rest ≠ [] := List.ne_nil_of_length_pos (by omega)
    simp [socketStep, hw, hp, writeTurn, hle]
  | _ => simp [hw, Worker.writing] at hle

/-- An accepted write from the streaming loop keeps the worker there and the receiver alive, and
    lowers the backlog by what the socket took. -/
theorem drain_socket {n : Nat} (hw : s.worker.streaming = true)
    (h : socketStep s (.ok (n + 1)) = some s') :
    s'.worker.streaming = true ∧ s'.receiverAlive = s.receiverAlive ∧
      drainRank P s' < drainRank P s := by
  rcases socketStep_ok h with ⟨w, c, hwk, hle, rfl⟩ | ⟨rest, hwk, hle, rfl⟩
  · -- `flush_buf` goes on with its caller; a `Drop` is not in the loop
    rw [List.length_drop] at hle
    cases c <;> simp [drainRank, State.backlog, Worker.drainRank, Worker.held, Worker.pending,
      Worker.streaming, hwk] at hw ⊢ <;> omega
  · simp [drainRank, State.backlog, Worker.drainRank, Worker.held, Worker.pending,
      Worker.streaming, hwk]
    omega

/-- Every draining step from the streaming loop keeps the worker there and the receiver alive,
    and lowers the rank. -/
theorem drain_lowers {a : Action Info} (ha : a.drains = true) (hw : s.worker.streaming = true)
    (h : step P s a = some s') :
    s'.worker.streaming = true ∧ s'.receiverAlive = s.receiverAlive ∧
      drainRank P s' < drainRank P s := by
  cases a with
  | worker => exact drain_worker hw h
  | socket r =>
    cases r with
    | ok n =>
      cases n with
      | zero => simp [Action.drains] at ha
      | succ n => exact drain_socket hw h
    | _ => simp [Action.drains] at ha
  | _ => simp [Action.drains] at ha

/-- In the streaming loop the worker's own next step waits on nothing but `recv` on an empty
    channel and a pending socket `write`. -/
theorem workerStep_waits (hw : s.worker.streaming = true) (h : workerStep P s = none) :
    (s.worker = .recv ∧ s.queue = []) ∨ s.worker.writing s.buf ≠ [] := by
  unfold workerStep at h
  cases hwk : s.worker with
  | recv => cases hq : s.queue <;> simp_all
  | serialize p => cases hf : toSliceCobs P p <;> simp [hwk, hf] at h
  | writeAll f => cases hp : writeAllPath (bufwriterSize P) s.buf f <;> simp [hwk, hp] at h
  | flushBuf w c =>
    by_cases hb : s.buf.length ≤ w
    · simp [hwk, hb] at h
    · exact .inr (by simp only [Worker.writing, ne_eq, List.drop_eq_nil_iff]; omega)
  | writeDirect rest =>
    by_cases hr : rest = []
    · simp [hwk, hr] at h
    · exact .inr hr
  | checkFlush =>
    simp only [hwk] at h
    split at h <;> simp at h
  | connecting | disable | exited => simp [hwk, Worker.streaming] at hw

/-! ## Every draining run -/

/-- The streaming loop can go on against a socket that takes bytes: the worker can take its own
    next step, or its pending `write` was given bytes and EVERY `Ok(n)` with `n` from one to
    their number is a step. -/
def CanDrain (P : Protocol Info) (s : State Info) : Prop :=
  (∃ s', step P s .worker = some s') ∨
    (s.worker.writing s.buf ≠ [] ∧ ∀ n, 0 < n → n ≤ (s.worker.writing s.buf).length →
      ∃ s', step P s (.socket (.ok n)) = some s')

/-- **No stall.**  Unless it waits in `recv` on an empty channel, the worker in the streaming
    loop can always drain on. -/
theorem drain_enabled (hw : s.worker.streaming = true)
    (hidle : ¬(s.worker = .recv ∧ s.queue = [])) : CanDrain P s := by
  cases h : workerStep P s with
  | some s₁ => exact .inl ⟨s₁, h⟩
  | none =>
    rcases workerStep_waits hw h with hr | hp
    · exact absurd hr hidle
    · exact .inr ⟨hp, fun _ hn hle => socketStep_ok_some hn hle⟩

/-- Along every draining run from the streaming loop the worker stays there and the receiver
    alive, nothing but what the worker owns and the channel moves, and each step lowers the rank:
    no such run is longer than the rank it starts from. -/
theorem drain_length_le : ∀ {as : List (Action Info)} {s s' : State Info},
    s.worker.streaming = true → (∀ a ∈ as, a.drains = true) → run P s as = some s' →
      as.length + drainRank P s' ≤ drainRank P s ∧ s'.worker.streaming = true ∧
        s'.receiverAlive = s.receiverAlive ∧ WorkerOnly s s'
  | [], _, _, hw, _, h => by cases h; exact ⟨by simp, hw, rfl, .refl⟩
  | a :: as, s, s', hw, has, h => by
    simp only [run, Option.bind_eq_some] at h
    obtain ⟨s₁, hst, hrun⟩ := h
    have ha := has a (.head _)
    obtain ⟨hw₁, hr₁, hlt⟩ := drain_lowers ha hw hst
    obtain ⟨hlen, hw', hr', ho'⟩ := drain_length_le hw₁ (fun b hb => has b (.tail _ hb)) hrun
    refine ⟨?_, hw', hr'.trans hr₁, (Action.drains_move ha hst).workerOnly.trans ho'⟩
    simp only [List.length_cons]
    omega

/-- From the streaming loop, a run of draining steps back to `recv` on an empty channel; each
    step may be the worker's own or a write that accepts a single byte. -/
theorem drain_run : ∀ (n : Nat) {s : State Info}, drainRank P s < n → s.worker.streaming = true →
    ∃ as s', (∀ a ∈ as, a.drains = true) ∧ run P s as = some s' ∧ s'.worker = .recv ∧
      s'.queue = []
  | 0, _, hn, _ => absurd hn (Nat.not_lt_zero _)
  | n + 1, s, hn, hw => by
    by_cases hidle : s.worker = .recv ∧ s.queue = []
    · exact ⟨[], s, (fun _ h => nomatch h), rfl, hidle⟩
    · obtain ⟨a, s₁, ha, hst⟩ : ∃ a s₁, a.drains = true ∧ step P s a = some s₁ := by
        rcases drain_enabled hw hidle with ⟨s₁, hst⟩ | ⟨hp, hall⟩
        · exact ⟨.worker, s₁, rfl, hst⟩
        · obtain ⟨s₁, hst⟩ := hall 1 Nat.one_pos (List.length_pos.2 hp)
          exact ⟨.socket (.ok 1), s₁, rfl, hst⟩
      obtain ⟨hw₁, -, hlt⟩ := drain_lowers ha hw hst
      obtain ⟨as, s', has, hrun, hdone⟩ := drain_run n (by omega) hw₁
      refine ⟨a :: as, s', List.forall_mem_cons.2 ⟨ha, has⟩, ?_, hdone⟩
      rw [run, hst]
      exact hrun

/-! ## What a drain gives -/

/-- **A healthy worker drains the channel.**  Take any reachable state whose worker is in the
    streaming loop, and any run of the worker's own steps and of socket writes that each accept
    at least one byte, however few.  The run is no longer than `drainRank`, no producer moves,
    and where it ends the worker either waits in `recv` on an empty channel, with every packet
    ever admitted on the socket or in the `BufWriter` in admission order, or can drain on
    against EVERY write that accepts bytes.  So every such run that cannot be extended ends
    drained, and one exists. -/
theorem healthy_worker_drains_channel (hs : Reachable P s) (hw : s.worker.streaming = true) :
    (∀ as s', (∀ a ∈ as, a.drains = true) → run P s as = some s' →
      as.length ≤ drainRank P s ∧ s'.threads = s.threads ∧ s'.admitted = s.admitted ∧
        ((s'.worker = .recv ∧ s'.queue = [] ∧ s'.delivered ++ s'.buf = frames P s.admitted) ∨
          CanDrain P s')) ∧
      ∃ as s', (∀ a ∈ as, a.drains = true) ∧ run P s as = some s' ∧ s'.worker = .recv ∧
        s'.queue = [] := by
  refine ⟨fun as s' has hrun => ?_, drain_run (drainRank P s + 1) (Nat.lt_succ_self _) hw⟩
  obtain ⟨hlen, hw', -, ho⟩ := drain_length_le hw has hrun
  refine ⟨by omega, ho.threads, ho.admitted, ?_⟩
  by_cases hidle : s'.worker = .recv ∧ s'.queue = []
  · -- drained: the stream equation of a reachable state, with nothing in hand or queued
    have h := (streamInv_reachable (reachableBy_run hs (fun _ _ _ => trivial) hrun)).live
      (by simp [hidle.1, Worker.live, Worker.streaming])
    refine .inl ⟨hidle.1, hidle.2, ?_⟩
    simpa [State.stream, Worker.held, Worker.pending, hidle.1, hidle.2, ho.admitted] using h
  · exact .inr (drain_enabled hw' hidle)

/-- A `record` packet waiting in the channel: the worker receives it and buffers its frame. -/
theorem healthy_worker_drains_channel_one_queued :
    ∃ s, run demoProtocol init [.connect true, .call 0 (.record 1), .thread 0, .thread 0] =
        some s ∧
      (∀ as s', (∀ a ∈ as, a.drains = true) → run demoProtocol s as = some s' →
        as.length ≤ drainRank demoProtocol s ∧ s'.threads = s.threads ∧
          s'.admitted = s.admitted ∧
          ((s'.worker = .recv ∧ s'.queue = [] ∧
              s'.delivered ++ s'.buf = frames demoProtocol s.admitted) ∨
            CanDrain demoProtocol s')) ∧
        ∃ as s', (∀ a ∈ as, a.drains = true) ∧ run demoProtocol s as = some s' ∧
          s'.worker = .recv ∧ s'.queue = [] :=
  ⟨_, rfl, healthy_worker_drains_channel (reachable_run
    (rfl : run demoProtocol init [.connect true, .call 0 (.record 1), .thread 0, .thread 0] = _))
    rfl⟩

/-- **A producer blocked on a full channel is released by the worker alone.**  From every state
    whose worker is in the streaming loop and whose producer `t` is blocked at `sender.send`,
    there is a run of the worker's own steps and of socket writes that each accept at least one
    byte after which `t`'s `send` goes through: its packet is admitted, after every packet
    admitted before. -/
theorem blocked_producer_released {t : Nat} {p : TracePacket Info} {ret : Option UInt64}
    (hw : s.worker.streaming = true) (ht : s.threads t = .enqueue p ret)
    (hb : threadStep P s t = none) :
    ∃ as s', (∀ a ∈ as, a.drains = true) ∧ run P s as = some s' ∧
      threadStep P s' t =
        some ({ s' with queue := [p], admitted := s.admitted ++ [p] }.finish t ret) := by
  -- a blocked `send` has a live receiver
  have hr : s.receiverAlive = true := by
    cases hr : s.receiverAlive
    · simp [threadStep, ht, hr] at hb
    · rfl
  obtain ⟨as, s', has, hrun, -, hq'⟩ := drain_run (drainRank P s + 1) (Nat.lt_succ_self _) hw
  obtain ⟨-, -, hr', ho⟩ := drain_length_le hw has hrun
  exact ⟨as, s', has, hrun, by
    simp [threadStep, ho.threads, ht, hr', hr, hq', mpscChannelBound, ho.admitted]⟩

/-- 512 `record` calls fill the channel before the worker runs, and thread `1` blocks at
    `sender.send`; the worker alone releases it. -/
theorem blocked_producer_released_full_channel :
    ∃ s : State Unit, Reachable demoProtocol s ∧ threadStep demoProtocol s 1 = none ∧
      ∃ p as s', (∀ a ∈ as, a.drains = true) ∧ run demoProtocol s as = some s' ∧
        threadStep demoProtocol s' 1 =
          some ({ s' with queue := [p], admitted := s.admitted ++ [p] }.finish 1 none) := by
  obtain ⟨s₁, hs₁, h0, h1, he, hr, hq, hw⟩ : ∃ s₁ : State Unit,
      run demoProtocol init [.connect true] = some s₁ ∧ s₁.threads 0 = .idle ∧
      s₁.threads 1 = .idle ∧ s₁.enabled = true ∧ s₁.receiverAlive = true ∧
      s₁.queue = [] ∧ s₁.worker = .recv :=
    ⟨_, rfl, rfl, rfl, rfl, rfl, rfl, rfl⟩
  have hrun : run demoProtocol init ([.connect true] ++ ((List.replicate 512 recordRun).flatten ++
      [.call 1 (.record 1), .thread 1])) =
      some (({ s₁ with
        queue := s₁.queue ++ List.replicate 512 (.nowWithData s₁.clock (.record 1)),
        admitted := s₁.admitted ++ List.replicate 512 (.nowWithData s₁.clock (.record 1)) } :
          State Unit).setPc 1 (.enqueue (.nowWithData s₁.clock (.record 1)) none)) := by
    rw [run_append, hs₁, Option.some_bind, run_append,
      run_recordRuns 512 h0 he hr (by rw [hq]; decide), Option.some_bind]
    generalize List.replicate 512 (TracePacket.nowWithData s₁.clock (TraceData.record 1)) = qs
    simp [Feo.Tracing.run, Feo.Tracing.step, callStart, Subscriber.record, threadStep, State.setPc,
      h1, he]
  obtain ⟨s₂, hrun₂, ht, hr₂, hq₂, hw₂⟩ : ∃ s₂ : State Unit, run demoProtocol init
      ([.connect true] ++ ((List.replicate 512 recordRun).flatten ++
        [.call 1 (.record 1), .thread 1])) = some s₂ ∧
      s₂.threads 1 = .enqueue (.nowWithData s₁.clock (.record 1)) none ∧
      s₂.receiverAlive = true ∧ s₂.queue.length = 512 ∧ s₂.worker = .recv :=
    by
      refine ⟨_, hrun, ?_, hr, ?_, hw⟩
      · exact show Function.update s₁.threads 1
          (Pc.enqueue (.nowWithData s₁.clock (.record 1)) none) 1 = Pc.enqueue _ none from
          Function.update_same _ _ _
      · show (s₁.queue ++ List.replicate 512 _).length = 512
        rw [hq, List.nil_append, List.length_replicate]
  have hb := threadStep_full (P := demoProtocol) ht hr₂ (by rw [hq₂]; decide)
  exact ⟨s₂, reachable_run hrun₂, hb, _,
    blocked_producer_released (by rw [hw₂]; rfl) ht hb⟩

/-! ## One more packet flushes the buffer

The timer test runs only after a `write_all`, so buffered bytes wait for the next packet
(`buffered_bytes_wait_unbounded`).  Once `FLUSH_INTERVAL` has passed, that next packet is enough:
whatever way the worker takes from it back to `recv`, it passes the periodic flush, and comes
back with the `BufWriter` empty. -/

/-- The worker inside the loop body, before the timer test, on a packet that frames. -/
def Worker.beforeCheck (P : Protocol Info) : Worker Info → Bool
  | .serialize p => (toSliceCobs P p).isSome
  | .writeAll _ | .flushBuf _ (.writeAllCold _) | .writeDirect _ | .checkFlush => true
  | _ => false

/-- Where the worker is on its way from the LAST queued packet, one that frames, taken once
    `FLUSH_INTERVAL` has passed: in `recv` with that packet queued, or back there with the
    `BufWriter` empty; in the loop body with the timer test ahead and the channel empty; in the
    periodic flush; or out of the loop. -/
def LastFlush (P : Protocol Info) (s : State Info) : Prop :=
  match s.worker with
  | .recv =>
      (∃ p, s.queue = [p] ∧ (toSliceCobs P p).isSome ∧ flushInterval < s.clock - s.lastFlush) ∨
        (s.queue = [] ∧ s.buf = [])
  | .flushBuf _ .flush => s.queue = []
  | w => w.live = true →
      s.queue = [] ∧ w.beforeCheck P = true ∧ flushInterval < s.clock - s.lastFlush

/-- The loop body goes on, the channel still empty and the timer test still ahead. -/
theorem lastFlush_body {w : Worker Info} (hs : s.worker = w) (hw : w.beforeCheck P = true)
    (hq : s.queue = []) (hd : flushInterval < s.clock - s.lastFlush) : LastFlush P s := by
  unfold LastFlush
  rw [hs]
  split <;> simp_all [Worker.beforeCheck]

theorem lastFlush_of_live {w : Worker Info} (h : LastFlush P s) (hs : s.worker = w)
    (hl : w.live = true) (hr : w ≠ .recv) (hf : ∀ n, w ≠ .flushBuf n .flush) :
    s.queue = [] ∧ w.beforeCheck P = true ∧ flushInterval < s.clock - s.lastFlush := by
  unfold LastFlush at h
  rw [hs] at h
  split at h
  · exact absurd rfl hr
  · exact absurd rfl (hf _)
  · exact h hl

theorem lastFlush_stopped (hl : s.worker.live = false) : LastFlush P s := by
  unfold LastFlush
  split <;> simp_all [Worker.live, Worker.streaming]

theorem LastFlush.writeCold {s₀ : State Info} (f : Bytes) (hq : s₀.queue = [])
    (hd : flushInterval < s₀.clock - s₀.lastFlush) : LastFlush P (s₀.writeCold P f) := by
  unfold State.writeCold State.append
  split
  · exact lastFlush_body rfl rfl hq hd
  · exact lastFlush_body rfl rfl hq hd

/-- Every move of the worker keeps it on that way. -/
theorem LastFlush.move (h : LastFlush P s) (hm : WorkerMove P s s') : LastFlush P s' := by
  cases hm with
  | connected hw | connectFailed hw =>
    simpa [Worker.beforeCheck] using lastFlush_of_live h hw rfl nofun nofun
  | recv hw hq =>
    -- the last packet is taken
    unfold LastFlush at h
    rw [hw] at h
    rcases h with ⟨p', hq', hp, hd⟩ | ⟨hq', -⟩
    · rw [hq] at hq'
      obtain ⟨rfl, rfl⟩ := List.cons_eq_cons.1 hq'
      exact lastFlush_body rfl hp rfl hd
    · simp [hq] at hq'
  | encoded hw _ | buffered hw _ | flushFirst hw _ | directWrote hw _ _ | directDone hw =>
    obtain ⟨hq, -, hd⟩ := lastFlush_of_live h hw rfl nofun nofun
    exact lastFlush_body rfl rfl hq hd
  | encodeFailed hw hf =>
    simpa [Worker.beforeCheck, hf] using lastFlush_of_live h hw rfl nofun nofun
  | cold hw _ =>
    obtain ⟨hq, -, hd⟩ := lastFlush_of_live h hw rfl nofun nofun
    exact LastFlush.writeCold _ hq hd
  | @flushed w c hw _ =>
    cases c with
    | writeAllCold f =>
      obtain ⟨hq, -, hd⟩ := lastFlush_of_live h hw rfl nofun nofun
      exact LastFlush.writeCold f hq hd
    | flush =>
      -- the periodic flush is done: back in `recv`, the buffer empty
      unfold LastFlush at h
      rw [hw] at h
      exact .inr ⟨h, rfl⟩
    | drop => exact lastFlush_stopped rfl
  | @flushWrote w n c hw _ _ =>
    cases c with
    | writeAllCold f =>
      obtain ⟨hq, -, hd⟩ := lastFlush_of_live h hw rfl nofun nofun
      exact lastFlush_body rfl rfl hq hd
    | flush =>
      unfold LastFlush at h ⊢
      rw [hw] at h
      exact h
    | drop => exact lastFlush_stopped rfl
  | flushFailed _ _ => exact lastFlush_stopped (by cases ‹FlushCaller› <;> rfl)
  | directFailed _ _ | disableWriter _ | disableReturn _ => exact lastFlush_stopped rfl
  | flushDue hw _ => exact (lastFlush_of_live h hw rfl nofun nofun).1
  | flushNotDue hw hle =>
    -- the timer test finds the interval passed
    obtain ⟨-, -, hd⟩ := lastFlush_of_live h hw rfl nofun nofun
    omega
  | retry => exact h

/-- The clock advancing keeps the worker on that way: the interval stays passed. -/
theorem LastFlush.tick (h : LastFlush P s) (ns : Nat) :
    LastFlush P { s with clock := s.clock + ns } := by
  unfold LastFlush at h ⊢
  cases hw : s.worker <;> simp only [hw] at h ⊢
  case recv =>
    rcases h with ⟨p, hq, hp, hd⟩ | h
    · exact .inl ⟨p, hq, hp, by omega⟩
    · exact .inr h
  case flushBuf w c =>
    cases c
    case flush => exact h
    all_goals exact fun hl => ⟨(h hl).1, (h hl).2.1, by have := (h hl).2.2; omega⟩
  all_goals exact fun hl => ⟨(h hl).1, (h hl).2.1, by have := (h hl).2.2; omega⟩

/-- Every run with no producer in it keeps the worker on that way, whatever the socket does. -/
theorem LastFlush.run : ∀ {as : List (Action Info)} {s s' : State Info}, LastFlush P s →
    (∀ a ∈ as, a.producer = false) → run P s as = some s' → LastFlush P s'
  | [], _, _, h, _, hrun => by cases hrun; exact h
  | a :: as, s, s', h, has, hrun => by
    simp only [Feo.Tracing.run, Option.bind_eq_some] at hrun
    obtain ⟨s₁, hst, hrun⟩ := hrun
    have h₁ : LastFlush P s₁ := by
      rcases Action.tick_or_move (has a (.head _)) hst with ⟨ns, rfl⟩ | hm
      · exact h.tick ns
      · exact h.move hm
    exact LastFlush.run h₁ (fun b hb => has b (.tail _ hb)) hrun

/-- **One more packet, once `FLUSH_INTERVAL` has passed, flushes everything.**  Take any
    reachable state whose worker is in the streaming loop and has an idle thread `t`.  Let the
    worker drain the channel, the clock pass the interval, and `t` make one `record` call whose
    packet frames.  From there, EVERY run in which no producer moves, whatever the socket does,
    that brings the worker back to `recv` on an empty channel passes the periodic flush: the
    `BufWriter` is empty and the socket has accepted the frame of every packet ever admitted,
    that last one included.  And a run of draining steps back there exists. -/
theorem one_more_packet_flushes (hs : Reachable P s) (hw : s.worker.streaming = true)
    {t : Nat} (ht : s.threads t = .idle) (span : UInt64)
    (hfit : ∀ clock, (toSliceCobs P (.nowWithData clock (.record span))).isSome) :
    ∃ as₁ ns s₁, (∀ a ∈ as₁, a.drains = true) ∧
      run P s (as₁ ++ [.tick ns, .call t (.record span), .thread t, .thread t]) = some s₁ ∧
      (∃ p, s₁.admitted = s.admitted ++ [p]) ∧
      (∀ as₂ s', (∀ a ∈ as₂, a.producer = false) → run P s₁ as₂ = some s' →
        s'.worker = .recv → s'.queue = [] → s'.buf = [] ∧ s'.delivered = frames P s'.admitted) ∧
      ∃ as₂ s', (∀ a ∈ as₂, a.drains = true) ∧ run P s₁ as₂ = some s' ∧ s'.worker = .recv ∧
        s'.queue = [] := by
  -- drain the channel
  obtain ⟨as₁, s₁, has₁, hrun₁, hw₁, hq₁⟩ := drain_run (drainRank P s + 1) (Nat.lt_succ_self _) hw
  obtain ⟨-, -, -, ho₁⟩ := drain_length_le hw has₁ hrun₁
  have hs₁ := reachableBy_run hs (fun _ _ _ => trivial) hrun₁
  -- a worker in `recv` has neither cleared the latch nor dropped the receiver
  have hl₁ := latchInv_reachable hs₁
  have he₁ : s₁.enabled = true :=
    Bool.of_not_eq_false fun e => by simpa [hw₁, Worker.stopped] using hl₁.stopped e
  have hr₁ : s₁.receiverAlive = true :=
    Bool.of_not_eq_false fun e => by simpa [hw₁, Worker.stopped] using hl₁.receiver e
  -- the clock passes the interval, and `t` sends one `record`
  let ns := s₁.lastFlush + flushInterval + 1
  let s₂ : State Info := { s₁ with clock := s₁.clock + ns }
  have hrun₂ := run_record (P := P) (s := s₂) span (ho₁.threads ▸ ht) he₁ hr₁
    (by simp [s₂, hq₁, mpscChannelBound])
  set s₃ : State Info :=
    { s₂ with queue := s₂.queue ++ [.nowWithData s₂.clock (.record span)],
              admitted := s₂.admitted ++ [.nowWithData s₂.clock (.record span)] } with hs₃
  have hrun : run P s (as₁ ++ [.tick ns, .call t (.record span), .thread t, .thread t]) =
      some s₃ := by
    rw [run_append, hrun₁, Option.some_bind]
    exact hrun₂
  have h₃ : LastFlush P s₃ := by
    unfold LastFlush
    rw [show s₃.worker = .recv from hw₁]
    exact .inl ⟨.nowWithData s₂.clock (.record span), by simp [s₃, s₂, hq₁], hfit _,
      by simp only [s₃, s₂, ns]; omega⟩
  refine ⟨as₁, ns, s₃, has₁, hrun,
    ⟨.nowWithData s₂.clock (.record span), by simp [s₃, s₂, ho₁.admitted]⟩,
    fun as₂ s' has₂ hrun₃ hw' hq' => ?_,
    drain_run (drainRank P s₃ + 1) (Nat.lt_succ_self _)
      (by rw [show s₃.worker = .recv from hw₁]; rfl)⟩
  -- back in `recv` on an empty channel: the periodic flush has run
  have hbuf : s'.buf = [] := by
    have h' := h₃.run has₂ hrun₃
    unfold LastFlush at h'
    rw [hw'] at h'
    rcases h' with ⟨p, hp, -⟩ | ⟨-, hb⟩
    · simp [hq'] at hp
    · exact hb
  have hs' := reachableBy_run hs (fun _ _ _ => trivial) ((run_append P s _ as₂).trans
    (by rw [hrun, Option.some_bind, hrun₃]))
  have h := (streamInv_reachable hs').live (by simp [hw', Worker.live, Worker.streaming])
  exact ⟨hbuf, by simpa [State.stream, Worker.held, Worker.pending, hw', hq', hbuf] using h⟩

/-- Connected, thread `0` records once the interval has passed. -/
theorem one_more_packet_flushes_after_connect :
    ∃ s, run demoProtocol init [.connect true] = some s ∧
      ∃ as₁ ns s₁, (∀ a ∈ as₁, a.drains = true) ∧
        run demoProtocol s (as₁ ++ [.tick ns, .call 0 (.record 1), .thread 0, .thread 0]) =
          some s₁ ∧
        (∃ p, s₁.admitted = s.admitted ++ [p]) ∧
        (∀ as₂ s', (∀ a ∈ as₂, a.producer = false) → run demoProtocol s₁ as₂ = some s' →
          s'.worker = .recv → s'.queue = [] →
            s'.buf = [] ∧ s'.delivered = frames demoProtocol s'.admitted) ∧
        ∃ as₂ s', (∀ a ∈ as₂, a.drains = true) ∧ run demoProtocol s₁ as₂ = some s' ∧
          s'.worker = .recv ∧ s'.queue = [] :=
  ⟨_, rfl, one_more_packet_flushes (reachable_run (rfl : run demoProtocol init [.connect true] = _))
    rfl rfl 1 fun _ => rfl⟩

end Feo.Tracing
