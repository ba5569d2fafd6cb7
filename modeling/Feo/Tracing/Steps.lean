/-
  What each kind of step of the pipeline CAN change, said once.

  The worker's steps (`workerStep`, `connectStep`, `socketStep`) touch only what the worker
  thread owns, the channel it drains, and the latch, which they can only CLEAR.  A producer's
  steps (`callStart`, `threadStep`) leave the worker's side alone, and change the channel only by
  admitting one packet at its tail, recorded in `admitted` in the same step.  Every invariant of
  the later modules is proved from these inversion lemmas, never by unfolding `step` again.
-/
import Feo.Tracing.Subscriber

namespace Feo.Tracing

variable {Info : Type} {P : Protocol Info} {s s' s'' : State Info}

/-! ## Worker steps -/

/-- Everything one step of the worker thread can do: the control flow of `thread_main`, with
    `BufWriter::write_all`, `flush_buf` and the `BufWriter`'s `Drop` inlined.  `workerStep`,
    `connectStep` and `socketStep` make exactly these moves. -/
inductive WorkerMove (P : Protocol Info) (s : State Info) : State Info → Prop where
  | connected (hw : s.worker = .connecting) :
      WorkerMove P s { s with worker := .recv, buf := [], bufTimes := [], lastFlush := s.clock }
  | connectFailed (hw : s.worker = .connecting) : WorkerMove P s { s with worker := .disable false }
  | recv {p : TracePacket Info} {rest : List (TracePacket Info)} (hw : s.worker = .recv)
      (hq : s.queue = p :: rest) : WorkerMove P s { s with queue := rest, worker := .serialize p }
  | encoded {p : TracePacket Info} {f : Bytes} (hw : s.worker = .serialize p)
      (hf : toSliceCobs P p = some f) : WorkerMove P s { s with worker := .writeAll f }
  | encodeFailed {p : TracePacket Info} (hw : s.worker = .serialize p)
      (hf : toSliceCobs P p = none) : WorkerMove P s { s with worker := .recv }
  | buffered {f : Bytes} (hw : s.worker = .writeAll f)
      (hp : writeAllPath (bufwriterSize P) s.buf f = .buffer) : WorkerMove P s (s.append f)
  | flushFirst {f : Bytes} (hw : s.worker = .writeAll f)
      (hp : writeAllPath (bufwriterSize P) s.buf f = .flushFirst) :
      WorkerMove P s { s with worker := .flushBuf 0 (.writeAllCold f) }
  | cold {f : Bytes} (hw : s.worker = .writeAll f)
      (hp : writeAllPath (bufwriterSize P) s.buf f = .cold) : WorkerMove P s (s.writeCold P f)
  | flushed {w : Nat} {c : FlushCaller} (hw : s.worker = .flushBuf w c) (hb : s.buf.length ≤ w) :
      WorkerMove P s (s.flushed P c)
  | flushWrote {w n : Nat} {c : FlushCaller} (hw : s.worker = .flushBuf w c) (hn : 0 < n)
      (hle : n ≤ (s.buf.drop w).length) :
      WorkerMove P s { s with worker := .flushBuf (w + n) c,
                              delivered := s.delivered ++ (s.buf.drop w).take n }
  | flushFailed {w : Nat} {c : FlushCaller} (hw : s.worker = .flushBuf w c)
      (hp : s.buf.drop w ≠ []) : WorkerMove P s (s.flushFailed w c)
  | directWrote {rest : Bytes} {n : Nat} (hw : s.worker = .writeDirect rest) (hn : 0 < n)
      (hle : n ≤ rest.length) :
      WorkerMove P s { s with worker := .writeDirect (rest.drop n),
                              delivered := s.delivered ++ rest.take n }
  | directFailed {rest : Bytes} (hw : s.worker = .writeDirect rest) (hr : rest ≠ []) :
      WorkerMove P s { s with worker := .disable true }
  | directDone (hw : s.worker = .writeDirect []) : WorkerMove P s { s with worker := .checkFlush }
  | flushDue (hw : s.worker = .checkFlush) (hlt : flushInterval < s.clock - s.lastFlush) :
      WorkerMove P s { s with worker := .flushBuf 0 .flush }
  | flushNotDue (hw : s.worker = .checkFlush) (hle : s.clock - s.lastFlush ≤ flushInterval) :
      WorkerMove P s { s with worker := .recv }
  | disableWriter (hw : s.worker = .disable true) :
      WorkerMove P s { s with enabled := false, worker := .flushBuf 0 (.drop false) }
  | disableReturn (hw : s.worker = .disable false) :
      WorkerMove P s ({ s with enabled := false }.exit false)
  /-- An `Interrupted` write, retried. -/
  | retry : WorkerMove P s s

theorem workerStep_move (h : workerStep P s = some s') : WorkerMove P s s' := by
  unfold workerStep at h
  cases hw : s.worker with
  | connecting | exited => simp [hw] at h
  | recv =>
    cases hq : s.queue with
    | nil => simp [hw, hq] at h
    | cons p rest => simp only [hw, hq, Option.some.injEq] at h; exact h ▸ .recv hw hq
  | serialize p =>
    cases hf : toSliceCobs P p <;> simp only [hw, hf, Option.some.injEq] at h <;> subst h
    · exact .encodeFailed hw hf
    · exact .encoded hw hf
  | writeAll f =>
    cases hp : writeAllPath (bufwriterSize P) s.buf f <;>
      simp only [hw, hp, Option.some.injEq] at h <;> subst h
    · exact .buffered hw hp
    · exact .flushFirst hw hp
    · exact .cold hw hp
  | flushBuf w c =>
    by_cases hb : s.buf.length ≤ w <;> simp only [hw, hb, if_true, if_false, Option.some.injEq,
      reduceCtorEq] at h
    exact h ▸ .flushed hw hb
  | writeDirect rest =>
    by_cases hr : rest = [] <;> simp only [hw, hr, if_true, if_false, Option.some.injEq,
      reduceCtorEq] at h
    subst hr; exact h ▸ .directDone hw
  | checkFlush =>
    by_cases hlt : flushInterval < s.clock - s.lastFlush <;>
      simp only [hw, hlt, if_true, if_false, Option.some.injEq] at h <;> subst h
    · exact .flushDue hw hlt
    · exact .flushNotDue hw (by omega)
  | disable hasWriter =>
    cases hasWriter <;> simp only [hw, if_true, if_false, Option.some.injEq,
      Bool.false_eq_true] at h <;> subst h
    · exact .disableReturn hw
    · exact .disableWriter hw

theorem connectStep_move (P : Protocol Info) {ok : Bool} (h : connectStep s ok = some s') : WorkerMove P s s' := by
  unfold connectStep at h
  cases hw : s.worker <;> simp only [hw, reduceCtorEq, Option.some.injEq] at h
  cases ok <;> simp only [if_true, if_false, Bool.false_eq_true, Option.some.injEq] at h <;>
    subst h
  · exact .connectFailed hw
  · exact .connected hw

theorem socketStep_move (P : Protocol Info) {r : WriteResult} (h : socketStep s r = some s') : WorkerMove P s s' := by
  unfold socketStep at h
  cases hw : s.worker with
  | connecting | recv | serialize | writeAll | checkFlush | disable | exited => simp [hw] at h
  | flushBuf w c =>
    by_cases hp : s.buf.drop w = [] <;> simp only [hw, hp, if_true, if_false, reduceCtorEq] at h
    cases ht : writeTurn (s.buf.drop w) r with
    | none => simp [ht] at h
    | some turn =>
      cases turn <;> simp only [ht, Option.some.injEq] at h <;> subst h
      · exact .flushWrote hw (writeTurn_wrote ht).1 (writeTurn_wrote ht).2
      · exact .retry
      · exact .flushFailed hw hp
  | writeDirect rest =>
    by_cases hr : rest = [] <;> simp only [hw, hr, if_true, if_false, reduceCtorEq] at h
    cases ht : writeTurn rest r with
    | none => simp [ht] at h
    | some turn =>
      cases turn <;> simp only [ht, Option.some.injEq] at h <;> subst h
      · exact .directWrote hw (writeTurn_wrote ht).1 (writeTurn_wrote ht).2
      · exact .retry
      · exact .directFailed hw hr

/-- `s'` differs from `s` only in what the worker thread owns and the channel, and at most by
    clearing the latch. -/
structure WorkerOnly (s s' : State Info) : Prop where
  threads : s'.threads = s.threads
  nextId : s'.nextId = s.nextId
  allocated : s'.allocated = s.allocated
  returned : s'.returned = s.returned
  admitted : s'.admitted = s.admitted
  entered : s'.entered = s.entered
  clock : s'.clock = s.clock
  enabled : s'.enabled = true → s.enabled = true

theorem WorkerOnly.writeCold (h : WorkerOnly s s') (frame : Bytes) :
    WorkerOnly s (s'.writeCold P frame) := by
  unfold State.writeCold State.append
  split <;> exact ⟨h.1, h.2, h.3, h.4, h.5, h.6, h.7, h.8⟩

theorem WorkerMove.workerOnly (h : WorkerMove P s s') : WorkerOnly s s' := by
  cases h
  case cold => exact WorkerOnly.writeCold ⟨rfl, rfl, rfl, rfl, rfl, rfl, rfl, id⟩ _
  case flushed c _ _ =>
    cases c
    case writeAllCold =>
      simp only [State.flushed]
      refine WorkerOnly.writeCold ?_ _
      exact ⟨rfl, rfl, rfl, rfl, rfl, rfl, rfl, id⟩
    all_goals exact ⟨rfl, rfl, rfl, rfl, rfl, rfl, rfl, id⟩
  case flushFailed c _ _ => cases c <;> exact ⟨rfl, rfl, rfl, rfl, rfl, rfl, rfl, id⟩
  case disableWriter | disableReturn => exact ⟨rfl, rfl, rfl, rfl, rfl, rfl, rfl, fun h => nomatch h⟩
  all_goals exact ⟨rfl, rfl, rfl, rfl, rfl, rfl, rfl, id⟩

/-! ## Producer steps -/

/-- Everything one step of producer thread `t` can do: `new_span` allocating its id, and the
    three steps of `send` (load the latch, send on the channel, store `false`). -/
inductive ThreadMove (P : Protocol Info) (s : State Info) (t : Nat) : State Info → Prop where
  | alloc {name : String} {info : Info} (hp : s.threads t = .newSpan name info) :
      ThreadMove P s t (allocSpan P s t name info)
  | load {packet : TracePacket Info} {ret : Option UInt64} (hp : s.threads t = .send packet ret)
      (he : s.enabled = true) : ThreadMove P s t (s.setPc t (.enqueue packet ret))
  | skip {packet : TracePacket Info} {ret : Option UInt64} (hp : s.threads t = .send packet ret)
      (he : s.enabled = false) : ThreadMove P s t (s.finish t ret)
  | closed {packet : TracePacket Info} {ret : Option UInt64}
      (hp : s.threads t = .enqueue packet ret) (hr : s.receiverAlive = false) :
      ThreadMove P s t (s.setPc t (.disable ret))
  | sent {packet : TracePacket Info} {ret : Option UInt64}
      (hp : s.threads t = .enqueue packet ret) (hr : s.receiverAlive = true)
      (hq : s.queue.length < mpscChannelBound) :
      ThreadMove P s t
        ({ s with queue := s.queue ++ [packet], admitted := s.admitted ++ [packet] }.finish t ret)
  | disable {ret : Option UInt64} (hp : s.threads t = .disable ret) :
      ThreadMove P s t ({ s with enabled := false }.finish t ret)

theorem threadStep_move {t : Nat} (h : threadStep P s t = some s') : ThreadMove P s t s' := by
  unfold threadStep at h
  cases hp : s.threads t with
  | idle | panicked => simp [hp] at h
  | newSpan name info => simp only [hp, Option.some.injEq] at h; exact h ▸ .alloc hp
  | send packet ret =>
    cases he : s.enabled <;> simp only [hp, he, if_true, if_false, Bool.false_eq_true,
      Option.some.injEq] at h <;> subst h
    · exact .skip hp he
    · exact .load hp he
  | enqueue packet ret =>
    simp only [hp] at h
    cases hr : s.receiverAlive
    · rw [if_pos (by simp [hr])] at h; cases h; exact .closed hp hr
    · rw [if_neg (by simp [hr])] at h
      split at h
      · cases h; exact .sent hp hr ‹_›
      · cases h
  | disable ret => simp only [hp, Option.some.injEq] at h; exact h ▸ .disable hp

/-- `send` with the latch clear returns at once. -/
theorem threadStep_send_disabled {t : Nat} {p : TracePacket Info} {ret : Option UInt64}
    (hp : s.threads t = .send p ret) (he : s.enabled = false) :
    threadStep P s t = some (s.finish t ret) := by
  simp [threadStep, hp, he]

/-- `sender.send` on a dropped receiver fails: the producer goes on to store `false`. -/
theorem threadStep_closed {t : Nat} {p : TracePacket Info} {ret : Option UInt64}
    (hp : s.threads t = .enqueue p ret) (hr : s.receiverAlive = false) :
    threadStep P s t = some (s.setPc t (.disable ret)) := by
  simp [threadStep, hp, hr]

/-- Having stored `false`, `send` returns. -/
theorem threadStep_disable {t : Nat} {ret : Option UInt64} (hp : s.threads t = .disable ret) :
    threadStep P s t = some ({ s with enabled := false }.finish t ret) := by
  simp [threadStep, hp]

/-- `s'` leaves the worker's side of `s` alone. -/
structure ProducerOnly (s s' : State Info) : Prop where
  worker : s'.worker = s.worker
  buf : s'.buf = s.buf
  bufTimes : s'.bufTimes = s.bufTimes
  lastFlush : s'.lastFlush = s.lastFlush
  delivered : s'.delivered = s.delivered
  receiverAlive : s'.receiverAlive = s.receiverAlive
  clock : s'.clock = s.clock
  enabled : s'.enabled = true → s.enabled = true

@[simp] theorem callStart_worker (c : Call Info) (t : Nat) :
    (callStart P s t c).worker = s.worker := by cases c <;> rfl

theorem callStart_producerOnly (c : Call Info) (t : Nat) : ProducerOnly s (callStart P s t c) := by
  cases c <;> exact ⟨rfl, rfl, rfl, rfl, rfl, rfl, rfl, id⟩

@[simp] theorem callStart_queue (c : Call Info) (t : Nat) :
    (callStart P s t c).queue = s.queue := by cases c <;> rfl

@[simp] theorem callStart_admitted (c : Call Info) (t : Nat) :
    (callStart P s t c).admitted = s.admitted := by cases c <;> rfl

@[simp] theorem callStart_enabled (c : Call Info) (t : Nat) :
    (callStart P s t c).enabled = s.enabled := by cases c <;> rfl

@[simp] theorem callStart_nextId (c : Call Info) (t : Nat) :
    (callStart P s t c).nextId = s.nextId := by cases c <;> rfl

@[simp] theorem callStart_allocated (c : Call Info) (t : Nat) :
    (callStart P s t c).allocated = s.allocated := by cases c <;> rfl

@[simp] theorem callStart_returned (c : Call Info) (t : Nat) :
    (callStart P s t c).returned = s.returned := by cases c <;> rfl

theorem callStart_threads_ne (c : Call Info) {t t' : Nat} (h : t' ≠ t) :
    (callStart P s t c).threads t' = s.threads t' := by
  cases c <;> simp [callStart, Subscriber.newSpan, Subscriber.record, Subscriber.event,
    Subscriber.enter, Subscriber.exit, State.setPc, Function.update_noteq h]

/-- The program counter `new_span` moves to once it has its id. -/
def allocPc (P : Protocol Info) (s : State Info) (name : String) (info : Info) : Pc Info :=
  if s.nextId = 0 then .panicked
  else
    let name := truncate P.maxInfoSize name
    .send (.nowWithData s.clock (.newSpan s.nextId name.1 name.2 info)) (some s.nextId)

theorem allocSpan_eq (t : Nat) (name : String) (info : Info) :
    allocSpan P s t name info =
      { s with nextId := s.nextId + 1, allocated := s.allocated ++ [(t, s.nextId)],
               threads := Function.update s.threads t (allocPc P s name info) } := by
  unfold allocSpan allocPc
  by_cases h : s.nextId = 0 <;> simp only [h, if_true, if_false] <;> rfl

theorem allocSpan_producerOnly (t : Nat) (name : String) (info : Info) :
    ProducerOnly s (allocSpan P s t name info) := by
  rw [allocSpan_eq]; exact ⟨rfl, rfl, rfl, rfl, rfl, rfl, rfl, id⟩

theorem ThreadMove.producerOnly {t : Nat} (h : ThreadMove P s t s') : ProducerOnly s s' := by
  cases h
  case alloc => exact allocSpan_producerOnly _ _ _
  case disable => exact ⟨rfl, rfl, rfl, rfl, rfl, rfl, rfl, fun h => nomatch h⟩
  all_goals exact ⟨rfl, rfl, rfl, rfl, rfl, rfl, rfl, id⟩

/-- A producer step moves only its own thread. -/
theorem ThreadMove.threads_ne {t t' : Nat} (h : ThreadMove P s t s') (ht : t' ≠ t) :
    s'.threads t' = s.threads t' := by
  cases h
  case alloc => rw [allocSpan_eq]; exact Function.update_noteq ht _ _
  all_goals exact Function.update_noteq ht _ _

/-- A producer step admits at most one packet, at the channel's tail, and only while the worker
    holds the receiver. -/
theorem ThreadMove.channel {t : Nat} (h : ThreadMove P s t s') :
    (s'.queue = s.queue ∧ s'.admitted = s.admitted) ∨
      (s.receiverAlive = true ∧ ∃ p, s'.queue = s.queue ++ [p] ∧ s'.admitted = s.admitted ++ [p]) := by
  cases h
  case alloc => rw [allocSpan_eq]; exact .inl ⟨rfl, rfl⟩
  case sent hr _ => exact .inr ⟨hr, _, rfl, rfl⟩
  all_goals exact .inl ⟨rfl, rfl⟩

/-! ## Every step -/

/-- Every step is the clock advancing, a producer entering a façade method or taking its next
    step, or a move of the worker. -/
theorem step_cases {a : Action Info} (h : step P s a = some s') :
    (∃ ns, s' = { s with clock := s.clock + ns }) ∨
      (∃ t c, a = .call t c ∧ s.threads t = .idle ∧ s' = callStart P s t c) ∨
      (∃ t, ThreadMove P s t s') ∨ WorkerMove P s s' := by
  cases a with
  | tick ns => exact .inl ⟨ns, (Option.some.inj h).symm⟩
  | call t c =>
    simp only [step] at h
    split at h <;> cases h
    exact .inr (.inl ⟨t, c, rfl, ‹_›, rfl⟩)
  | thread t => exact .inr (.inr (.inl ⟨t, threadStep_move h⟩))
  | worker => exact .inr (.inr (.inr (workerStep_move h)))
  | connect => exact .inr (.inr (.inr (connectStep_move P h)))
  | socket => exact .inr (.inr (.inr (socketStep_move P h)))

/-- A cleared latch stays cleared: every step from a state whose `enabled` reads `false`. -/
theorem step_disabled {a : Action Info} (he : s.enabled = false) (h : step P s a = some s') :
    s'.enabled = false := by
  cases hen : s'.enabled
  · rfl
  have h' : s.enabled = true := by
    rcases step_cases h with ⟨ns, rfl⟩ | ⟨t, c, -, -, rfl⟩ | ⟨t, ht⟩ | hm
    · exact hen
    · exact (callStart_producerOnly c t).enabled hen
    · exact ht.producerOnly.enabled hen
    · exact hm.workerOnly.enabled hen
  simp [he] at h'

/-- After a failed `connect` the latch is clear, and a `record` call leaves it so. -/
theorem step_disabled_connect_failed :
    ∃ s s' : State Unit, run demoProtocol init [.connect false, .worker] = some s ∧
      s.enabled = false ∧ step demoProtocol s (.call 0 (.record 1)) = some s' ∧
        s'.enabled = false := by
  obtain ⟨s, hs, he, s', hst⟩ : ∃ s : State Unit, run demoProtocol init [.connect false, .worker] =
      some s ∧ s.enabled = false ∧ ∃ s', step demoProtocol s (.call 0 (.record 1)) = some s' :=
    ⟨_, rfl, rfl, _, rfl⟩
  exact ⟨s, s', hs, he, hst, step_disabled he hst⟩

/-- No step sets `enabled` back to `true`. -/
theorem step_enabled {a : Action Info} (h : step P s a = some s') (hen : s'.enabled = true) :
    s.enabled = true := by
  cases he : s.enabled
  · exact absurd (step_disabled he h) (by simp [hen])
  · rfl

/-- A successful `connect` from the initial state keeps the latch set, which was set. -/
theorem step_enabled_connect : (init : State Unit).enabled = true :=
  step_enabled (rfl : step demoProtocol init (.connect true) = _) rfl

end Feo.Tracing
