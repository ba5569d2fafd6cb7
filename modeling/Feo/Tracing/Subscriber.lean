/-
  The trace-event PIPELINE of `subscriber.rs` as one transition system: any number of producer
  threads calling the façade, the worker running `Subscriber::thread_main`, the bounded channel
  between them, the one-way `enabled` latch, the worker's `BufWriter`, and a clock.

  Every shared access is ONE step, so the interleavings of the system are those of the code:
  a producer loads the latch, sends on the channel (blocking while it holds
  `MPSC_CHANNEL_BOUND` packets), and stores `false` in separate steps; the worker receives,
  serializes, writes and checks the flush timer in separate steps, and every socket `write`
  inside `flush_buf` or `write_all` is a step whose result the ENVIRONMENT picks (any partial
  count, `Interrupted`, or an error).  Unwinding and returning are modelled with the drops they
  run: `socket_writer` is dropped first (its `Drop` calls `flush_buf` once more and ignores the
  result), the `Receiver` last.

  Beside the code's own state the record keeps GHOST history, which no step reads: the bytes the
  socket accepted, the packets the channel admitted, the span ids allocated and returned, each
  thread's entered spans as the tracing layer sees them, and when each buffered byte was
  appended.  The properties of the pipeline are stated over these.

  The system starts once `init` has returned: the worker thread is spawned and has not yet
  connected, and the subscriber holding the `SyncSender` is the process-wide default, so the
  sender is never dropped and `recv` never reports disconnection.
-/
import Feo.Tracing.BufWriter

namespace Feo.Tracing

variable {Info : Type}

/-- `MPSC_CHANNEL_BOUND`: packets the channel holds. -/
def mpscChannelBound : Nat := 512

/-- `BUFWRITER_SIZE = 512 * MAX_PACKET_SIZE`. -/
def bufwriterSize (P : Protocol Info) : Nat := 512 * P.maxPacketSize

/-- `FLUSH_INTERVAL = Duration::from_millis(500)`, in nanoseconds (the clock's unit). -/
def flushInterval : Nat := 500000000

/-- `tracing::span::Current`. -/
inductive Current where
  | span (id : UInt64)
  | none
  | unknown
  deriving DecidableEq, Repr

/-- `Current::id`. -/
def Current.id : Current → Option UInt64
  | .span id => some id
  | _ => Option.none

/-- `Subscriber::current_span`: the impl block does not override it, so this is the trait's
    default, `Current::unknown()`. -/
def currentSpan : Current := .unknown

/-- A call the tracing layer makes on the subscriber, with what the subscriber reads of its
    arguments: a span's or event's name and recorded fields, or a span id. -/
inductive Call (Info : Type) where
  | newSpan (name : String) (info : Info)
  | record (span : UInt64)
  | event (name : String) (info : Info)
  | enter (span : UInt64)
  | exit (span : UInt64)
  deriving DecidableEq, Repr

/-- Where a producer thread is.  `ret` is the id its `new_span` will return (`none` for the
    other calls). -/
inductive Pc (Info : Type) where
  | idle
  /-- In `new_span`, before `new_span_id`. -/
  | newSpan (name : String) (info : Info)
  /-- In `send`, before loading `enabled`. -/
  | send (packet : TracePacket Info) (ret : Option UInt64)
  /-- In `send`, at `self.sender.send(packet)`. -/
  | enqueue (packet : TracePacket Info) (ret : Option UInt64)
  /-- `send` failed: at `self.enabled.store(false)`. -/
  | disable (ret : Option UInt64)
  /-- `span::Id::from_u64(0)` panicked. -/
  | panicked
  deriving DecidableEq, Repr

/-- Who called `flush_buf`, and so where it returns. -/
inductive FlushCaller where
  /-- `write_all_cold`, about to write `frame`. -/
  | writeAllCold (frame : Bytes)
  /-- `BufWriter::flush`, from the timer check. -/
  | flush
  /-- `BufWriter`'s `Drop`, while the thread returns or unwinds. -/
  | drop (panicking : Bool)
  deriving DecidableEq, Repr

/-- Where the worker thread is in `thread_main`. -/
inductive Worker (Info : Type) where
  | connecting
  /-- `receiver.recv()`. -/
  | recv
  /-- `postcard::to_slice_cobs(&packet, ..)`. -/
  | serialize (packet : TracePacket Info)
  /-- `socket_writer.write_all(serialized)`. -/
  | writeAll (frame : Bytes)
  /-- In `flush_buf`; `written` is its guard's count of bytes written so far. -/
  | flushBuf (written : Nat) (caller : FlushCaller)
  /-- In `get_mut().write_all(buf)`, with `rest` still to write. -/
  | writeDirect (rest : Bytes)
  /-- `if last_flush.elapsed() > FLUSH_INTERVAL`. -/
  | checkFlush
  /-- An error was logged: at `enabled.store(false)`, then `return`. -/
  | disable (hasWriter : Bool)
  /-- The thread is gone. -/
  | exited (panicked : Bool)
  deriving DecidableEq, Repr

/-- The pipeline's state, and ghost history. -/
structure State (Info : Type) where
  /-- `Subscriber::enabled`. -/
  enabled : Bool
  /-- `NEXT_ID`. -/
  nextId : UInt64
  /-- The channel's buffered packets, oldest first. -/
  queue : List (TracePacket Info)
  /-- Whether the worker still holds the `Receiver`. -/
  receiverAlive : Bool
  worker : Worker Info
  /-- `socket_writer`'s buffer. -/
  buf : Bytes
  /-- `last_flush`. -/
  lastFlush : Nat
  threads : Nat → Pc Info
  /-- The monotonic clock, in nanoseconds. -/
  clock : Nat
  /-- Ghost: the bytes the socket accepted, in order. -/
  delivered : Bytes
  /-- Ghost: the packets the channel admitted, in order. -/
  admitted : List (TracePacket Info)
  /-- Ghost: the ids `new_span_id` handed out, with the thread it handed each to. -/
  allocated : List (Nat × UInt64)
  /-- Ghost: the ids `new_span` returned, with the thread it returned each to. -/
  returned : List (Nat × UInt64)
  /-- Ghost: each thread's entered spans as the tracing layer tracks them, innermost first. -/
  entered : Nat → List UInt64
  /-- Ghost: the clock at which each byte of `buf` was appended. -/
  bufTimes : List Nat

/-- The state once `init` has returned. -/
def init : State Info where
  enabled := true
  nextId := 1
  queue := []
  receiverAlive := true
  worker := .connecting
  buf := []
  lastFlush := 0
  threads := fun _ => .idle
  clock := 0
  delivered := []
  admitted := []
  allocated := []
  returned := []
  entered := fun _ => []
  bufTimes := []

/-! ## Producer threads -/

/-- Thread `t` moves to `pc`. -/
def State.setPc (s : State Info) (t : Nat) (pc : Pc Info) : State Info :=
  { s with threads := Function.update s.threads t pc }

theorem State.setPc_self (s : State Info) (t : Nat) (pc : Pc Info) : (s.setPc t pc).threads t = pc :=
  Function.update_same _ _ _

/-- Thread `t` returns from the façade, handing `ret` back to the tracing layer. -/
def State.finish (s : State Info) (t : Nat) (ret : Option UInt64) : State Info :=
  { s.setPc t .idle with returned := s.returned ++ (ret.map (fun id => (t, id))).toList }

/-- `Subscriber::new_span` on thread `t`, entered: `new_span_id` comes next (`allocSpan`). -/
def Subscriber.newSpan (s : State Info) (t : Nat) (name : String) (info : Info) : State Info :=
  s.setPc t (.newSpan name info)

/-- `Subscriber::record`: a `Record` packet, captured with process context, for `send`. -/
def Subscriber.record (s : State Info) (t : Nat) (span : UInt64) : State Info :=
  s.setPc t (.send (.nowWithData s.clock (.record span)) none)

/-- `Subscriber::event`: the name truncated to `MAX_INFO_SIZE`, the parent taken from
    `current_span()`, and the `Event` packet, captured with process context, for `send`. -/
def Subscriber.event (P : Protocol Info) (s : State Info) (t : Nat) (name : String) (info : Info) :
    State Info :=
  let name := truncate P.maxInfoSize name
  s.setPc t (.send (.nowWithData s.clock (.event currentSpan.id name.1 name.2 info)) none)

/-- `Subscriber::enter`: an `Enter` packet, captured without process context, for `send`. -/
def Subscriber.enter (s : State Info) (t : Nat) (span : UInt64) : State Info :=
  s.setPc t (.send (.nowWithoutProcess s.clock (.enter span)) none)

/-- `Subscriber::exit`: an `Exit` packet, captured without process context, for `send`. -/
def Subscriber.exit (s : State Info) (t : Nat) (span : UInt64) : State Info :=
  s.setPc t (.send (.nowWithoutProcess s.clock (.exit span)) none)

/-- The tracing layer calls a façade method on thread `t`; for `enter` and `exit` it also updates
    the thread's entered spans, which it tracks itself. -/
def callStart (P : Protocol Info) (s : State Info) (t : Nat) : Call Info → State Info
  | .newSpan name info => Subscriber.newSpan s t name info
  | .record span => Subscriber.record s t span
  | .event name info => Subscriber.event P s t name info
  | .enter span =>
      { Subscriber.enter s t span with
        entered := Function.update s.entered t (span :: s.entered t) }
  | .exit span =>
      { Subscriber.exit s t span with
        entered := Function.update s.entered t ((s.entered t).erase span) }

/-- `new_span` from `new_span_id` on: `NEXT_ID.fetch_add(1)` (wrapping), `span::Id::from_u64`
    (which panics on `0`), the `NewSpan` packet, then `send`. -/
def allocSpan (P : Protocol Info) (s : State Info) (t : Nat) (name : String) (info : Info) :
    State Info :=
  let id := s.nextId
  let s := { s with nextId := id + 1, allocated := s.allocated ++ [(t, id)] }
  if id = 0 then s.setPc t .panicked
  else
    let name := truncate P.maxInfoSize name
    s.setPc t (.send (.nowWithData s.clock (.newSpan id name.1 name.2 info)) (some id))

/-- One step of producer thread `t`; `none` when it is idle, panicked, or blocked on a full
    channel. -/
def threadStep (P : Protocol Info) (s : State Info) (t : Nat) : Option (State Info) :=
  match s.threads t with
  | .idle | .panicked => none
  | .newSpan name info => some (allocSpan P s t name info)
  | .send packet ret =>
      if s.enabled then some (s.setPc t (.enqueue packet ret)) else some (s.finish t ret)
  | .enqueue packet ret =>
      if !s.receiverAlive then some (s.setPc t (.disable ret))
      else if s.queue.length < mpscChannelBound then
        some ({ s with queue := s.queue ++ [packet], admitted := s.admitted ++ [packet] }.finish t ret)
      else none
  | .disable ret => some ({ s with enabled := false }.finish t ret)

/-! ## The worker -/

/-- The thread leaves `thread_main`; its `Receiver` is dropped with the channel's contents. -/
def State.exit (s : State Info) (panicked : Bool) : State Info :=
  { s with worker := .exited panicked, receiverAlive := false, queue := [] }

/-- `write_to_buffer_unchecked(frame)`, then on to the timer check. -/
def State.append (s : State Info) (frame : Bytes) : State Info :=
  { s with buf := s.buf ++ frame, bufTimes := s.bufTimes ++ List.replicate frame.length s.clock,
           worker := .checkFlush }

/-- The tail of `write_all_cold`. -/
def State.writeCold (P : Protocol Info) (s : State Info) (frame : Bytes) : State Info :=
  if writesDirect (bufwriterSize P) frame then { s with worker := .writeDirect frame }
  else s.append frame

/-- `flush_buf` returned `Ok(())`: the guard drained the whole buffer. -/
def State.flushed (P : Protocol Info) (s : State Info) : FlushCaller → State Info
  | .writeAllCold frame => { s with buf := [], bufTimes := [] }.writeCold P frame
  | .flush => { s with buf := [], bufTimes := [], lastFlush := s.clock, worker := .recv }
  | .drop panicking => { s with buf := [], bufTimes := [] }.exit panicking

/-- `flush_buf` returned an error after writing `written` bytes, which its guard drains.
    `write_all` hands the error to `thread_main`, which disables and returns; `flush` hands it to
    `.expect("failed to flush")`, which panics, and unwinding drops the `BufWriter`; `Drop`
    ignores it. -/
def State.flushFailed (s : State Info) (written : Nat) : FlushCaller → State Info
  | .writeAllCold _ =>
      { s with buf := s.buf.drop written, bufTimes := s.bufTimes.drop written,
               worker := .disable true }
  | .flush =>
      { s with buf := s.buf.drop written, bufTimes := s.bufTimes.drop written,
               worker := .flushBuf 0 (.drop true) }
  | .drop panicking =>
      { s with buf := s.buf.drop written, bufTimes := s.bufTimes.drop written }.exit panicking

/-- One step of the worker that needs nothing from the environment; `none` when it is blocked
    in `recv`, waiting on a socket or connect result, or gone. -/
def workerStep (P : Protocol Info) (s : State Info) : Option (State Info) :=
  match s.worker with
  | .recv =>
      match s.queue with
      | [] => none
      | packet :: rest => some { s with queue := rest, worker := .serialize packet }
  | .serialize packet =>
      match toSliceCobs P packet with
      | some framed => some { s with worker := .writeAll framed }
      | none => some { s with worker := .recv }
  | .writeAll frame =>
      match writeAllPath (bufwriterSize P) s.buf frame with
      | .buffer => some (s.append frame)
      | .flushFirst => some { s with worker := .flushBuf 0 (.writeAllCold frame) }
      | .cold => some (s.writeCold P frame)
  | .flushBuf written caller => if s.buf.length ≤ written then some (s.flushed P caller) else none
  | .writeDirect rest => if rest = [] then some { s with worker := .checkFlush } else none
  | .checkFlush =>
      if flushInterval < s.clock - s.lastFlush then some { s with worker := .flushBuf 0 .flush }
      else some { s with worker := .recv }
  | .disable hasWriter =>
      if hasWriter then some { s with enabled := false, worker := .flushBuf 0 (.drop false) }
      else some ({ s with enabled := false }.exit false)
  | .connecting | .exited _ => none

/-- `UnixStream::connect(UNIX_PACKET_PATH)` returns: on success the serialization buffer, the
    `BufWriter` and `last_flush` are created; on failure the error is logged. -/
def connectStep (s : State Info) (ok : Bool) : Option (State Info) :=
  match s.worker with
  | .connecting =>
      if ok then some { s with worker := .recv, buf := [], bufTimes := [], lastFlush := s.clock }
      else some { s with worker := .disable false }
  | _ => Option.none

/-- The worker's pending socket `write` returns `r`. -/
def socketStep (s : State Info) (r : WriteResult) : Option (State Info) :=
  match s.worker with
  | .flushBuf written caller =>
      let pending := s.buf.drop written
      if pending = [] then none
      else match writeTurn pending r with
        | some (.wrote n) =>
            some { s with worker := .flushBuf (written + n) caller,
                          delivered := s.delivered ++ pending.take n }
        | some .retry => some s
        | some .fail => some (s.flushFailed written caller)
        | none => none
  | .writeDirect rest =>
      if rest = [] then none
      else match writeTurn rest r with
        | some (.wrote n) =>
            some { s with worker := .writeDirect (rest.drop n),
                          delivered := s.delivered ++ rest.take n }
        | some .retry => some s
        | some .fail => some { s with worker := .disable true }
        | none => none
  | _ => Option.none

/-! ## The system -/

/-- A step of the system: the clock advancing, a thread entering a façade method or taking its
    next step, or the worker taking its next step, possibly on an environment result. -/
inductive Action (Info : Type) where
  | tick (ns : Nat)
  | call (t : Nat) (c : Call Info)
  | thread (t : Nat)
  | worker
  | connect (ok : Bool)
  | socket (r : WriteResult)
  deriving DecidableEq, Repr

/-- The transition function; `none` when the action cannot happen now. -/
def step (P : Protocol Info) (s : State Info) : Action Info → Option (State Info)
  | .tick ns => some { s with clock := s.clock + ns }
  | .call t c =>
      match s.threads t with
      | .idle => some (callStart P s t c)
      | _ => none
  | .thread t => threadStep P s t
  | .worker => workerStep P s
  | .connect ok => connectStep s ok
  | .socket r => socketStep s r

/-- The states reachable from `init` through actions that `allowed` admits. -/
inductive ReachableBy (P : Protocol Info) (allowed : State Info → Action Info → Prop) :
    State Info → Prop where
  | init : ReachableBy P allowed init
  | step {s s' : State Info} {a : Action Info} :
      ReachableBy P allowed s → allowed s a → step P s a = some s' → ReachableBy P allowed s'

/-- A property of `init` that every allowed step keeps holds in every reachable state. -/
theorem ReachableBy.invariant {P : Protocol Info} {allowed : State Info → Action Info → Prop}
    {Inv : State Info → Prop} (h0 : Inv Feo.Tracing.init)
    (hstep : ∀ {s s' a}, Inv s → allowed s a → Feo.Tracing.step P s a = some s' → Inv s')
    {s : State Info}
    (hs : ReachableBy P allowed s) : Inv s := by
  induction hs with
  | init => exact h0
  | step _ ha hst ih => exact hstep ih ha hst

/-- The states reachable from `init`, under any schedule and any environment. -/
def Reachable (P : Protocol Info) (s : State Info) : Prop :=
  ReachableBy P (fun _ _ => True) s

/-- Running a list of actions. -/
def run (P : Protocol Info) (s : State Info) : List (Action Info) → Option (State Info)
  | [] => some s
  | a :: as => (step P s a).bind (fun s' => run P s' as)

/-- A protocol to run the model on: 64-byte packets, 8-byte names, and the same three-byte
    encoding for every packet, with a zero for the stuffing to remove. -/
def demoProtocol : Protocol Unit where
  maxPacketSize := 64
  maxInfoSize := 8
  serialize _ := [7, 0, 9]

theorem run_append (P : Protocol Info) (s : State Info) (as bs : List (Action Info)) :
    run P s (as ++ bs) = (run P s as).bind fun s' => run P s' bs := by
  induction as generalizing s with
  | nil => rfl
  | cons a as ih => simp [run, ih, Option.bind_assoc]

theorem reachableBy_run {P : Protocol Info} {allowed : State Info → Action Info → Prop}
    {s s' : State Info} (hs : ReachableBy P allowed s) :
    ∀ {as : List (Action Info)}, (∀ a ∈ as, ∀ t, allowed t a) → run P s as = some s' →
      ReachableBy P allowed s'
  | [], _, h => by cases h; exact hs
  | a :: as, hall, h => by
    simp only [run, Option.bind_eq_some] at h
    obtain ⟨t, ht, hrun⟩ := h
    exact reachableBy_run (.step hs (hall a (by simp) s) ht) (fun b hb => hall b (by simp [hb]))
      hrun

theorem reachable_run {P : Protocol Info} {s : State Info} {as : List (Action Info)}
    (h : run P init as = some s) : Reachable P s :=
  reachableBy_run .init (fun _ _ _ => trivial) h

end Feo.Tracing
