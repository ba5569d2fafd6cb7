/-
  The parts of `std::io::BufWriter<UnixStream>` the worker exercises, as decisions on its
  buffer.  The loops themselves (`flush_buf`, the direct `write_all`) run one socket `write` per
  step of the pipeline model (`Feo.Tracing.Subscriber`), since the environment decides each
  write's result; this module fixes what ONE such write does to the loop, and which branch
  `BufWriter::write_all` takes.

  Both write-everything loops of std treat a result the same way: `Ok(0)` is the error
  `WriteZero`, `Ok(n)` advances by `n`, an `Interrupted` error is retried, and any other error
  is returned.  So one `writeTurn` serves `flush_buf` and `Write::write_all` alike.
-/
import Feo.Tracing.Protocol

namespace Feo.Tracing

/-- What one `UnixStream::write` call returns. -/
inductive WriteResult where
  /-- `Ok(n)`: `n` bytes were written. -/
  | ok (n : Nat)
  /-- `Err(e)` with `e.kind() == Interrupted`. -/
  | interrupted
  /-- Any other `Err(e)`. -/
  | error
  deriving DecidableEq, Repr

/-- How a write-everything loop goes on after one `write`. -/
inductive Turn where
  | wrote (n : Nat)
  | retry
  | fail
  deriving DecidableEq, Repr

/-- One turn of `flush_buf` / `write_all` on the `pending` bytes; `none` when the socket would
    claim to have written more than it was given. -/
def writeTurn (pending : Bytes) : WriteResult → Option Turn
  | .ok 0 => some .fail
  | .ok (n + 1) => if n + 1 ≤ pending.length then some (.wrote (n + 1)) else none
  | .interrupted => some .retry
  | .error => some .fail

theorem writeTurn_wrote {pending : Bytes} {r : WriteResult} {n : Nat}
    (h : writeTurn pending r = some (.wrote n)) : 0 < n ∧ n ≤ pending.length := by
  cases r with
  | ok m =>
    cases m with
    | zero => simp [writeTurn] at h
    | succ m =>
      simp only [writeTurn] at h
      split at h
      · simp only [Option.some.injEq, Turn.wrote.injEq] at h; omega
      · simp at h
  | interrupted | error => simp [writeTurn] at h

/-- The branch `BufWriter::write_all(frame)` takes. -/
inductive WriteAllPath where
  /-- `frame.len() < spare_capacity()`: copied into the buffer. -/
  | buffer
  /-- `write_all_cold` with `frame.len() > spare_capacity()`: `flush_buf()?` first. -/
  | flushFirst
  /-- `write_all_cold` with `frame.len() == spare_capacity()`: no flush. -/
  | cold
  deriving DecidableEq, Repr

/-- `BufWriter::write_all` on a buffer of `capacity` holding `buf`. -/
def writeAllPath (capacity : Nat) (buf frame : Bytes) : WriteAllPath :=
  if frame.length < capacity - buf.length then .buffer
  else if capacity - buf.length < frame.length then .flushFirst
  else .cold

theorem writeAllPath_buffer {capacity : Nat} {buf frame : Bytes}
    (h : writeAllPath capacity buf frame = .buffer) : buf.length + frame.length < capacity := by
  unfold writeAllPath at h
  split at h
  · omega
  · split at h <;> cases h

theorem writeAllPath_cold {capacity : Nat} {buf frame : Bytes}
    (h : writeAllPath capacity buf frame = .cold) : frame.length = capacity - buf.length := by
  unfold writeAllPath at h
  split at h
  · cases h
  · split at h
    · cases h
    · omega

/-- The tail of `write_all_cold`: a frame at least as long as the whole buffer goes straight to
    the socket (`get_mut().write_all`), any other into the buffer. -/
def writesDirect (capacity : Nat) (frame : Bytes) : Bool := capacity ≤ frame.length

end Feo.Tracing
