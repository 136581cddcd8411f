/-
# AsterKV.Network.Socket -- what the kernel and the clock may answer a connection

A connection sees the kernel through `recv` and `send`, the clock through the
readings that decide about idleness, and the rest of the process through the stop
callback.  `Socket` is what the calls on one connected descriptor are going to
answer, one list per call: any way to cut the client's stream into chunks, any
pattern of partial sends, interruptions, timeouts and failures is one choice of
these lists.
-/
import AsterKV.Core.Status

namespace AsterKV.Network

open AsterKV.Core

set_option autoImplicit false

/-- The `TcpLineServer::StopRequestedCallback`.  A stop is never taken back: the
callback answers false some number of times and true from then on. -/
inductive StopRequested where
  | never
  | after (refusals : Nat)
  deriving DecidableEq, Repr

namespace StopRequested

/-- `isStopRequested`: the answer, and what the callback is going to answer next. -/
def poll : StopRequested → Bool × StopRequested
  | .never => (false, .never)
  | .after 0 => (true, .after 0)
  | .after (refusals + 1) => (false, .after refusals)

/-- A stop that was requested stays requested. -/
theorem poll_of_requested {stop : StopRequested} (requested : stop.poll.1 = true) :
    stop.poll.2 = stop := by
  cases stop with
  | never => cases requested
  | after refusals =>
      cases refusals with
      | zero => rfl
      | succ refusals => cases requested

@[simp] theorem poll_never : StopRequested.never.poll = (false, .never) := rfl

end StopRequested

/-- The size of the buffer that `recv` fills. -/
def receiveBufferSize : Nat := 4096

/-- What one `recv` hands over. -/
structure Chunk where
  data : Bytes
  nonempty : data ≠ []
  fits : data.length ≤ receiveBufferSize

/-- A reading of `steady_clock`, in nanoseconds. -/
abbrev TimePoint := Int

/-- How one `recv` ends; `now` is what the clock shows when the code reads it next. -/
inductive RecvOutcome where
  | received (chunk : Chunk) (now : TimePoint)
  | closed
  | interrupted
  | again (now : TimePoint)
  | failed (description : Bytes)

/-- The `errno` values after which a `send` is tried again. -/
inductive TemporaryError where
  | interrupted
  | again
  deriving DecidableEq, Repr

/-- How one `send` ends: `sent more` takes `more + 1` bytes, or all when fewer are left. -/
inductive SendOutcome where
  | sent (more : Nat)
  | wroteNothing
  | temporary (error : TemporaryError)
  | failed (description : Bytes)
  deriving DecidableEq, Repr

/-- A connected descriptor.  When `incoming` runs out the client has closed its side;
when `sends` runs out every `send` takes all it is given. -/
structure Socket where
  incoming : List RecvOutcome := []
  sends : List SendOutcome := []
  /-- What the clock shows when the connection's thread starts to serve it. -/
  openedAt : TimePoint := 0

/-- Descriptor -1.  The first call on it ends a session. -/
def Socket.invalid : Socket where
  incoming := [.failed (bytes "Bad file descriptor")]
  sends := [.failed (bytes "Bad file descriptor")]

/-- The bytes that a client sends. -/
def clientStream : List RecvOutcome → Bytes
  | [] => []
  | .received chunk _ :: rest => chunk.data ++ clientStream rest
  | .closed :: _ => []
  | .failed _ :: _ => []
  | .interrupted :: rest => clientStream rest
  | .again _ :: rest => clientStream rest

end AsterKV.Network
