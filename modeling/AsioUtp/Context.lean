/-
`context` without its sockets: the count of outstanding operations, the
receive entry in the multiplexer and the ticker that drives libutp's
timeouts.

As in `AsioUtp.Multiplexer`, the state is cut where foreign code runs.
`on_read` and the ticker's callback call into libutp, which calls back into
the sockets, which change the count; `reading` and `ticking` say that such a
call is on the stack, and the changes of the count are events of their own.
-/
import AsioUtp.Multiplexer

namespace AsioUtp

/-- `context::ticker_type`. -/
structure Ticker where
  running : Bool := false
  outstanding : Bool := false
  /-- The waits started on `_timer` and not completed, oldest first: has it been cancelled? -/
  waits : List Bool := []
  deriving Repr, DecidableEq

namespace Ticker

/-- `_timer.expires_after`, which cancels earlier waits, and `async_wait`. -/
def asyncWait (t : Ticker) : Ticker :=
  { t with outstanding := true, waits := (t.waits.map fun _ => true) ++ [false] }

def start (t : Ticker) : Ticker :=
  if t.running then t
  else
    let t := { t with running := true }
    if t.outstanding then t else t.asyncWait

def stop (t : Ticker) : Ticker :=
  if t.running then { t with running := false, waits := t.waits.map fun _ => true } else t

end Ticker

/-- The values of `size_t`. -/
def sizeBound : Nat := 2 ^ 64

structure Context where
  outstandingOpCount : Nat := 0
  ticker : Ticker := {}
  /-- Is `_utp_ctx` set? -/
  utpCtx : Bool := true
  multiplexer : Multiplexer Entry := {}
  /-- Does `_multiplexer.lock()` answer the multiplexer? -/
  alive : Bool := true
  /-- Is `on_read` on the stack, in a call into libutp? -/
  reading : Bool := false
  /-- Is the ticker's callback on the stack, in `utp_check_timeouts`? -/
  ticking : Bool := false
  deriving Repr, DecidableEq

namespace Context

def startReceiving (c : Context) : Except Fault Context :=
  if c.alive then do
    let c := { c with ticker := c.ticker.start }
    if c.multiplexer.Linked .context then return c
    else
      let m ← c.multiplexer.registerRecvHandler .context
      return { c with multiplexer := m }
  else .ok c

def stopReceiving (c : Context) : Context :=
  { c with
    ticker := c.ticker.stop
    multiplexer := if c.alive then c.multiplexer.unlink .context else c.multiplexer }

/-- The count is not taken modulo `sizeBound`; it wraps with 2^64 operations started at the earliest. -/
def incrementOutstandingOps (c : Context) : Except Fault Context :=
  let c' := { c with outstandingOpCount := c.outstandingOpCount + 1 }
  if c.outstandingOpCount = 0 then c'.startReceiving else .ok c'

/-- The count is a `size_t`: below zero it wraps. -/
def decrementOutstandingOps (c : Context) : Context :=
  let n := if c.outstandingOpCount = 0 then sizeBound - 1 else c.outstandingOpCount - 1
  let c' := { c with outstandingOpCount := n }
  if n = 0 then c'.stopReceiving else c'

/-- `on_read` up to its calls into libutp. -/
def onRead (c : Context) : Context :=
  if c.alive then { c with reading := true } else c

/-- `on_read` after its calls into libutp. -/
def onReadEnd (c : Context) : Except Fault Context :=
  let c := { c with reading := false }
  if c.outstandingOpCount = 0 then .ok c else c.startReceiving

/-- The wait's completion handler up to `utp_check_timeouts`. -/
def onWait (c : Context) : Except Fault Context :=
  let t := { c.ticker with outstanding := false, waits := c.ticker.waits.tail }
  let t := if c.alive then t else { t with running := false }
  let c := { c with ticker := t }
  if t.running then do
    Except.require (c.utpCtx = true) (.assertion .onTick)
    return { c with ticking := true }
  else .ok c

/-- The wait's completion handler after `utp_check_timeouts`. -/
def onTickEnd (c : Context) : Context :=
  let c := { c with ticking := false }
  if c.ticker.running then { c with ticker := ({ c.ticker with running := false } : Ticker).start } else c

/-- `context::close` after `utp_destroy`. -/
def close (c : Context) : Context := ({ c with utpCtx := false } : Context).stopReceiving

/-! ## The context as a machine -/

inductive Event
  /-- A `socket_impl` starts or ends an operation: in a user's call, in a posted
  completion, or in a libutp callback. -/
  | increment
  | decrement
  /-- A `udp_multiplexer` registers or unlinks its entry. -/
  | register (k : Nat)
  | unlink (k : Nat)
  /-- A receive completes; the flush it starts calls its next entry, `on_read`
  returns, the flush is over. -/
  | received (ec : ErrorCode) (ep : Endpoint) (data : List UInt8)
  | next
  | readEnd
  | flushed
  /-- A wait completes; `utp_check_timeouts` returns. -/
  | waited
  | tickEnd
  /-- The last owner of the multiplexer lets go of it: `_multiplexer.lock()`
  fails from here on; its destructor's `context::close` returns from `utp_destroy`. -/
  | destroy
  | destroyed
  deriving Repr, DecidableEq

/-- What can happen in `c`. One completion runs at a time, and a completion of
the multiplexer keeps it alive; a receive that completes when it is gone finds
its `wself` expired and does nothing to the context. -/
def Enabled (c : Context) : Event → Prop
  | .increment => True
  | .decrement => 0 < c.outstandingOpCount
  | .register k => c.alive = true ∧ ¬ c.multiplexer.Linked (.state k)
  | .unlink _ => c.alive = true
  | .received _ _ _ => c.alive = true ∧ c.multiplexer.udpSocket.receives ≠ [] ∧
      c.multiplexer.flushing = none ∧ c.ticking = false
  | .next => c.alive = true ∧ c.multiplexer.pending ≠ [] ∧ c.reading = false
  | .readEnd => c.reading = true
  | .flushed => c.alive = true ∧ c.multiplexer.flushing ≠ none ∧ c.multiplexer.pending = [] ∧ c.reading = false
  | .waited => c.ticker.waits ≠ [] ∧ (c.alive = true → c.multiplexer.flushing = none) ∧ c.ticking = false
  | .tickEnd => c.ticking = true
  | .destroy => c.alive = true ∧ c.multiplexer.flushing = none
  | .destroyed => c.alive = false ∧ c.utpCtx = true

instance (c : Context) : (ev : Event) → Decidable (c.Enabled ev)
  | .increment => inferInstanceAs (Decidable True)
  | .decrement => inferInstanceAs (Decidable (0 < c.outstandingOpCount))
  | .register _ => inferInstanceAs (Decidable (_ ∧ ¬ _))
  | .unlink _ => inferInstanceAs (Decidable (c.alive = true))
  | .received _ _ _ => inferInstanceAs (Decidable (_ ∧ _ ∧ _ ∧ _))
  | .next => inferInstanceAs (Decidable (_ ∧ _ ∧ _))
  | .readEnd => inferInstanceAs (Decidable (c.reading = true))
  | .flushed => inferInstanceAs (Decidable (_ ∧ _ ∧ _ ∧ _))
  | .waited => inferInstanceAs (Decidable (_ ∧ (_ → _) ∧ _))
  | .tickEnd => inferInstanceAs (Decidable (c.ticking = true))
  | .destroy => inferInstanceAs (Decidable (_ ∧ _))
  | .destroyed => inferInstanceAs (Decidable (_ ∧ _))

/-- The flush calls its next entry; the context's own is `on_read`. -/
def flushNext (c : Context) : Except Fault Context := do
  let m ← c.multiplexer.flushNext fun _ => true
  let c' := { c with multiplexer := m }
  return if c.multiplexer.pending.head? = some .context then c'.onRead else c'

def step (c : Context) : Event → Except Fault Context
  | .increment => c.incrementOutstandingOps
  | .decrement => .ok c.decrementOutstandingOps
  | .register k => do return { c with multiplexer := ← c.multiplexer.registerRecvHandler (.state k) }
  | .unlink k => .ok { c with multiplexer := c.multiplexer.unlink (.state k) }
  | .received ec ep data => do
    return { c with multiplexer := ← (c.multiplexer.receiveCompleted ep data).onReceive ec data.length }
  | .next => c.flushNext
  | .readEnd => c.onReadEnd
  | .flushed => do return { c with multiplexer := ← c.multiplexer.flushed }
  | .waited => c.onWait
  | .tickEnd => .ok c.onTickEnd
  | .destroy => .ok { c with alive := false }
  | .destroyed => .ok c.close

end Context

end AsioUtp
