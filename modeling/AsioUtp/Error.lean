/-
Error codes and faults.

A `boost::system::error_code` is one of the codes this library itself tests
or produces, or some other code. A fault is where the C++ program has no next
state: an `assert` that fails, an empty `handler` posted, a null or dangling
pointer followed.
-/
import AsioUtp.Lib.Machine

namespace AsioUtp

/-- `boost::system::error_code`; `success` is the zero value. -/
inductive ErrorCode
  | success
  | wouldBlock
  | badDescriptor
  | operationAborted
  | connectionReset
  | connectionAborted
  | alreadyOpen
  | other (code : Nat)
  deriving Repr, DecidableEq

/-- `bool(ec)`. -/
def ErrorCode.isError (ec : ErrorCode) : Bool := ec != .success

/-- The `assert`s of the library, by the function they stand in. -/
inductive Site
  | startReceiving       -- udp_multiplexer_impl::start_receiving: `!_is_receiving`
  | onReceive            -- its completion: `_is_receiving`
  | flushHandlers        -- udp_multiplexer_impl::flush_handlers: `e.handler`
  | doReceive            -- udp_multiplexer::do_receive: `!_state->rx_handler`
  | onTick               -- the ticker's callback: `_utp_ctx`
  | onReadSocket         -- context::callback_on_read: `socket`
  | onReceiveQueue       -- socket_impl::on_receive: `_rx_buffer_queue.empty()`
  | onAcceptSocket       -- socket_impl::on_accept: `!_utp_socket`
  | onAcceptHandler      -- socket_impl::on_accept: `_accept_handler`
  | doWrite              -- socket_impl::do_write: `!_send_handler`
  | doRead               -- socket_impl::do_read: `!_recv_handler`
  | doReadQueue          -- its drain loop: `!_rx_buffer_queue.empty()`
  | doAccept             -- socket_impl::do_accept: `!_accept_handler`
  | doConnect            -- socket_impl::do_connect: `!_utp_socket`
  | onEof                -- socket_impl::on_eof: `!_got_eof`
  | onDestroy            -- socket_impl::on_destroy: `_utp_socket`
  | closedAccept         -- socket_impl::close_with_error when closed: `!_accept_handler`
  | closedConnect        -- `!_connect_handler`
  | closedRecv           -- `!_recv_handler`
  | closedSend           -- `!_send_handler`
  | decrementClose       -- socket_impl::close_with_error: `!_decrement_close`
  | copyState            -- udp_multiplexer(const udp_multiplexer&): `other._state`
  | copyImpl             -- `other._state->impl`
  | bindState            -- udp_multiplexer::bind: `!_state`
  | implState            -- udp_multiplexer::impl: `_state`
  | signalCall           -- Signal::operator(): `0`, where a slot throws
  deriving Repr, DecidableEq

/-- Why a step has no next state. -/
inductive Fault
  /-- An `assert` failed. -/
  | assertion (site : Site)
  /-- `handler::post` or `dispatch` on an empty handler: a null `_impl` dereferenced. -/
  | emptyHandler
  /-- A null `_socket_impl` or `_owner` followed. -/
  | nullPointer
  /-- A libutp call on a null `utp_socket*`. -/
  | nullSocket
  /-- `utp_create_socket` called with a null `utp_context*`. -/
  | nullContext
  /-- A libutp call on a `utp_socket` libutp has destroyed. -/
  | deadSocket
  /-- A reference whose object is gone followed. -/
  | dangling
  /-- An intrusive hook linked twice. -/
  | hookLinked
  /-- The recursion bound of the model is used up. -/
  | diverged
  deriving Repr, DecidableEq

end AsioUtp
