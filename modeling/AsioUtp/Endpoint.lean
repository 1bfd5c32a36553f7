/-
UDP endpoints as Boost.Asio has them.
-/
import Mathlib.Data.BitVec

namespace AsioUtp

/-- `boost::asio::ip::address`: its bytes in network order, and for IPv6 the scope id. -/
inductive Address
  | v4 (bytes : BitVec 32)
  | v6 (bytes : BitVec 128) (scopeId : BitVec 32)
  deriving Repr, DecidableEq

namespace Address

/-- `0.0.0.0` and `::`, of whatever scope. -/
def isUnspecified : Address → Bool
  | .v4 bytes => bytes == 0
  | .v6 bytes _ => bytes == 0

def loopbackV4 : Address := .v4 0x7f000001

def loopbackV6 : Address := .v6 1 0

end Address

/-- `boost::asio::ip::udp::endpoint`. -/
structure Endpoint where
  address : Address
  port : BitVec 16
  deriving Repr, DecidableEq

instance : Inhabited Endpoint := ⟨⟨.v4 0, 0⟩⟩

end AsioUtp
