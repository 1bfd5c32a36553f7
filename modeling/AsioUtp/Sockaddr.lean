/-
`util`: endpoints as socket addresses, and back; and `remote_endpoint`.

A socket address is bytes in memory, laid out as Linux has it: the family, the
port, and then the address at an offset that depends on the family. A local
variable holds whatever the stack held until it is assigned (`Uninitialised`),
and a reference that is cast to a larger struct reads past the object it was
made from. So structs are lists of bytes that fields are put into, and reading
is from memory at offsets, which are recorded.
-/
import AsioUtp.Lib.Bytes
import AsioUtp.SocketImpl

namespace AsioUtp

open Bytes (Order store load)

/-- Memory from the address of an object on. -/
abbrev Memory := Nat → UInt8

/-- An object in memory, with what lies behind it. -/
def inMemory (object : List UInt8) (behind : Memory) : Memory := fun k => object.getD k (behind k)

/-- An assignment to the field at an offset; `memcpy` to it. -/
def put (object : List UInt8) (offset : Nat) (bytes : List UInt8) : List UInt8 :=
  object.take offset ++ (bytes ++ object.drop (offset + bytes.length))

/-- `len` bytes read from an offset on, and which. -/
def bytesAt (mem : Memory) (offset len : Nat) : List UInt8 × List Nat :=
  ((List.range len).map fun k => mem (offset + k), (List.range len).map (offset + ·))

def afInet : Nat := 2

def afInet6 : Nat := 10

/-- `htons`, and `ntohs`: the two bytes change places where the host has the low one first. -/
def htons (o : Order) (x : BitVec 16) : BitVec 16 :=
  match o with
  | .little => BitVec.ofNat 16 (x.toNat % 256 * 256 + x.toNat / 256)
  | .big => x

/-- What is in local variables before they are assigned. -/
structure Uninitialised where
  sockaddrIn : List UInt8
  sockaddrIn6 : List UInt8
  sockaddrStorage : List UInt8
  sockaddr : List UInt8
  sockaddrIn_size : sockaddrIn.length = 16
  sockaddrIn6_size : sockaddrIn6.length = 28
  sockaddrStorage_size : sockaddrStorage.length = 128
  sockaddr_size : sockaddr.length = 16

namespace Endpoint

/-! ## To a socket address -/

/-- `util::to_sockaddr_v4`; `to_v4` throws for another address. -/
def toSockaddrV4 (o : Order) (junk : Uninitialised) (ep : Endpoint) : Option (List UInt8) :=
  match ep.address with
  | .v4 bytes =>
    let addr := junk.sockaddrIn
    let addr := put addr 0 (store o 2 afInet)
    let addr := put addr 2 (store o 2 (htons o ep.port).toNat)
    let addr := put addr 4 (store .big 4 bytes.toNat)
    some addr
  | .v6 _ _ => none

/-- `util::to_sockaddr_v6`, which asserts that the address is one. `htons` takes the 16 low bits of the scope id. -/
def toSockaddrV6 (o : Order) (junk : Uninitialised) (ep : Endpoint) : Option (List UInt8) :=
  match ep.address with
  | .v4 _ => none
  | .v6 bytes scopeId =>
    let addr := junk.sockaddrIn6
    let addr := put addr 0 (store o 2 afInet6)
    let addr := put addr 2 (store o 2 (htons o ep.port).toNat)
    let addr := put addr 4 (store o 4 0)
    let addr := put addr 24 (store o 4 (htons o (scopeId.setWidth 16)).toNat)
    let addr := put addr 8 (store .big 16 bytes.toNat)
    some addr

/-- `util::to_sockaddr`. -/
def toSockaddr (o : Order) (junk : Uninitialised) (ep : Endpoint) : Option (List UInt8) := do
  match ep.address with
  | .v4 _ =>
    let addr ← ep.toSockaddrV4 o junk
    return put junk.sockaddrStorage 0 addr
  | .v6 _ _ =>
    let addr ← ep.toSockaddrV6 o junk
    return put junk.sockaddrStorage 0 addr

end Endpoint

/-- `util::sockaddr_size`, which asserts that the family is one of two. -/
def sockaddrSize (o : Order) (addr : List UInt8) : Option Nat :=
  let family := load o (addr.take 2)
  if family = afInet then some 16
  else if family = afInet6 then some 28
  else none

/-! ## From a socket address -/

/-- `util::to_endpoint_v4`, with the offsets it reads. -/
def toEndpointV4 (o : Order) (mem : Memory) : Endpoint × List Nat :=
  let port := bytesAt mem 2 2
  let addr := bytesAt mem 4 4
  ({ address := .v4 (BitVec.ofNat 32 (load .big addr.1))
     port := htons o (BitVec.ofNat 16 (load o port.1)) }, port.2 ++ addr.2)

/-- `util::to_endpoint_v6`. `address_v6(bytes)` has scope id 0. -/
def toEndpointV6 (o : Order) (mem : Memory) : Endpoint × List Nat :=
  let port := bytesAt mem 2 2
  let addr := bytesAt mem 8 16
  ({ address := .v6 (BitVec.ofNat 128 (load .big addr.1)) 0
     port := htons o (BitVec.ofNat 16 (load o port.1)) }, port.2 ++ addr.2)

/-- `util::to_endpoint`, of a `sockaddr` and of a `sockaddr_storage`; it asserts that the family is one of two. -/
def toEndpoint (o : Order) (mem : Memory) : Option (Endpoint × List Nat) :=
  let family := bytesAt mem 0 2
  if load o family.1 = afInet then
    let (ep, reads) := toEndpointV4 o mem
    some (ep, family.2 ++ reads)
  else if load o family.1 = afInet6 then
    let (ep, reads) := toEndpointV6 o mem
    some (ep, family.2 ++ reads)
  else none

/-! ## `remote_endpoint` -/

/-- `utp_getpeername`, by the peer's socket address, the buffer and its length: what the buffer holds then and how many
bytes were written, or nothing if it does not return 0. -/
abbrev Getpeername := List UInt8 → List UInt8 → Nat → Option (List UInt8 × Nat)

/-- It copies as much of the peer's address as there is room for, and returns 0. -/
def Getpeername.Copies (getpeername : Getpeername) : Prop :=
  ∀ peer addr addrlen, getpeername peer addr addrlen = some (put addr 0 (peer.take addrlen), min peer.length addrlen)

/-- What `remote_endpoint` returns, which offsets of its buffer it reads, and how much of that was written. -/
structure RemoteEndpoint where
  endpoint : Endpoint
  reads : List Nat
  written : Nat
  deriving Repr, DecidableEq

/-- `socket_impl::remote_endpoint`, which asserts that there is a `utp_socket` and that `utp_getpeername` returns 0.
The peer was given to libutp as `to_sockaddr` has it; the buffer is a `struct sockaddr`. -/
def World.remoteEndpoint (getpeername : Getpeername) (o : Order) (junk : Uninitialised) (behind : Memory) (w : World)
    (i : Nat) : Option RemoteEndpoint := do
  let u ← w.getpeernameOn i
  let storage ← (w.utp u).peer.toSockaddr o junk
  let size ← sockaddrSize o storage
  let (addr, written) ← getpeername (storage.take size) junk.sockaddr 16
  let (endpoint, reads) ← toEndpoint o (inMemory addr behind)
  return { endpoint, reads, written }

end AsioUtp
