/-
What the codec of `util` keeps of an endpoint (`Endpoint.codec_iff`), and of
which peers `remote_endpoint` can tell (`World.remoteEndpoint_iff`).

Both rest on what the socket address of an endpoint looks like, byte by byte
(`toSockaddrV4_eq`, `toSockaddrV6_eq`): the bytes that are fields, and the bytes
that are left as they were.
-/
import AsioUtp.Sockaddr
import AsioUtp.Socket

namespace AsioUtp

open Bytes Machine

/-! ## Bytes -/

theorem toNat_htons_little (x : BitVec 16) :
    (htons .little x).toNat % 256 = x.toNat / 256 ∧ (htons .little x).toNat / 256 = x.toNat % 256 := by
  have hx := x.isLt
  have hhigh : x.toNat / 256 < 256 := by omega
  have hlow : x.toNat % 256 < 256 := Nat.mod_lt _ (by omega)
  have hnat : (htons .little x).toNat = x.toNat % 256 * 256 + x.toNat / 256 := by
    rw [htons, BitVec.toNat_ofNat, Nat.mod_eq_of_lt]
    omega
  rw [hnat]
  generalize x.toNat / 256 = h at hhigh ⊢
  generalize x.toNat % 256 = l at hlow ⊢
  omega

theorem htons_htons (o : Order) (x : BitVec 16) : htons o (htons o x) = x := by
  cases o with
  | little =>
    obtain ⟨hlow, hhigh⟩ := toNat_htons_little x
    obtain ⟨hlow', hhigh'⟩ := toNat_htons_little (htons .little x)
    apply BitVec.eq_of_toNat_eq
    rw [hlow] at hhigh'
    rw [hhigh] at hlow'
    omega
  | big => rfl

/-- What `htons` gives lies in memory in network order. -/
theorem store_htons (o : Order) (x : BitVec 16) : store o 2 (htons o x).toNat = store .big 2 x.toNat := by
  cases o with
  | little =>
    obtain ⟨hlow, hhigh⟩ := toNat_htons_little x
    have hx := x.isLt
    have hbytes : ∀ n m : Nat, n % 256 = m % 256 → UInt8.ofNat n = UInt8.ofNat m := fun n m h =>
      UInt8.toNat.inj (by rw [UInt8.toNat_ofNat', UInt8.toNat_ofNat']; exact h)
    simp only [store, littleEndian, List.reverse_cons, List.reverse_nil, List.nil_append, List.cons_append]
    rw [hbytes (htons .little x).toNat (x.toNat / 256) (by omega), hhigh, hbytes (x.toNat % 256) x.toNat (by omega)]
  | big => rfl

/-- A port read back. -/
theorem htons_load (o : Order) (x : BitVec 16) : htons o (BitVec.ofNat 16 (load o (store .big 2 x.toNat))) = x := by
  have hlt := (htons o x).isLt
  rw [← store_htons o, load_store, Nat.mod_eq_of_lt (by omega), BitVec.ofNat_toNat, BitVec.setWidth_eq, htons_htons]

/-- An address read back. -/
theorem ofNat_load (o : Order) {n : Nat} (x : BitVec (8 * n)) :
    BitVec.ofNat (8 * n) (load o (store o n x.toNat)) = x := by
  have hlt : x.toNat < 256 ^ n := by
    have := x.isLt
    rwa [pow_mul] at this
  rw [load_store, Nat.mod_eq_of_lt hlt, BitVec.ofNat_toNat, BitVec.setWidth_eq]

/-- Reading a field of an object. -/
theorem bytesAt_field {known field rest : List UInt8} {offset len : Nat} (hoffset : known.length = offset)
    (hlen : field.length = len) (behind : Memory) :
    (bytesAt (inMemory (known ++ field ++ rest) behind) offset len).1 = field := by
  subst hoffset hlen
  apply List.ext_getElem
  · simp [bytesAt]
  · intro k hk hk'
    simp [bytesAt, inMemory, List.getD_eq_getElem?_getD, List.getElem?_append_left hk',
      List.getElem?_append_right (Nat.le_add_right _ k), List.append_assoc, hk']

/-! ## The layout -/

/-- An assignment right after what is known. -/
theorem put_append {known rest : List UInt8} {offset : Nat} (h : known.length = offset) (bytes : List UInt8) :
    put (known ++ rest) offset bytes = known ++ bytes ++ rest.drop bytes.length := by
  subst h
  rw [put, List.take_left, List.drop_append, List.drop_eq_nil_of_le (by omega), Nat.add_sub_cancel_left,
    List.nil_append, List.append_assoc]

theorem put_zero (object bytes : List UInt8) : put object 0 bytes = bytes ++ object.drop bytes.length := by
  simp [put]

/-- A `sockaddr_in`: `sin_zero` is never assigned. -/
theorem toSockaddrV4_eq {ep : Endpoint} {bytes : BitVec 32} (h : ep.address = .v4 bytes) (o : Order)
    (junk : Uninitialised) : ep.toSockaddrV4 o junk =
      some (store o 2 afInet ++ store .big 2 ep.port.toNat ++ store .big 4 bytes.toNat ++ junk.sockaddrIn.drop 8) := by
  simp only [Endpoint.toSockaddrV4, h, store_htons]
  rw [put_zero, put_append (by simp), put_append (by simp)]
  simp [List.drop_drop]

/-- A `sockaddr_in6`: every byte is assigned. -/
theorem toSockaddrV6_eq {ep : Endpoint} {bytes : BitVec 128} {scopeId : BitVec 32} (h : ep.address = .v6 bytes scopeId)
    (o : Order) (junk : Uninitialised) : ep.toSockaddrV6 o junk =
      some (store o 2 afInet6 ++ store .big 2 ep.port.toNat ++ store o 4 0 ++ store .big 16 bytes.toNat ++
        store o 4 (htons o (scopeId.setWidth 16)).toNat) := by
  have hsize := junk.sockaddrIn6_size
  simp only [Endpoint.toSockaddrV6, h, store_htons]
  rw [put_zero, put_append (by simp), put_append (by simp)]
  -- The scope id goes behind the address, which is assigned last.
  simp only [length_store, List.drop_drop]
  have hrest : junk.sockaddrIn6.drop 8 = (junk.sockaddrIn6.drop 8).take 16 ++ junk.sockaddrIn6.drop 24 := by
    rw [← List.drop_drop (i := 16) (j := 8), List.take_append_drop]
  rw [hrest, ← List.append_assoc, put_append (by simp [hsize])]
  rw [List.append_assoc, List.append_assoc, put_append (by simp)]
  simp [hsize, List.drop_eq_nil_of_le]

/-- The bytes of the socket address within `sockaddr_size`: what libutp is given. -/
def Endpoint.sockaddrBytes (o : Order) (junk : Uninitialised) (ep : Endpoint) : Option (List UInt8) := do
  let addr ← ep.toSockaddr o junk
  let size ← sockaddrSize o addr
  return addr.take size

theorem toSockaddr_v4 {ep : Endpoint} {bytes : BitVec 32} (h : ep.address = .v4 bytes) (o : Order)
    (junk : Uninitialised) : ep.toSockaddr o junk =
      some (store o 2 afInet ++ store .big 2 ep.port.toNat ++ store .big 4 bytes.toNat ++
        (junk.sockaddrIn.drop 8 ++ junk.sockaddrStorage.drop 16)) := by
  simp [Endpoint.toSockaddr, h, toSockaddrV4_eq h, put_zero, junk.sockaddrIn_size]

theorem toSockaddr_v6 {ep : Endpoint} {bytes : BitVec 128} {scopeId : BitVec 32} (h : ep.address = .v6 bytes scopeId)
    (o : Order) (junk : Uninitialised) : ep.toSockaddr o junk =
      some (store o 2 afInet6 ++ store .big 2 ep.port.toNat ++ store o 4 0 ++ store .big 16 bytes.toNat ++
        (store o 4 (htons o (scopeId.setWidth 16)).toNat ++ junk.sockaddrStorage.drop 28)) := by
  simp [Endpoint.toSockaddr, h, toSockaddrV6_eq h, put_zero]

theorem sockaddrSize_eq {o : Order} {family : Nat} (hfamily : family = afInet ∨ family = afInet6) (rest : List UInt8) :
    sockaddrSize o (store o 2 family ++ rest) = some (if family = afInet then 16 else 28) := by
  have hload : load o ((store o 2 family ++ rest).take 2) = family := by
    rw [List.take_left' (length_store _ _ _), load_store]
    rcases hfamily with rfl | rfl <;> rfl
  rw [sockaddrSize, hload]
  rcases hfamily with rfl | rfl <;> rfl

/-- They are the struct that was copied to the storage. -/
theorem sockaddrBytes_eq {o : Order} {junk : Uninitialised} {ep : Endpoint} {family : Nat} {fields rest : List UInt8}
    (h : ep.toSockaddr o junk = some (store o 2 family ++ fields ++ rest))
    (hfamily : family = afInet ∨ family = afInet6) (hsize : fields.length = (if family = afInet then 14 else 26)) :
    ep.sockaddrBytes o junk = some (store o 2 family ++ fields) := by
  have hlength : (store o 2 family ++ fields).length = if family = afInet then 16 else 28 := by
    rw [List.length_append, length_store, hsize]
    split <;> rfl
  rw [Endpoint.sockaddrBytes, h, List.append_assoc]
  simp only [Option.bind_eq_bind, Option.bind_some, sockaddrSize_eq hfamily]
  rw [← List.append_assoc, List.take_left' hlength]
  rfl

theorem sockaddrBytes_v4 {ep : Endpoint} {bytes : BitVec 32} (h : ep.address = .v4 bytes) (o : Order)
    (junk : Uninitialised) : ep.sockaddrBytes o junk = some (store o 2 afInet ++
      (store .big 2 ep.port.toNat ++ store .big 4 bytes.toNat ++ junk.sockaddrIn.drop 8)) := by
  have hstorage : ep.toSockaddr o junk = some (store o 2 afInet ++ (store .big 2 ep.port.toNat ++
      store .big 4 bytes.toNat ++ junk.sockaddrIn.drop 8) ++ junk.sockaddrStorage.drop 16) := by
    rw [toSockaddr_v4 h]
    simp only [List.append_assoc]
  exact sockaddrBytes_eq hstorage (.inl rfl) (by simp [junk.sockaddrIn_size])

theorem sockaddrBytes_v6 {ep : Endpoint} {bytes : BitVec 128} {scopeId : BitVec 32} (h : ep.address = .v6 bytes scopeId)
    (o : Order) (junk : Uninitialised) : ep.sockaddrBytes o junk =
      some (store o 2 afInet6 ++ (store .big 2 ep.port.toNat ++ store o 4 0 ++ store .big 16 bytes.toNat ++
        store o 4 (htons o (scopeId.setWidth 16)).toNat)) := by
  have hstorage : ep.toSockaddr o junk = some (store o 2 afInet6 ++ (store .big 2 ep.port.toNat ++ store o 4 0 ++
      store .big 16 bytes.toNat ++ store o 4 (htons o (scopeId.setWidth 16)).toNat) ++
        junk.sockaddrStorage.drop 28) := by
    rw [toSockaddr_v6 h]
    simp only [List.append_assoc]
  exact sockaddrBytes_eq hstorage (.inr rfl) (by simp [afInet, afInet6])

/-! ## Reading back -/

variable (o : Order) (behind : Memory) (port : BitVec 16)

theorem toEndpointV4_eq {front : List UInt8} (hfront : front.length = 2) (bytes : BitVec 32) (rest : List UInt8) :
    toEndpointV4 o (inMemory (front ++ store .big 2 port.toNat ++ store .big 4 bytes.toNat ++ rest) behind) =
      (⟨.v4 bytes, port⟩, [2, 3, 4, 5, 6, 7]) := by
  have haddr : BitVec.ofNat 32 (load .big (store .big 4 bytes.toNat)) = bytes := ofNat_load (n := 4) .big bytes
  unfold toEndpointV4
  dsimp only
  rw [bytesAt_field (show (front ++ store .big 2 port.toNat).length = 4 by simp [hfront]) (length_store _ _ _)]
  rw [List.append_assoc (front ++ _), bytesAt_field hfront (length_store _ _ _), htons_load, haddr]
  rfl

theorem toEndpointV6_eq {front flow : List UInt8} (hfront : front.length = 2) (hflow : flow.length = 4)
    (bytes : BitVec 128) (rest : List UInt8) :
    toEndpointV6 o (inMemory (front ++ store .big 2 port.toNat ++ flow ++ store .big 16 bytes.toNat ++ rest) behind) =
      (⟨.v6 bytes 0, port⟩, [2, 3] ++ (List.range 16).map (8 + ·)) := by
  have haddr : BitVec.ofNat 128 (load .big (store .big 16 bytes.toNat)) = bytes := ofNat_load (n := 16) .big bytes
  unfold toEndpointV6
  dsimp only
  rw [bytesAt_field (show (front ++ store .big 2 port.toNat ++ flow).length = 8 by simp [hfront, hflow])
    (length_store _ _ _)]
  rw [List.append_assoc _ flow, List.append_assoc (front ++ _), bytesAt_field hfront (length_store _ _ _), htons_load,
    haddr]
  rfl

/-- The family says how to go on. -/
theorem toEndpoint_eq {family : Nat} (hfamily : family = afInet ∨ family = afInet6) (rest : List UInt8) :
    toEndpoint o (inMemory (store o 2 family ++ rest) behind) =
      let r := if family = afInet then toEndpointV4 o (inMemory (store o 2 family ++ rest) behind)
        else toEndpointV6 o (inMemory (store o 2 family ++ rest) behind)
      some (r.1, [0, 1] ++ r.2) := by
  have hread : (bytesAt (inMemory ([] ++ store o 2 family ++ rest) behind) 0 2).1 = store o 2 family :=
    bytesAt_field rfl (length_store _ _ _) behind
  rw [List.nil_append] at hread
  unfold toEndpoint
  dsimp only
  rw [hread, load_store]
  rcases hfamily with rfl | rfl
  · simp [afInet, bytesAt, List.range_succ]
  · simp [afInet, afInet6, bytesAt, List.range_succ]

/-! ## The codec -/

omit behind port

/-- What reading a socket address of `ep` back gives: `ep` without its scope id. -/
def Endpoint.unscoped (ep : Endpoint) : Endpoint :=
  match ep.address with
  | .v4 _ => ep
  | .v6 bytes _ => { ep with address := .v6 bytes 0 }

/-- Encoding an endpoint and reading it back, through whichever of the functions: from the whole
`sockaddr_storage`, from what `sockaddr_size` covers of it, and by the variants of its family. -/
structure Endpoint.DecodesTo (o : Order) (ep ep' : Endpoint) : Prop where
  storage : ∀ junk behind, ∃ addr reads, ep.toSockaddr o junk = some addr ∧
    toEndpoint o (inMemory addr behind) = some (ep', reads)
  sized : ∀ junk behind, ∃ addr reads, ep.sockaddrBytes o junk = some addr ∧
    toEndpoint o (inMemory addr behind) = some (ep', reads)
  v4 : ∀ bytes, ep.address = .v4 bytes → ∀ junk behind, ∃ addr, ep.toSockaddrV4 o junk = some addr ∧
    (toEndpointV4 o (inMemory addr behind)).1 = ep'
  v6 : ∀ bytes scopeId, ep.address = .v6 bytes scopeId → ∀ junk behind, ∃ addr, ep.toSockaddrV6 o junk = some addr ∧
    (toEndpointV6 o (inMemory addr behind)).1 = ep'

theorem toEndpoint_v4 (bytes : BitVec 32) (port : BitVec 16) (rest : List UInt8) (behind : Memory) :
    toEndpoint o (inMemory (store o 2 afInet ++ store .big 2 port.toNat ++ store .big 4 bytes.toNat ++ rest) behind) =
      some (⟨.v4 bytes, port⟩, [0, 1, 2, 3, 4, 5, 6, 7]) := by
  have hread := toEndpointV4_eq o behind port (length_store o 2 afInet) bytes rest
  rw [List.append_assoc (store o 2 afInet), List.append_assoc (store o 2 afInet)] at hread ⊢
  rw [toEndpoint_eq o behind (.inl rfl), if_pos rfl, hread]
  rfl

theorem toEndpoint_v6 (bytes : BitVec 128) (port : BitVec 16) (rest : List UInt8) (behind : Memory) :
    toEndpoint o (inMemory (store o 2 afInet6 ++ store .big 2 port.toNat ++ store o 4 0 ++ store .big 16 bytes.toNat ++
      rest) behind) = some (⟨.v6 bytes 0, port⟩, [0, 1, 2, 3] ++ (List.range 16).map (8 + ·)) := by
  have hread := toEndpointV6_eq o behind port (length_store o 2 afInet6) (length_store o 4 0) bytes rest
  rw [List.append_assoc (store o 2 afInet6), List.append_assoc (store o 2 afInet6),
    List.append_assoc (store o 2 afInet6)] at hread ⊢
  rw [toEndpoint_eq o behind (.inr rfl), if_neg (by decide), hread]
  rfl

theorem decodesTo_unscoped (ep : Endpoint) : ep.DecodesTo o ep.unscoped := by
  obtain ⟨address, port⟩ := ep
  cases address with
  | v4 bytes =>
    refine ⟨fun junk behind => ?_, fun junk behind => ?_, fun b h junk behind => ?_, fun b s h => ?_⟩
    · exact ⟨_, _, toSockaddr_v4 rfl o junk, toEndpoint_v4 o bytes port _ behind⟩
    · have hread := toEndpoint_v4 o bytes port (junk.sockaddrIn.drop 8) behind
      rw [List.append_assoc (store o 2 afInet), List.append_assoc (store o 2 afInet)] at hread
      exact ⟨_, _, sockaddrBytes_v4 rfl o junk, hread⟩
    · refine ⟨_, toSockaddrV4_eq rfl o junk, ?_⟩
      rw [toEndpointV4_eq o behind port (length_store o 2 afInet)]
      rfl
    · exact absurd h (by simp)
  | v6 bytes scopeId =>
    refine ⟨fun junk behind => ?_, fun junk behind => ?_, fun b h => ?_, fun b s h junk behind => ?_⟩
    · exact ⟨_, _, toSockaddr_v6 rfl o junk, toEndpoint_v6 o bytes port _ behind⟩
    · have hread := toEndpoint_v6 o bytes port (store o 4 (htons o (scopeId.setWidth 16)).toNat) behind
      rw [List.append_assoc (store o 2 afInet6), List.append_assoc (store o 2 afInet6),
        List.append_assoc (store o 2 afInet6)] at hread
      exact ⟨_, _, sockaddrBytes_v6 rfl o junk, hread⟩
    · exact absurd h (by simp)
    · refine ⟨_, toSockaddrV6_eq rfl o junk, ?_⟩
      rw [toEndpointV6_eq o behind port (length_store o 2 afInet6) (length_store o 4 0)]
      rfl

theorem store_bitVec_inj {n : Nat} {x y : BitVec (8 * n)} (h : store o n x.toNat = store o n y.toNat) : x = y := by
  rw [← ofNat_load o x, h, ofNat_load]

theorem store_port_inj {x y : BitVec 16} (h : store .big 2 x.toNat = store .big 2 y.toNat) : x = y :=
  store_bitVec_inj (n := 2) .big h

theorem store_scopeId_inj {x y : BitVec 16} (h : store o 4 (htons o x).toNat = store o 4 (htons o y).toNat) :
    x = y := by
  have hx := (htons o x).isLt
  have hy := (htons o y).isLt
  rw [store_inj, Nat.mod_eq_of_lt (by omega), Nat.mod_eq_of_lt (by omega)] at h
  rw [← htons_htons o x, BitVec.eq_of_toNat_eq h, htons_htons]

/-- Two endpoints that differ in the upper half of their scope ids at most. -/
def Endpoint.SameButScope (ep ep' : Endpoint) : Prop :=
  ep.port = ep'.port ∧ ∃ bytes scopeId scopeId', ep.address = .v6 bytes scopeId ∧ ep'.address = .v6 bytes scopeId' ∧
    scopeId.setWidth 16 = scopeId'.setWidth 16

/-- Two endpoints that can get the same bytes are one, or differ in the scope id alone. -/
theorem eq_or_sameButScope {ep ep' : Endpoint} {junk junk' : Uninitialised}
    (h : ep.sockaddrBytes o junk = ep'.sockaddrBytes o junk') : ep = ep' ∨ ep.SameButScope ep' := by
  obtain ⟨address, port⟩ := ep
  obtain ⟨address', port'⟩ := ep'
  have hfamilies : store o 2 afInet ≠ store o 2 afInet6 := by
    rw [Ne, store_inj]
    decide
  cases address with
  | v4 bytes =>
    rw [sockaddrBytes_v4 rfl] at h
    cases address' with
    | v4 bytes' =>
      rw [sockaddrBytes_v4 rfl, Option.some_inj] at h
      have hfields := List.append_cancel_left h
      obtain ⟨hfields, -⟩ := List.append_inj hfields (by simp)
      obtain ⟨hport, hbytes⟩ := List.append_inj hfields (by simp)
      have hport : port = port' := store_port_inj hport
      have hbytes : bytes = bytes' := store_bitVec_inj (n := 4) .big hbytes
      exact .inl (by rw [hport, hbytes])
    | v6 bytes' scopeId' =>
      rw [sockaddrBytes_v6 rfl, Option.some_inj] at h
      exact absurd (List.append_inj_left h (by simp)) hfamilies
  | v6 bytes scopeId =>
    rw [sockaddrBytes_v6 rfl] at h
    cases address' with
    | v4 bytes' =>
      rw [sockaddrBytes_v4 rfl, Option.some_inj] at h
      exact absurd (List.append_inj_left h (by simp)).symm hfamilies
    | v6 bytes' scopeId' =>
      rw [sockaddrBytes_v6 rfl, Option.some_inj] at h
      have hfields := List.append_cancel_left h
      obtain ⟨hfields, hscope⟩ := List.append_inj hfields (by simp)
      obtain ⟨hfields, hbytes⟩ := List.append_inj hfields (by simp)
      obtain ⟨hport, -⟩ := List.append_inj hfields (by simp)
      have hbytes := store_bitVec_inj (n := 16) .big hbytes
      subst hbytes
      exact .inr ⟨store_port_inj hport, bytes, scopeId, scopeId', rfl, rfl, store_scopeId_inj o hscope⟩

theorem sameButScope_bytes {ep ep' : Endpoint} (h : ep.SameButScope ep') (junk junk' : Uninitialised) :
    ep.sockaddrBytes o junk = ep'.sockaddrBytes o junk' := by
  obtain ⟨hport, bytes, scopeId, scopeId', hep, hep', hscope⟩ := h
  rw [sockaddrBytes_v6 hep, sockaddrBytes_v6 hep', hport, hscope]

/-- A stack full of one byte. -/
def Uninitialised.filled (b : UInt8) : Uninitialised where
  sockaddrIn := List.replicate 16 b
  sockaddrIn6 := List.replicate 28 b
  sockaddrStorage := List.replicate 128 b
  sockaddr := List.replicate 16 b
  sockaddrIn_size := List.length_replicate
  sockaddrIn6_size := List.length_replicate
  sockaddrStorage_size := List.length_replicate
  sockaddr_size := List.length_replicate

def Endpoint.isV6 (ep : Endpoint) : Bool :=
  match ep.address with
  | .v4 _ => false
  | .v6 _ _ => true

/-- `sin_zero` is whatever the stack held. -/
theorem sockaddrBytes_determined_iff (ep : Endpoint) :
    (∃ bytes, ∀ junk, ep.sockaddrBytes o junk = some bytes) ↔ ep.isV6 := by
  obtain ⟨address, port⟩ := ep
  cases address with
  | v4 bytes =>
    refine ⟨fun ⟨known, h⟩ => ?_, fun h => by cases h⟩
    have hjunk := (h (.filled 0)).trans (h (.filled 1)).symm
    rw [sockaddrBytes_v4 rfl, sockaddrBytes_v4 rfl, Option.some_inj] at hjunk
    have hzero := List.append_cancel_left (List.append_cancel_left hjunk)
    exact absurd hzero (by decide)
  | v6 bytes scopeId => exact ⟨fun _ => rfl, fun _ => ⟨_, fun junk => sockaddrBytes_v6 rfl o junk⟩⟩

theorem decodesTo_self_iff (ep : Endpoint) : ep.DecodesTo o ep ↔ ep.unscoped = ep := by
  refine ⟨fun h => ?_, fun h => ?_⟩
  · obtain ⟨addr, reads, haddr, hread⟩ := h.storage (.filled 0) (fun _ => 0)
    obtain ⟨addr', reads', haddr', hread'⟩ := (decodesTo_unscoped o ep).storage (.filled 0) (fun _ => 0)
    cases haddr.symm.trans haddr'
    rw [hread] at hread'
    exact (congrArg Prod.fst (Option.some.inj hread')).symm
  · have hdecode := decodesTo_unscoped o ep
    rwa [h] at hdecode

/-- The scope id of an address that has one. -/
def Address.scopeId : Address → BitVec 32
  | .v4 _ => 0
  | .v6 _ scopeId => scopeId

theorem unscoped_eq_self_iff (ep : Endpoint) : ep.unscoped = ep ↔ ep.address.scopeId = 0 := by
  obtain ⟨address, port⟩ := ep
  cases address with
  | v4 bytes => simp [Endpoint.unscoped, Address.scopeId]
  | v6 bytes scopeId =>
    simp only [Endpoint.unscoped, Address.scopeId, Endpoint.mk.injEq, Address.v6.injEq, true_and, and_true]
    exact eq_comm

/-- **The address codec, on a machine of either byte order.** An endpoint is read back as it was encoded exactly when
it has no scope id; its bytes are determined by it exactly when it is an IPv6 one, `sin_zero` being never assigned; and
two endpoints get different bytes, whatever the stack held, exactly when they do not differ in the upper half of their
scope ids alone, of which `htons` keeps the lower. -/
theorem Endpoint.codec_iff :
    (∀ ep : Endpoint, ep.DecodesTo o ep ↔ ep.address.scopeId = 0) ∧
    (∀ ep : Endpoint, (∃ bytes, ∀ junk, ep.sockaddrBytes o junk = some bytes) ↔ ep.isV6) ∧
    (∀ ep ep' : Endpoint, ep ≠ ep' →
      ((∀ junk junk', ep.sockaddrBytes o junk ≠ ep'.sockaddrBytes o junk') ↔ ¬ ep.SameButScope ep')) := by
  refine ⟨fun ep => ?_, sockaddrBytes_determined_iff o,
    fun ep ep' hne => ⟨fun h hsame => ?_, fun h junk junk' heq => ?_⟩⟩
  · rw [decodesTo_self_iff, unscoped_eq_self_iff]
  · exact h (.filled 0) (.filled 0) (sameButScope_bytes o hsame _ _)
  · rcases eq_or_sameButScope o heq with rfl | hsame
    · exact hne rfl
    · exact h hsame

/-- The scope ids of two links keep two neighbours apart. -/
theorem Endpoint.codec_link_local :
    (⟨.v6 0xfe800000000000000000000000000001 1, 80⟩ : Endpoint) ≠ ⟨.v6 0xfe800000000000000000000000000001 2, 80⟩ ∧
    ∀ junk junk', (⟨.v6 0xfe800000000000000000000000000001 1, 80⟩ : Endpoint).sockaddrBytes .little junk ≠
      (⟨.v6 0xfe800000000000000000000000000001 2, 80⟩ : Endpoint).sockaddrBytes .little junk' := by
  refine ⟨by decide, ((Endpoint.codec_iff .little).2.2 _ _ (by decide)).mpr ?_⟩
  rintro ⟨-, bytes, scopeId, scopeId', h, h', hscope⟩
  cases h
  cases h'
  exact absurd hscope (by decide)

/-- `fe80::1%1` comes back as `fe80::1`; a stack of ones shows in the socket address of `127.0.0.1`; and `fe80::1%1`
and `fe80::1%65537` have the same. -/
theorem Endpoint.codec_loses :
    (toEndpoint .little (inMemory (((⟨.v6 0xfe800000000000000000000000000001 1, 80⟩ : Endpoint).toSockaddr .little
      (.filled 0)).getD []) fun _ => 0)).map Prod.fst = some ⟨.v6 0xfe800000000000000000000000000001 0, 80⟩ ∧
    (⟨.loopbackV4, 80⟩ : Endpoint).sockaddrBytes .little (.filled 0) ≠
      (⟨.loopbackV4, 80⟩ : Endpoint).sockaddrBytes .little (.filled 1) ∧
    (⟨.v6 0xfe800000000000000000000000000001 1, 80⟩ : Endpoint).sockaddrBytes .little (.filled 0) =
      (⟨.v6 0xfe800000000000000000000000000001 65537, 80⟩ : Endpoint).sockaddrBytes .little (.filled 0) := by
  refine ⟨by decide, by decide, by decide⟩

/-! ## `remote_endpoint` -/

section RemoteEndpoint

variable {getpeername : Getpeername} (hcopies : getpeername.Copies) (junk : Uninitialised) (behind : Memory)
variable {w : World} {i u : Nat}

include hcopies

/-- libutp has the peer's socket address up to its size. -/
theorem remoteEndpoint_eq {peer : List UInt8} (hu : (w.impls i).utpSocket = some u)
    (hpeer : (w.utp u).peer.sockaddrBytes o junk = some peer) (hsize : 16 ≤ peer.length) :
    w.remoteEndpoint getpeername o junk behind i = (toEndpoint o (inMemory (peer.take 16) behind)).map fun r =>
      { endpoint := r.1, reads := r.2, written := 16 } := by
  obtain ⟨storage, hstorage, hpeer⟩ := Option.bind_eq_some_iff.mp hpeer
  obtain ⟨size, hsockaddr, hpeer⟩ := Option.bind_eq_some_iff.mp hpeer
  cases hpeer
  have hbuffer : put junk.sockaddr 0 ((storage.take size).take 16) = (storage.take size).take 16 := by
    have hlen : ((storage.take size).take 16).length = 16 := by rw [List.length_take]; omega
    rw [put_zero, hlen, List.drop_eq_nil_of_le junk.sockaddr_size.le, List.append_nil]
  simp only [World.remoteEndpoint, World.getpeernameOn, hu, hstorage, hsockaddr, hcopies _ _ _, Option.bind_eq_bind,
    Option.bind_some, hbuffer, Nat.min_eq_right hsize, Option.map_eq_bind]
  rfl

theorem remoteEndpoint_v4 {bytes : BitVec 32} (hu : (w.impls i).utpSocket = some u)
    (h : (w.utp u).peer.address = .v4 bytes) : w.remoteEndpoint getpeername o junk behind i =
      some { endpoint := (w.utp u).peer, reads := [0, 1, 2, 3, 4, 5, 6, 7], written := 16 } := by
  have hpeer := sockaddrBytes_v4 h o junk
  have hread := toEndpoint_v4 o bytes (w.utp u).peer.port (junk.sockaddrIn.drop 8) behind
  rw [List.append_assoc (store o 2 afInet), List.append_assoc (store o 2 afInet)] at hread
  rw [remoteEndpoint_eq o hcopies junk behind hu hpeer (by simp [junk.sockaddrIn_size]),
    List.take_of_length_le (by simp [junk.sockaddrIn_size]), hread, ← h]
  rfl

/-- The address of an IPv6 peer is read from offsets 8 to 23, the last eight of them past the buffer. -/
theorem remoteEndpoint_v6 {bytes : BitVec 128} {scopeId : BitVec 32} (hu : (w.impls i).utpSocket = some u)
    (h : (w.utp u).peer.address = .v6 bytes scopeId) : ∃ endpoint, w.remoteEndpoint getpeername o junk behind i =
      some { endpoint, reads := [0, 1, 2, 3] ++ (List.range 16).map (8 + ·), written := 16 } := by
  rw [remoteEndpoint_eq o hcopies junk behind hu (sockaddrBytes_v6 h o junk) (by simp), List.take_append,
    List.take_of_length_le (by simp), toEndpoint_eq o behind (.inr rfl), if_neg (by decide)]
  exact ⟨_, rfl⟩

/-- **`remote_endpoint` reports the peer, whatever lies behind its buffer, and reads nothing else, exactly when the peer
is an IPv4 one**: the buffer is a `struct sockaddr`, too small for the address of another. -/
theorem World.remoteEndpoint_iff (hu : (w.impls i).utpSocket = some u) :
    (∀ behind, ∃ r, w.remoteEndpoint getpeername o junk behind i = some r ∧ r.endpoint = (w.utp u).peer ∧
      ∀ k ∈ r.reads, k < r.written) ↔ (w.utp u).peer.isV6 = false := by
  cases h : (w.utp u).peer.address with
  | v4 bytes =>
    refine ⟨fun _ => by rw [Endpoint.isV6, h], fun _ behind => ?_⟩
    exact ⟨_, remoteEndpoint_v4 o hcopies junk behind hu h, rfl, by dsimp only; decide⟩
  | v6 bytes scopeId =>
    refine ⟨fun hreads => ?_, fun hv6 => by rw [Endpoint.isV6, h] at hv6; cases hv6⟩
    obtain ⟨r, hr, -, hreads⟩ := hreads fun _ => 0
    obtain ⟨endpoint, hr'⟩ := remoteEndpoint_v6 o hcopies junk (fun _ => 0) hu h
    cases hr.symm.trans hr'
    dsimp only at hreads
    exact absurd (hreads 16 (by decide)) (by decide)

end RemoteEndpoint

/-- libutp's own `utp_getpeername`, as far as it matters here. -/
def copyPeer : Getpeername := fun peer addr addrlen =>
  some (put addr 0 (peer.take addrlen), min peer.length addrlen)

theorem copyPeer_copies : copyPeer.Copies := fun _ _ _ => rfl

/-- A socket that connects to `127.0.0.1:80`. -/
theorem World.remoteEndpoint_loopback :
    ∃ w, Run World.Enabled World.step {} [.socket, .bind 0, .asyncConnect 0 ⟨.loopbackV4, 80⟩ [] []] w ∧
      ∀ behind, ∃ r, w.remoteEndpoint copyPeer .little (.filled 0xff) behind 0 = some r ∧
        r.endpoint = ⟨.loopbackV4, 80⟩ ∧ ∀ k ∈ r.reads, k < r.written := by
  obtain ⟨w, hrun, hu, hpeer⟩ := exists_run World.Enabled World.step {}
    [.socket, .bind 0, .asyncConnect 0 ⟨.loopbackV4, 80⟩ [] []]
    (fun w => (w.impls 0).utpSocket = some 0 ∧ (w.utp 0).peer = ⟨.loopbackV4, 80⟩) (by decide)
  have hreads := (World.remoteEndpoint_iff .little copyPeer_copies (.filled 0xff) hu).mpr (by rw [hpeer]; rfl)
  rw [hpeer] at hreads
  exact ⟨w, hrun, hreads⟩

/-- A socket that connects to `[::1]:80`: it reads eight bytes past its buffer, and what it reports is made from
them. -/
theorem World.remoteEndpoint_loopback_v6 :
    ∃ w, Run World.Enabled World.step {} [.socket, .bind 0, .asyncConnect 0 ⟨.loopbackV6, 80⟩ [] []] w ∧
      ∃ r ∈ w.remoteEndpoint copyPeer .little (.filled 0xff) (fun _ => 0) 0, r.endpoint = ⟨.v6 0 0, 80⟩ ∧
        ∃ k ∈ r.reads, r.written ≤ k := by
  exact exists_run World.Enabled World.step {} [.socket, .bind 0, .asyncConnect 0 ⟨.loopbackV6, 80⟩ [] []]
    (fun w => ∃ r ∈ w.remoteEndpoint copyPeer .little (.filled 0xff) (fun _ => 0) 0, r.endpoint = ⟨.v6 0 0, 80⟩ ∧
      ∃ k ∈ r.reads, r.written ≤ k) (by decide)

end AsioUtp
