import Libtvnet.Foundation.CInteger
import Mathlib.Data.BitVec

/-!
# `service.h` with TIPC

A service number holds two words of an address and, as its sign, which kind of
address they are of.  Names are positive and ports are negative, so a word with
its high bit set does not fit above the other, and the port of two zero words
has no sign.
-/

namespace Libtvnet.Tipc

open Libtvnet.Foundation

/-! ## Addresses -/

/-- The union `addr`: a name and a port have their words in the same place. -/
structure Addr where
  first : UInt32
  second : UInt32
  third : UInt32
  deriving DecidableEq

namespace Addr

def nameType (addr : Addr) : UInt32 := addr.first

def nameInstance (addr : Addr) : UInt32 := addr.second

def idRef (addr : Addr) : UInt32 := addr.first

def idNode (addr : Addr) : UInt32 := addr.second

end Addr

structure SockaddrTipc where
  family : UInt16
  addrtype : UInt8
  scope : Int8
  addr : Addr
  deriving DecidableEq

def afTipc : UInt16 := 30

def tipcAddrName : UInt8 := 2

def tipcAddrId : UInt8 := 3

def tipcZoneScope : Int8 := 1

def tipcClusterScope : Int8 := 2

def sizeofSockaddrTipc : Nat := 16

/-! ## Numbers of services

`none` is an operator without a defined result, or the call of `abort`. -/

def tvuInt (word : UInt32) : Int64 := Int64.ofNat word.toNat

def shiftLeft (n : Int64) (bits : Nat) : Option Int64 :=
  (IntegerType.int64.shiftLeft n.toInt bits).map Int64.ofInt

def negate (n : Int64) : Option Int64 := (IntegerType.int64.negate n.toInt).map Int64.ofInt

def tvuAbs (n : Int64) : Option UInt64 :=
  if n < 0 then (negate n).map Int64.toUInt64 else some n.toUInt64

def nameAddress (number : UInt64) (bind : Bool) : SockaddrTipc where
  family := afTipc
  addrtype := tipcAddrName
  scope := if bind then tipcClusterScope else -tipcClusterScope
  addr := {
    first := (number >>> 32).toUInt32
    second := (number &&& 0xffffffff).toUInt32
    third := 0 }

/-- The word behind the port stays as the caller has left it. -/
def idAddress (number : UInt64) (bind : Bool) (address : SockaddrTipc) : SockaddrTipc where
  family := afTipc
  addrtype := tipcAddrId
  scope := if bind then tipcZoneScope else -tipcZoneScope
  addr := { address.addr with
    second := (number >>> 32).toUInt32
    first := (number &&& 0xffffffff).toUInt32 }

def tvnsMakeAddress (serviceNr : Int64) (bind : Bool) (address : SockaddrTipc) :
    Option (Nat × SockaddrTipc) := do
  let number ← tvuAbs serviceNr
  if 0 ≤ serviceNr then some (sizeofSockaddrTipc, nameAddress number bind)
  else some (sizeofSockaddrTipc, idAddress number bind address)

def tvnsParseAddress (address : SockaddrTipc) : Option Int64 :=
  if address.addrtype = tipcAddrName then do
    let high ← shiftLeft (tvuInt address.addr.nameType) 32
    some (high ||| tvuInt address.addr.nameInstance)
  else if address.addrtype = tipcAddrId then do
    let high ← shiftLeft (tvuInt address.addr.idNode) 32
    negate (high ||| tvuInt address.addr.idRef)
  else none

/-! ## Replies -/

inductive Peer where
  | name (type nameInstance : UInt32)
  | id (node ref : UInt32)
  deriving DecidableEq

def SockaddrTipc.peer (address : SockaddrTipc) : Option Peer :=
  if address.addrtype = tipcAddrName then
    some (.name address.addr.nameType address.addr.nameInstance)
  else if address.addrtype = tipcAddrId then
    some (.id address.addr.idNode address.addr.idRef)
  else none

/-- Every address of the peer gives a number, and the number an address of the peer. -/
def ReplyReaches (peer : Peer) : Prop :=
  ∀ address, address.peer = some peer → ∃ serviceNr, tvnsParseAddress address = some serviceNr ∧
    ∀ bind allocated, ∃ length reply,
      tvnsMakeAddress serviceNr bind allocated = some (length, reply) ∧ reply.peer = some peer

/-- The upper word leaves the sign free, and a port has one. -/
def Peer.Numbered : Peer → Prop
  | .name type _ => type.toNat < 2 ^ 31
  | .id node ref => node.toNat < 2 ^ 31 ∧ ¬ (node = 0 ∧ ref = 0)

/-! ## Two words in one -/

def pack (high low : UInt32) : Nat := 2 ^ 32 * high.toNat + low.toNat

theorem pack_lt {high : UInt32} (h : high.toNat < 2 ^ 31) (low : UInt32) :
    pack high low < 2 ^ 63 := by
  have hlow := low.toNat_lt
  unfold pack
  omega

private theorem toInt_tvuInt (word : UInt32) : (tvuInt word).toInt = word.toNat := by
  have hword := word.toNat_lt
  exact Int64.toInt_ofNat_of_lt (by omega)

private theorem holds_int64 {i : Int} : IntegerType.int64.Holds i ↔ -(2 ^ 63) ≤ i ∧ i < 2 ^ 63 := by
  rw [IntegerType.int64, IntegerType.holds_signed]
  omega

theorem ofNat_or_ofNat (m n : Nat) : Int64.ofNat m ||| Int64.ofNat n = Int64.ofNat (m ||| n) := by
  apply Int64.toBitVec_inj.mp
  rw [Int64.toBitVec_or]
  exact BitVec.ofNat_or.symm

private theorem shiftLeft_tvuInt {high : UInt32} (h : high.toNat < 2 ^ 31) (low : UInt32) :
    (shiftLeft (tvuInt high) 32).map (· ||| tvuInt low) = some (Int64.ofNat (pack high low)) := by
  have hlow := low.toNat_lt
  have hholds : IntegerType.int64.Holds (high.toNat * 2 ^ 32) := by
    rw [holds_int64]
    omega
  have hshifted : Int64.ofInt (high.toNat * 2 ^ 32) = Int64.ofNat (2 ^ 32 * high.toNat) := by
    rw [← Int64.ofInt_eq_ofNat]
    push_cast
    rw [Int.mul_comm]
  rw [shiftLeft, toInt_tvuInt, IntegerType.shiftLeft_of_nonneg (by omega),
    IntegerType.checked_of_holds hholds]
  simp only [Option.map_some]
  rw [hshifted, tvuInt, ofNat_or_ofNat, ← Nat.two_pow_add_eq_or_of_lt hlow, pack]

private theorem shiftLeft_eq_none {high : UInt32} (h : 2 ^ 31 ≤ high.toNat) :
    shiftLeft (tvuInt high) 32 = none := by
  have hnot : ¬ IntegerType.int64.Holds (high.toNat * 2 ^ 32) := by
    rw [holds_int64]
    omega
  rw [shiftLeft, toInt_tvuInt, IntegerType.shiftLeft_of_nonneg (by omega),
    IntegerType.checked_of_not_holds hnot]
  rfl

private theorem unpack_high {high : UInt32} (h : high.toNat < 2 ^ 31) (low : UInt32) :
    (UInt64.ofNat (pack high low) >>> 32).toUInt32 = high := by
  have hpack := pack_lt h low
  have hlow := low.toNat_lt
  have hword : (UInt64.ofNat (pack high low)).toNat = pack high low :=
    UInt64.toNat_ofNat_of_lt' (hpack.trans (by decide))
  have hshift : (UInt64.ofNat (pack high low) >>> 32).toNat = pack high low / 2 ^ 32 := by
    rw [UInt64.toNat_shiftRight, hword]
    exact Nat.shiftRight_eq_div_pow _ 32
  apply UInt32.toNat_inj.mp
  rw [UInt64.toNat_toUInt32, hshift]
  unfold pack at *
  omega

private theorem unpack_low {high : UInt32} (h : high.toNat < 2 ^ 31) (low : UInt32) :
    (UInt64.ofNat (pack high low) &&& 0xffffffff).toUInt32 = low := by
  have hpack := pack_lt h low
  have hlow := low.toNat_lt
  have hword : (UInt64.ofNat (pack high low)).toNat = pack high low :=
    UInt64.toNat_ofNat_of_lt' (hpack.trans (by decide))
  have hmask : (UInt64.ofNat (pack high low) &&& 0xffffffff).toNat = pack high low % 2 ^ 32 := by
    rw [UInt64.toNat_and, hword]
    exact Nat.and_two_pow_sub_one_eq_mod _ 32
  apply UInt32.toNat_inj.mp
  rw [UInt64.toNat_toUInt32, hmask]
  unfold pack at *
  omega

/-! ## Names -/

private theorem tvnsMakeAddress_name {type nameInstance : UInt32} (h : type.toNat < 2 ^ 31)
    (bind : Bool) (address : SockaddrTipc) :
    ∃ length reply,
      tvnsMakeAddress (Int64.ofNat (pack type nameInstance)) bind address =
        some (length, reply) ∧ reply.peer = some (.name type nameInstance) := by
  have hpack := pack_lt h nameInstance
  have hnonneg : 0 ≤ Int64.ofNat (pack type nameInstance) := by
    rw [Int64.le_iff_toInt_le, Int64.toInt_ofNat_of_lt hpack]
    exact Int.natCast_nonneg _
  have habs : tvuAbs (Int64.ofNat (pack type nameInstance)) =
      some (UInt64.ofNat (pack type nameInstance)) := by
    rw [tvuAbs, if_neg (Int64.not_lt.mpr hnonneg), Int64.toUInt64_ofNat']
  refine ⟨sizeofSockaddrTipc, nameAddress (UInt64.ofNat (pack type nameInstance)) bind, ?_, ?_⟩
  · rw [tvnsMakeAddress, habs, Option.bind_eq_bind, Option.bind_some, if_pos hnonneg]
  · rw [SockaddrTipc.peer, nameAddress, if_pos rfl, Addr.nameType, Addr.nameInstance,
      unpack_high h, unpack_low h]

private theorem tvnsParseAddress_name {address : SockaddrTipc} {type nameInstance : UInt32}
    (haddress : address.peer = some (.name type nameInstance)) :
    tvnsParseAddress address =
      (shiftLeft (tvuInt type) 32).map (· ||| tvuInt nameInstance) := by
  unfold SockaddrTipc.peer at haddress
  split_ifs at haddress with hname hid
  · obtain ⟨rfl, rfl⟩ := Peer.name.inj (Option.some.inj haddress)
    rw [tvnsParseAddress, if_pos hname]
    cases shiftLeft (tvuInt address.addr.nameType) 32 with
    | none => rfl
    | some high => rfl
  · cases haddress

/-! ## Ports -/

private theorem tvnsMakeAddress_id {node ref : UInt32} (h : node.toNat < 2 ^ 31)
    (hpos : 0 < pack node ref) (bind : Bool) (address : SockaddrTipc) :
    ∃ length reply,
      tvnsMakeAddress (Int64.ofInt (-(pack node ref : Int))) bind address =
        some (length, reply) ∧ reply.peer = some (.id node ref) := by
  have hpack := pack_lt h ref
  have htoInt : (Int64.ofInt (-(pack node ref : Int))).toInt = -(pack node ref : Int) :=
    Int64.toInt_ofInt_of_le (by omega) (by omega)
  have hneg : Int64.ofInt (-(pack node ref : Int)) < 0 := by
    rw [Int64.lt_iff_toInt_lt, htoInt]
    change -(pack node ref : Int) < 0
    omega
  have habs : tvuAbs (Int64.ofInt (-(pack node ref : Int))) =
      some (UInt64.ofNat (pack node ref)) := by
    have hholds : IntegerType.int64.Holds (pack node ref) := by
      rw [holds_int64]
      omega
    rw [tvuAbs, if_pos hneg, negate, IntegerType.negate, htoInt, Int.neg_neg,
      IntegerType.checked_of_holds hholds, Option.map_some, Option.map_some,
      Int64.ofInt_eq_ofNat, Int64.toUInt64_ofNat']
  refine ⟨sizeofSockaddrTipc, idAddress (UInt64.ofNat (pack node ref)) bind address, ?_, ?_⟩
  · rw [tvnsMakeAddress, habs, Option.bind_eq_bind, Option.bind_some,
      if_neg (Int64.not_le.mpr hneg)]
  · rw [SockaddrTipc.peer, idAddress, if_neg (by simp [tipcAddrId, tipcAddrName]), if_pos rfl,
      Addr.idNode, Addr.idRef, unpack_high h, unpack_low h]

private theorem tvnsParseAddress_id {address : SockaddrTipc} {node ref : UInt32}
    (haddress : address.peer = some (.id node ref)) :
    tvnsParseAddress address =
      ((shiftLeft (tvuInt node) 32).map (· ||| tvuInt ref)).bind negate := by
  unfold SockaddrTipc.peer at haddress
  split_ifs at haddress with hname hid
  · cases haddress
  · obtain ⟨rfl, rfl⟩ := Peer.id.inj (Option.some.inj haddress)
    rw [tvnsParseAddress, if_neg hname, if_pos hid, Option.bind_map]
    rfl

private theorem negate_pack {node ref : UInt32} (h : node.toNat < 2 ^ 31) :
    negate (Int64.ofNat (pack node ref)) = some (Int64.ofInt (-(pack node ref : Int))) := by
  have hpack := pack_lt h ref
  have hholds : IntegerType.int64.Holds (-(pack node ref : Int)) := by
    rw [holds_int64]
    omega
  rw [negate, IntegerType.negate, Int64.toInt_ofNat_of_lt hpack,
    IntegerType.checked_of_holds hholds, Option.map_some]

/-! ## Every peer -/

private theorem replyReaches_of_numbered {peer : Peer} (h : peer.Numbered) : ReplyReaches peer := by
  intro address haddress
  cases peer with
  | name type nameInstance =>
      refine ⟨Int64.ofNat (pack type nameInstance), ?_, tvnsMakeAddress_name h⟩
      rw [tvnsParseAddress_name haddress, shiftLeft_tvuInt h]
  | id node ref =>
      obtain ⟨hnode, hzero⟩ := h
      have hpos : 0 < pack node ref := by
        rw [Nat.pos_iff_ne_zero]
        intro hpack
        apply hzero
        unfold pack at hpack
        constructor
        · exact UInt32.toNat_inj.mp (show node.toNat = 0 by omega)
        · exact UInt32.toNat_inj.mp (show ref.toNat = 0 by omega)
      refine ⟨Int64.ofInt (-(pack node ref : Int)), ?_, tvnsMakeAddress_id hnode hpos⟩
      rw [tvnsParseAddress_id haddress, shiftLeft_tvuInt hnode, Option.bind_some,
        negate_pack hnode]

def Peer.sockaddr : Peer → SockaddrTipc
  | .name type nameInstance => ⟨afTipc, tipcAddrName, 0, ⟨type, nameInstance, 0⟩⟩
  | .id node ref => ⟨afTipc, tipcAddrId, 0, ⟨ref, node, 0⟩⟩

private theorem peer_sockaddr (peer : Peer) : peer.sockaddr.peer = some peer := by
  cases peer <;> rfl

theorem not_replyReaches_portZero : ¬ ReplyReaches (.id 0 0) := by
  intro hreaches
  obtain ⟨serviceNr, hparsed, hreply⟩ := hreaches _ (peer_sockaddr (.id 0 0))
  obtain rfl : (0 : Int64) = serviceNr := Option.some.inj hparsed
  obtain ⟨length, reply, hmade, hpeer⟩ := hreply true ⟨0, 0, 0, ⟨0, 0, 0⟩⟩
  have hname : reply.peer = some (.name 0 0) := by
    cases hmade
    rfl
  rw [hname] at hpeer
  cases hpeer

/-- A reply goes to the sender if and only if the number has a place for both words and a sign. -/
theorem replyReaches_iff (peer : Peer) : ReplyReaches peer ↔ peer.Numbered := by
  refine ⟨fun hreaches => ?_, replyReaches_of_numbered⟩
  obtain ⟨serviceNr, hparsed, hreply⟩ := hreaches _ (peer_sockaddr peer)
  cases peer with
  | name type nameInstance =>
      by_contra hnot
      rw [tvnsParseAddress_name (peer_sockaddr _), shiftLeft_eq_none (not_lt.mp hnot)] at hparsed
      cases hparsed
  | id node ref =>
      constructor
      · by_contra hnot
        rw [tvnsParseAddress_id (peer_sockaddr _), shiftLeft_eq_none (not_lt.mp hnot)] at hparsed
        cases hparsed
      · rintro ⟨rfl, rfl⟩
        exact not_replyReaches_portZero hreaches

/-- The high bit of a type is shifted out of the number. -/
theorem not_replyReaches_highType :
    (Peer.name 0x80000000 1).sockaddr.peer = some (.name 0x80000000 1) ∧
      tvnsParseAddress (Peer.name 0x80000000 1).sockaddr = none ∧
      ¬ ReplyReaches (.name 0x80000000 1) := by
  have hparsed : tvnsParseAddress (Peer.name 0x80000000 1).sockaddr = none := by decide
  refine ⟨rfl, hparsed, fun hreaches => ?_⟩
  obtain ⟨serviceNr, hsome, -⟩ := hreaches _ (peer_sockaddr _)
  rw [hparsed] at hsome
  cases hsome

end Libtvnet.Tipc
