import Libtvnet.ServiceDelivery

/-!
# The sender of a datagram

`tvns_recvfrom` gives the system a length for the address that it has not set.
The number that it reports is that of the sender if the length happens to be
large enough; if not, it can be that of another client whose address is still
on the stack.
-/

namespace Libtvnet

open Libtvnet.Foundation

/-! ## The last digit -/

private theorem printUnsigned_succ {width : Nat} (hwidth : 0 < width) (n : Nat) :
    printUnsigned (width + 1) n = printUnsigned width (n / 10) ++ [(n % 10).digitChar] := by
  unfold printUnsigned List.leftpad
  by_cases h : n < 10
  · obtain ⟨w, rfl⟩ : ∃ w, width = w + 1 := ⟨width - 1, by omega⟩
    rw [Nat.div_eq_of_lt h, Nat.mod_eq_of_lt h, Nat.toDigits_of_lt_base h, Nat.toDigits_zero]
    simp [List.replicate_succ', List.append_assoc]
  · rw [Nat.toDigits_of_base_le (by decide) (by omega)]
    simp [List.append_assoc]

def sibling (k : Nat) : Nat := if k % 10 ≤ 1 then k + 1 else k - 1

private theorem sibling_ne (k : Nat) : sibling k ≠ k := by
  unfold sibling
  split <;> omega

private theorem sibling_div (k : Nat) : sibling k / 10 = k / 10 := by
  unfold sibling
  split <;> omega

private theorem sibling_pos {k : Nat} : 0 < sibling k := by
  unfold sibling
  split <;> omega

private theorem sibling_lt {k : Nat} (h : k < 2 ^ 63) : sibling k < 2 ^ 63 := by
  unfold sibling
  split <;> omega

def ServiceNr.siblingNr (n : ServiceNr) : ServiceNr where
  number := Int64.ofInt (-(sibling n.number.toInt.natAbs : Int))
  abs_lt := by
    have hlt := sibling_lt (natAbs_lt n.abs_lt)
    rw [Int64.toInt_ofInt_of_le (by omega) (by omega)]
    omega

theorem ServiceNr.toInt_siblingNr (n : ServiceNr) :
    n.siblingNr.number.toInt = -(sibling n.number.toInt.natAbs : Int) := by
  have hlt := sibling_lt (natAbs_lt n.abs_lt)
  exact Int64.toInt_ofInt_of_le (by omega) (by omega)

theorem ServiceNr.siblingNr_isClient (n : ServiceNr) : n.siblingNr.IsClient := by
  have hpos : 0 < sibling n.number.toInt.natAbs := sibling_pos
  have htoInt := n.toInt_siblingNr
  unfold IsClient
  omega

theorem ServiceNr.siblingNr_ne {n : ServiceNr} (h : n.IsClient) : n.siblingNr ≠ n := by
  intro hsame
  have htoInt := n.toInt_siblingNr
  have hne := sibling_ne n.number.toInt.natAbs
  rw [hsame] at htoInt
  unfold IsClient at h
  omega

theorem ServiceNr.paths_siblingNr {n : ServiceNr} (h : n.IsClient) :
    ∃ start c c', start.length = 34 ∧ n.path = start ++ [c] ∧
      n.siblingNr.path = start ++ [c'] := by
  have hneg : (-(sibling n.number.toInt.natAbs : Int)).natAbs = sibling n.number.toInt.natAbs := by
    omega
  have hlength : (printUnsigned 18 (n.number.toInt.natAbs / 10)).length = 18 := by
    have habs := natAbs_lt n.abs_lt
    exact length_printUnsigned (by decide) (by omega)
  refine ⟨clientPath ++ printUnsigned 18 (n.number.toInt.natAbs / 10),
    (n.number.toInt.natAbs % 10).digitChar, (sibling n.number.toInt.natAbs % 10).digitChar,
    ?_, ?_, ?_⟩
  · rw [List.length_append, hlength]
    rfl
  · rw [n.path_of_isClient h, printUnsigned_succ (by decide), List.append_assoc]
  · rw [n.siblingNr.path_of_isClient n.siblingNr_isClient, n.toInt_siblingNr, hneg,
      printUnsigned_succ (by decide), sibling_div, List.append_assoc]

/-! ## What is reported -/

theorem Stack.storeName_parsed_client {stack : Stack} (hfits : stack.NameFits) {n : ServiceNr}
    (hclient : n.IsClient) :
    tvnsParseAddress stack.beyond stack.indeterminate
      (Unix.storeName stack.addressLen.toNat n.path stack.address) = some n.number :=
  (storeName_parsed hfits).trans (if_pos hclient)

private theorem sunPath_storeName_short {addressLen : Nat} {start rest : List Char} {c c' : Char}
    (hlength : start.length + sunPathOffset ≥ addressLen) (family : Nat) :
    (Unix.storeName addressLen (start ++ [c]) ⟨family, start ++ [c'] ++ rest⟩).sunPath =
      start ++ [c'] ++ rest := by
  have hcut : addressLen - sunPathOffset ≤ start.length := by omega
  have hmin : min (addressLen - sunPathOffset) ((start ++ [c]).length + 1) =
      addressLen - sunPathOffset := by
    rw [List.length_append]
    omega
  simp only [Unix.storeName, hmin, List.append_assoc]
  rw [List.take_append_of_le_length hcut, List.drop_append_of_le_length hcut,
    ← List.append_assoc, List.take_append_drop]

theorem ServiceNr.exists_stack_siblingNr {n : ServiceNr} (h : n.IsClient) {addressLen : UInt32}
    (hshort : addressLen.toNat < 37) :
    ∃ stack : Stack, stack.addressLen = addressLen ∧
      sunPathOffset + stack.address.sunPath.length = tvnsAddrlen ∧
      tvnsParseAddress stack.beyond stack.indeterminate
        (Unix.storeName stack.addressLen.toNat n.path stack.address) =
          some n.siblingNr.number := by
  obtain ⟨start, c, c', hstart, hpath, hsibling⟩ := ServiceNr.paths_siblingNr h
  have hfits : start.length + sunPathOffset ≥ addressLen.toNat := by
    rw [hstart]
    unfold sunPathOffset
    omega
  refine ⟨⟨⟨afUnix, start ++ [c'] ++ List.replicate 27 '\x00'⟩, addressLen, 0, []⟩, rfl, ?_, ?_⟩
  · simp [hstart, sunPathOffset, tvnsAddrlen]
  · have hstored : (Unix.storeName addressLen.toNat n.path
        ⟨afUnix, start ++ [c'] ++ List.replicate 27 '\x00'⟩).sunPath =
          n.siblingNr.path ++ List.replicate 27 '\x00' := by
      rw [hpath, hsibling]
      exact sunPath_storeName_short hfits afUnix
    exact tvnsParseAddress_clientPath n.siblingNr_isClient hstored [] 0

section Reports

variable {Socket : Type} [DecidableEq Socket] {host : Host Socket} {socket : Socket}

private theorem tvnsRecvfrom_report {data : List UInt8} {n : ServiceNr}
    {letters : List (Letter (List Char) (List UInt8))} (hclosed : host.closed socket = false)
    (hinbox : host.inbox socket = ⟨some n.path, data⟩ :: letters) (length : Nat)
    (flags : UInt32) (stack : Stack) (hlen : stack.addressLen.toNat < 2 ^ 31)
    {number : Int64}
    (hparsed : tvnsParseAddress stack.beyond stack.indeterminate
      (Unix.storeName stack.addressLen.toNat n.path stack.address) = some number) :
    ∃ returned, (tvnsRecvfrom none socket length flags stack host).report =
      some (.received socket number (data.take length) returned) := by
  have hopen : ¬ host.closed socket = true := by simp [hclosed]
  simp only [tvnsRecvfrom, Unix.recvfrom, if_neg hopen, hinbox, if_pos hlen, Unix.copyOut,
    Option.elim_some, hparsed]
  exact ⟨_, rfl⟩

private theorem tvnsRecvfrom_einval {letter : Letter (List Char) (List UInt8)}
    {letters : List (Letter (List Char) (List UInt8))} (hclosed : host.closed socket = false)
    (hinbox : host.inbox socket = letter :: letters) (length : Nat) (flags : UInt32)
    (stack : Stack) (hlen : 2 ^ 31 ≤ stack.addressLen.toNat) :
    (tvnsRecvfrom none socket length flags stack host).report = some (.failed socket .einval) := by
  have hopen : ¬ host.closed socket = true := by simp [hclosed]
  simp only [tvnsRecvfrom, Unix.recvfrom, if_neg hopen, hinbox, if_neg (Nat.not_lt.mpr hlen)]

/-- Whatever is on the stack, a datagram of a client is reported as being from it. -/
def ReportsSender (host : Host Socket) (socket : Socket) (n : ServiceNr) (data : List UInt8)
    (addressLen : UInt32) : Prop :=
  ∀ (length : Nat) (flags : UInt32) (stack : Stack), stack.addressLen = addressLen →
    sunPathOffset + stack.address.sunPath.length = tvnsAddrlen →
    ∃ returned, (tvnsRecvfrom none socket length flags stack host).report =
      some (.received socket n.number (data.take length) returned)

/-- With some content of the stack the datagram is reported as being from the number. -/
def ReportsOther (host : Host Socket) (socket : Socket) (n : ServiceNr) (data : List UInt8)
    (addressLen : UInt32) : Prop :=
  ∃ stack : Stack, stack.addressLen = addressLen ∧
    sunPathOffset + stack.address.sunPath.length = tvnsAddrlen ∧
    ∀ (length : Nat) (flags : UInt32), ∃ returned,
      (tvnsRecvfrom none socket length flags stack host).report =
        some (.received socket n.number (data.take length) returned)

/--
A client is reported as the sender of its datagrams, whatever is on the stack,
if and only if the length that was not set has room for its digits.  With less
room there are stacks for which another client is reported.
-/
theorem reportsSender_iff {data : List UInt8} {n : ServiceNr} (hclient : n.IsClient)
    {letters : List (Letter (List Char) (List UInt8))} (hclosed : host.closed socket = false)
    (hinbox : host.inbox socket = ⟨some n.path, data⟩ :: letters) {addressLen : UInt32}
    (hlen : addressLen.toNat < 2 ^ 31) :
    (ReportsSender host socket n data addressLen ↔ 37 ≤ addressLen.toNat) ∧
      (addressLen.toNat < 37 → ∃ other : ServiceNr, other.IsClient ∧ other ≠ n ∧
        ReportsOther host socket other data addressLen) := by
  have hother : addressLen.toNat < 37 →
      ReportsOther host socket n.siblingNr data addressLen := by
    intro hshort
    obtain ⟨stack, rfl, hsize, hparsed⟩ := ServiceNr.exists_stack_siblingNr hclient hshort
    exact ⟨stack, rfl, hsize, fun length flags =>
      tvnsRecvfrom_report hclosed hinbox length flags stack hlen hparsed⟩
  refine ⟨⟨fun hreports => ?_, ?_⟩, fun hshort =>
    ⟨n.siblingNr, n.siblingNr_isClient, ServiceNr.siblingNr_ne hclient, hother hshort⟩⟩
  · by_contra hshort
    obtain ⟨stack, hstack, hsize, hsibling⟩ := hother (not_le.mp hshort)
    obtain ⟨returned, hreport⟩ := hreports 0 0 stack hstack hsize
    obtain ⟨returned', hreport'⟩ := hsibling 0 0
    rw [hreport'] at hreport
    have hnumber : n.siblingNr.number = n.number := by
      injection hreport with hreport
      injection hreport
    exact ServiceNr.siblingNr_ne hclient (ServiceNr.ext hnumber)
  · rintro hroom length flags stack rfl -
    exact tvnsRecvfrom_report hclosed hinbox length flags stack hlen
      (Stack.storeName_parsed_client ⟨hroom, hlen⟩ hclient)

end Reports

def oneRequest : ServiceSystem Bool Bool :=
  (serviceAndClient.next (.step true (.sendto true serviceFive [1, 2, 3] 0) zeroStack none)).2

theorem reportsSender_oneRequest :
    (ReportsSender oneRequest.host false (clientServiceNr pidOne 7) [1, 2, 3] 36 ↔
        37 ≤ (36 : UInt32).toNat) ∧
      ((36 : UInt32).toNat < 37 → ∃ other : ServiceNr, other.IsClient ∧
        other ≠ clientServiceNr pidOne 7 ∧
        ReportsOther oneRequest.host false other [1, 2, 3] 36) := by
  have hinbox : oneRequest.host.inbox false =
      [⟨some (clientServiceNr pidOne 7).path, [1, 2, 3]⟩] := by decide +kernel
  exact reportsSender_iff (by decide +kernel) (by decide +kernel) hinbox (by decide)

/-! ## The address of a reply -/

/--
An address made for a number is parsed to that number; and the number that is
reported with a datagram from a socket bound to the address makes this address
again, whatever else is on the stack.
-/
structure AddressReturns (n : Int64) (addressLen : UInt32) : Prop where
  parsed : ∀ beyond indeterminate bind address,
    tvnsParseAddress beyond indeterminate (tvnsMakeAddress n bind address).2 = some n
  reply : ∀ {Socket : Type} [DecidableEq Socket] (host : Host Socket) (socket : Socket) bound data
    letters length flags (stack : Stack), host.closed socket = false →
    host.inbox socket =
      ⟨some (Unix.addressPath (tvnsMakeAddress n true bound)), data⟩ :: letters →
    stack.addressLen = addressLen →
    sunPathOffset + stack.address.sunPath.length = tvnsAddrlen →
    ∃ number returned, (tvnsRecvfrom none socket length flags stack host).report =
        some (.received socket number (data.take length) returned) ∧
      ∀ address, Unix.addressPath (tvnsMakeAddress number true address) =
        Unix.addressPath (tvnsMakeAddress n true bound)

section Replies

variable {n : ServiceNr} {addressLen : UInt32}

def letterFrom (n : ServiceNr) : Host Unit :=
  Registry.empty.setInbox () [⟨some n.path, []⟩]

theorem AddressReturns.reply_letterFrom (h : AddressReturns n.number addressLen) (stack : Stack)
    (hstack : stack.addressLen = addressLen)
    (hsize : sunPathOffset + stack.address.sunPath.length = tvnsAddrlen) :
    ∃ number returned, (tvnsRecvfrom none () 0 0 stack (letterFrom n)).report =
        some (.received () number [] returned) ∧
      ∀ address, Unix.addressPath (tvnsMakeAddress number true address) = n.path := by
  have hpath := addressPath_tvnsMakeAddress n true ⟨0, []⟩
  obtain ⟨number, returned, hreport, hreply⟩ := h.reply (letterFrom n) () ⟨0, []⟩ [] [] 0
    0 stack rfl (by rw [hpath]; rfl) hstack hsize
  exact ⟨number, returned, hreport, fun address => (hreply address).trans hpath⟩

theorem AddressReturns.isClient (h : AddressReturns n.number addressLen) : n.IsClient := by
  by_contra hservice
  have hparsed := h.parsed [] 0 true ⟨0, []⟩
  rw [tvnsParseAddress_service (not_lt.mp hservice)] at hparsed
  contradiction

theorem AddressReturns.room (h : AddressReturns n.number addressLen) :
    37 ≤ addressLen.toNat := by
  by_contra hshort
  obtain ⟨stack, hstack, hsize, hparsed⟩ :=
    ServiceNr.exists_stack_siblingNr h.isClient (not_le.mp hshort)
  obtain ⟨number, returned, hreport, hreply⟩ := h.reply_letterFrom stack hstack hsize
  have hclosed : (letterFrom n).closed () = false := rfl
  have hinbox : (letterFrom n).inbox () = [⟨some n.path, []⟩] := rfl
  have hlen : stack.addressLen.toNat < 2 ^ 31 := by
    rw [hstack]
    omega
  obtain ⟨returned', hreport'⟩ := tvnsRecvfrom_report hclosed hinbox 0 0 stack hlen hparsed
  rw [hreport'] at hreport
  have hnumber : n.siblingNr.number = number := by
    injection hreport with hreport
    injection hreport
  have hpath := hreply ⟨0, []⟩
  rw [← hnumber, addressPath_tvnsMakeAddress] at hpath
  exact ServiceNr.siblingNr_ne h.isClient (ServiceNr.path_injective hpath)

theorem AddressReturns.lt (h : AddressReturns n.number addressLen) :
    addressLen.toNat < 2 ^ 31 := by
  by_contra hlarge
  let stack : Stack := ⟨⟨afUnix, List.replicate 62 '\x00'⟩, addressLen, 0, []⟩
  obtain ⟨number, returned, hreport, -⟩ := h.reply_letterFrom stack rfl rfl
  have hclosed : (letterFrom n).closed () = false := rfl
  have hinbox : (letterFrom n).inbox () = [⟨some n.path, []⟩] := rfl
  rw [tvnsRecvfrom_einval hclosed hinbox 0 0 stack (not_lt.mp hlarge)] at hreport
  injection hreport with hreport
  contradiction

private theorem addressReturns_of_room (hclient : n.IsClient) (hroom : 37 ≤ addressLen.toNat)
    (hlen : addressLen.toNat < 2 ^ 31) : AddressReturns n.number addressLen where
  parsed := tvnsParseAddress_client hclient n.abs_lt
  reply := by
    intro Socket _ host socket bound data letters length flags stack hclosed hinbox hstack _
    obtain rfl := hstack
    rw [addressPath_tvnsMakeAddress] at hinbox
    obtain ⟨returned, hreport⟩ := tvnsRecvfrom_report hclosed hinbox length flags stack hlen
      (Stack.storeName_parsed_client ⟨hroom, hlen⟩ hclient)
    exact ⟨n.number, returned, hreport, fun address => by simp only [addressPath_tvnsMakeAddress]⟩

end Replies

/-- Only clients can be replied to, and these with an address that the system has stored. -/
theorem addressReturns_iff {n : Int64} (h : -(2 ^ 63) < n.toInt) {addressLen : UInt32} :
    AddressReturns n addressLen ↔
      n.toInt < 0 ∧ 37 ≤ addressLen.toNat ∧ addressLen.toNat < 2 ^ 31 := by
  constructor
  · intro hreturns
    have hnumber : AddressReturns (⟨n, h⟩ : ServiceNr).number addressLen := hreturns
    exact ⟨hnumber.isClient, hnumber.room, hnumber.lt⟩
  · rintro ⟨hclient, hroom, hlen⟩
    have hnr : (⟨n, h⟩ : ServiceNr).IsClient := hclient
    exact addressReturns_of_room hnr hroom hlen

theorem addressReturns_minusOne : AddressReturns (-1) 64 ↔
    (-1 : Int64).toInt < 0 ∧ 37 ≤ (64 : UInt32).toNat ∧ (64 : UInt32).toNat < 2 ^ 31 :=
  addressReturns_iff (by decide)

/-- The service 0 with any length, and the client -1 with a length of zero. -/
theorem not_addressReturns_zero :
    (∀ addressLen, ¬ AddressReturns 0 addressLen) ∧ ¬ AddressReturns (-1) 0 := by
  refine ⟨fun addressLen hreturns => ?_, fun hreturns => ?_⟩
  · have hzero : AddressReturns (⟨0, by decide⟩ : ServiceNr).number addressLen := hreturns
    exact absurd hzero.isClient (by decide)
  · have hminusOne : AddressReturns (⟨-1, by decide⟩ : ServiceNr).number 0 := hreturns
    exact absurd hminusOne.room (by decide)

end Libtvnet
