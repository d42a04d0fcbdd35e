import Libtvnet.CutMessages
import Libtvnet.ServiceDelivery

/-!
# Calls from C

A client sends the arguments that it has encoded for a type string, and the
service decodes each message that it receives with letters of its own.  The array
of the service may be too small for a message.
-/

namespace Libtvnet

open Libtvnet.Foundation

section Strings

variable (undefined : Binary64 → Int) (indeterminate : TvnpToken)

/-- `tvnp_vencode` makes the string of the arguments, in memory with any contents. -/
def VencodedAs (types : List Char) (args : List VaArg) (string : List UInt8) : Prop :=
  ∃ block c, block.offset = 0 ∧ tvnpVencode undefined block types args = some (0, c) ∧
    c.data.take c.offset = string

def decodedArguments (letters : List Char) (string : List UInt8) :
    Option (Int × List VaOutput) :=
  if h : string.length < 2 ^ 63 then
    (tvnpVdecode undefined indeterminate letters ⟨string, 0, h, TvuBuffer.start_lt⟩).map
      fun decoded => (decoded.1, decoded.2.1)
  else none

/--
With room for `length` bytes the service gets the arguments of a message that
fits, and an error for a longer one, which may miss the NUL of a last string.
-/
def HandledAs (letters : List Char) (length : Nat) (types : List Char) (args : List VaArg)
    (message received : List UInt8) : Prop :=
  ∃ ret outputs,
    decodedArguments undefined indeterminate letters received = some (ret, outputs) ∧
      (message.length ≤ length → ret = 0 ∧
        List.Forall₂ (fun (c, arg) output => output.Received undefined received c arg)
          (types.zip args) outputs) ∧
      (length < message.length → (ret = 0 ∨ ret = -1) ∧
        (ret = 0 ↔ length + 1 = message.length ∧ EndsWithString args))

variable {undefined}

private theorem handledAs_take {types letters : List Char} {args : List VaArg}
    {message : List UInt8} (hpairs : List.Forall₂ ValuePair types letters)
    (hargs : List.Forall₂ VaArg.InRange types args)
    (h : VencodedAs undefined types args message) (length : Nat) :
    HandledAs undefined indeterminate letters length types args message
      (message.take length) := by
  obtain ⟨block, c, hblock, hencode, rfl⟩ := h
  have hmatch : Matching types args := hargs.imp fun _ _ harg => harg.1
  obtain ⟨-, hmessage⟩ :=
    wire_of_tvnpVencode hmatch (ValuePair.not_longDouble hpairs) hblock hencode
  have hwhole : (wire (vaTokens undefined types args)).length < 2 ^ 63 := by
    have hsize := c.size_lt
    rw [← hmessage, List.length_take]
    omega
  have hsmall : ((wire (vaTokens undefined types args)).take length).length < 2 ^ 63 := by
    rw [List.length_take]
    omega
  rw [hmessage, HandledAs, decodedArguments, dif_pos hsmall]
  by_cases hfits : (wire (vaTokens undefined types args)).length ≤ length
  · obtain ⟨outputs, hrun, hagrees⟩ := @tvnpVdecode_wire undefined indeterminate _ _ _
      ⟨(wire (vaTokens undefined types args)).take length, 0, hsmall, TvuBuffer.start_lt⟩ []
      hpairs hargs (by rw [List.append_nil]; exact List.take_of_length_le hfits)
    rw [hrun]
    exact ⟨0, outputs, rfl, fun _ => ⟨rfl, hagrees⟩,
      fun hcut => absurd hfits (Nat.not_le.mpr hcut)⟩
  · obtain ⟨ret, outputs, final, hrun, hret, hiff⟩ := @tvnpVdecode_take_wire undefined _ _ _
      ⟨(wire (vaTokens undefined types args)).take length, 0, hsmall, TvuBuffer.start_lt⟩ length
      indeterminate hpairs hargs hwhole rfl (Nat.lt_of_not_le hfits) rfl
    rw [hrun]
    exact ⟨ret, outputs, rfl, fun hle => absurd hle hfits, fun _ => ⟨hret, hiff⟩⟩

end Strings

section Calls

variable {Thread Socket : Type} [DecidableEq Thread] [DecidableEq Socket]
  {undefined : Binary64 → Int}

/--
While a service keeps its number, it handles each message that clients encode
and send to the number once and in order, and it knows the client.
-/
theorem ServiceSystem.arguments_arrive (indeterminate : TvnpToken)
    {s : ServiceSystem Thread Socket} (hs : s.Reachable)
    {n : ServiceNr} {socket : Socket} (howner : s.host.owner n.path = some socket)
    (hempty : s.host.inbox socket = []) (hcalls : ∀ thread, ¬ (s.call thread).Binds n)
    {length : Nat} {actions : List (ServiceAction Thread Socket)}
    (hactions : ∀ action ∈ actions, ¬ action.Unlinks n ∧ action.Receives socket length)
    (client : Socket → ServiceNr) (letters types : Socket × List UInt8 → List Char)
    (args : Socket × List UInt8 → List VaArg)
    (hmessages : ∀ message ∈ sentTo n (s.run actions).1,
      (client message.1).IsClient ∧ s.host.name message.1 = some (client message.1).path ∧
        List.Forall₂ ValuePair (types message) (letters message) ∧
        List.Forall₂ VaArg.InRange (types message) (args message) ∧
        VencodedAs undefined (types message) (args message) message.2)
    (hopen : (s.run actions).2.host.closed socket = false) :
    ∃ waiting : List (Int64 × List UInt8),
      List.Forall₂ (fun message received => received.1 = (client message.1).number ∧
          HandledAs undefined indeterminate (letters message) length (types message)
            (args message) message.2 received.2)
        (sentTo n (s.run actions).1) (receivedOn socket (s.run actions).1 ++ waiting) ∧
      waiting.length = ((s.run actions).2.host.inbox socket).length := by
  obtain ⟨waiting, hsent, hwaiting⟩ := hs.delivers howner hempty hcalls hactions client
    (fun message h => ⟨(hmessages message h).1, (hmessages message h).2.1⟩) hopen
  refine ⟨waiting, ?_, by simpa using congrArg List.length hwaiting⟩
  rw [← hsent, List.forall₂_map_right_iff, List.forall₂_same]
  intro message hmessage
  obtain ⟨-, -, hpairs, hargs, hencoded⟩ := hmessages message hmessage
  exact ⟨rfl, handledAs_take indeterminate hpairs hargs hencoded length⟩

end Calls

/-! ## Two calls of a client -/

def numbersOf (string : List UInt8) : List VaArg :=
  string.map fun byte => .gp32 (BitVec.ofNat 32 byte.toNat)

def halfMessage : List UInt8 := [0x42, 0x3f, 0x00, 0x00, 0x00]

def callTypes (message : Bool × List UInt8) : List Char :=
  if message.2 = halfMessage then ['F'] else ['b', 'b']

def callLetters (message : Bool × List UInt8) : List Char :=
  if message.2 = halfMessage then ['f'] else ['b', 'b']

def callArgs (message : Bool × List UInt8) : List VaArg :=
  if message.2 = halfMessage then [.float64 oneHalf] else numbersOf message.2

private theorem vencodedAs_oneTwo : VencodedAs (fun _ => 0) ['b', 'b'] (numbersOf [1, 2]) [1, 2] :=
  ⟨⟨[0, 0], 0, by decide, TvuBuffer.start_lt⟩, _, rfl, rfl, by decide⟩

private theorem vencodedAs_half : VencodedAs (fun _ => 0) ['F'] [.float64 oneHalf] halfMessage :=
  ⟨⟨[0, 0, 0, 0, 0], 0, by decide, TvuBuffer.start_lt⟩,
    ⟨halfMessage, 5, by decide, by decide⟩, rfl, by decide +kernel, rfl⟩

def twoCalls : List (ServiceAction Bool Bool) := [
  .step true (.sendto true serviceFive [1, 2] 0) zeroStack none,
  .step true (.sendto true serviceFive halfMessage 0) zeroStack none,
  .step false (.recvfrom false 65536 0) zeroStack none]

private theorem number_inRange {x : UInt8} (hx : x.toNat < 128) :
    (VaArg.gp32 (BitVec.ofNat 32 x.toNat)).InRange 'b' := by
  refine ⟨.inl rfl, fun type i htype hi => ?_⟩
  obtain rfl := Option.some.inj htype
  have hvalue : (BitVec.ofNat 32 x.toNat).toInt = i := Option.some.inj hi
  have hbits : (BitVec.ofNat 32 x.toNat).toNat = x.toNat := by
    rw [BitVec.toNat_ofNat]
    exact Nat.mod_eq_of_lt (by omega)
  rw [BitVec.toInt_eq_toNat_of_lt (by omega), hbits] at hvalue
  refine IntegerType.holds_signed.mpr ?_
  omega

private theorem numbersOf_inRange {x y : UInt8} (hx : x.toNat < 128) (hy : y.toNat < 128) :
    List.Forall₂ VaArg.InRange ['b', 'b'] (numbersOf [x, y]) :=
  .cons (number_inRange hx) (.cons (number_inRange hy) .nil)

theorem serviceAndClient_arguments_arrive :
    ∃ waiting : List (Int64 × List UInt8),
      List.Forall₂ (fun message received => received.1 = clientNumber pidOne 7 ∧
          HandledAs (fun _ => 0) .zeroFilled (callLetters message) 65536 (callTypes message)
            (callArgs message) message.2 received.2)
        (sentTo serviceFive (serviceAndClient.run twoCalls).1)
        (receivedOn false (serviceAndClient.run twoCalls).1 ++ waiting) ∧
      waiting.length = ((serviceAndClient.run twoCalls).2.host.inbox false).length := by
  have hactions : ∀ action ∈ twoCalls,
      ¬ action.Unlinks serviceFive ∧ action.Receives false 65536 := by
    simp [twoCalls, ServiceAction.Unlinks, ServiceAction.Receives, Request.unlinks,
      Request.binds, Stack.NameFits, zeroStack]
  have hsent : sentTo serviceFive (serviceAndClient.run twoCalls).1 =
      [(true, [1, 2]), (true, halfMessage)] := by decide +kernel
  refine ServiceSystem.arguments_arrive .zeroFilled serviceAndClient_reachable (by decide +kernel)
    (by decide +kernel) serviceAndClient_binds hactions (fun _ => clientServiceNr pidOne 7)
    callLetters callTypes callArgs ?_ (by decide +kernel)
  rw [hsent]
  intro message hmessage
  have hclient := serviceAndClient_client
  have hletter : ValuePair 'b' 'b' := .same (.integer rfl rfl fun _ hi => hi)
  have hhalf : (VaArg.float64 oneHalf).InRange 'F' := ⟨.inr rfl, fun type x htype => by cases htype⟩
  rcases List.mem_pair.mp hmessage with rfl | rfl
  · exact ⟨hclient.1, hclient.2, .cons hletter (.cons hletter .nil),
      numbersOf_inRange (by decide) (by decide), vencodedAs_oneTwo⟩
  · exact ⟨hclient.1, hclient.2, .cons (.double (.inr rfl) (.inl rfl)) .nil,
      .cons hhalf .nil, vencodedAs_half⟩

end Libtvnet
