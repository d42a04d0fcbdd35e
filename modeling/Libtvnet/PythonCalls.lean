import Libtvnet.EncodedDecodes
import Libtvnet.ServiceDelivery

/-!
# Calls from Python

A program encodes arguments, sends the string to the number of a service, and
the service decodes what it receives.
-/

namespace Libtvnet

open Libtvnet.Foundation

section Strings

variable {Unicode : Type} (python : CPython Unicode) (undefined : Binary64 → Int)
  (indeterminate : TvnpToken)

def EncodedAs (args : List (PyObject Unicode)) (string : List UInt8) : Prop :=
  ∃ (block : TvuBuffer) (state : EncodeState),
    pytvnLengthTuple python undefined args = some (block.size : Int) ∧ block.offset = 0 ∧
      pytvnEncodeTuple python undefined ⟨block, false⟩ args = some state ∧
      state.unexpectedType = false ∧ state.buffer.data = string

def decodedString (string : List UInt8) : Option (PyObject Unicode) :=
  if h : string.length < 2 ^ 63 then
    (pytvnDecode python indeterminate ⟨string, 0, h, TvuBuffer.start_lt⟩).bind (·.result)
  else none

variable {python undefined}

theorem decodedString_of_encodedAs {args : List (PyObject Unicode)} {string : List UInt8}
    (h : EncodedAs python undefined args string) (hsized : PyObject.SizedItems python args) :
    decodedString python indeterminate string =
      (PyObject.decodedItems python undefined args).map decodeResult := by
  obtain ⟨block, state, hlength, hoffset, hencode, -, rfl⟩ := h
  obtain ⟨ts, hts, hwire⟩ := pytvnLengthItems_eq_wire hlength (by omega)
  have hsize : block.size = (wire ts).length := by omega
  obtain ⟨c, hc, hcsize, hrest⟩ := pytvnEncodeTuple_block hts hsize hoffset
  obtain rfl := Option.some.inj (hc.symm.trans hencode)
  obtain ⟨run, hrun, hwhole, -⟩ :=
    pytvnDecodeTuple_block indeterminate hsized.counted hts hsize hcsize hrest
  have hresult := hwhole (by rw [map_narrow_of_valid (hsized.valid_tokens hts)])
  have hdecode : pytvnDecode python indeterminate c.rewind = some (run.map decodeResult) := by
    rw [pytvnDecode_eq, hrun, Option.map_some]
  rw [decodedString, dif_pos c.size_lt, ← hresult]
  change (pytvnDecode python indeterminate c.rewind).bind _ = _
  rw [hdecode]
  rfl

end Strings

def pytvnBufferSize : Nat := 65536

section Calls

variable {Thread Socket Unicode : Type} [DecidableEq Thread] [DecidableEq Socket]
  {python : CPython Unicode} {undefined : Binary64 → Int}

/--
While a service keeps its number, it decodes the calls that clients encode and
send to the number: each one, once, in order, with what `decoded` says of its
arguments, and with the number of the client.
-/
theorem ServiceSystem.calls_arrive (indeterminate : TvnpToken)
    {s : ServiceSystem Thread Socket} (hs : s.Reachable)
    {n : ServiceNr} {socket : Socket} (howner : s.host.owner n.path = some socket)
    (hempty : s.host.inbox socket = []) (hcalls : ∀ thread, ¬ (s.call thread).Binds n)
    {actions : List (ServiceAction Thread Socket)}
    (hactions : ∀ action ∈ actions,
      ¬ action.Unlinks n ∧ action.Receives socket pytvnBufferSize)
    (client : Socket → ServiceNr) (args : Socket × List UInt8 → List (PyObject Unicode))
    (hmessages : ∀ message ∈ sentTo n (s.run actions).1,
      (client message.1).IsClient ∧ s.host.name message.1 = some (client message.1).path ∧
        message.2.length ≤ pytvnBufferSize ∧ PyObject.SizedItems python (args message) ∧
        EncodedAs python undefined (args message) message.2)
    (hopen : (s.run actions).2.host.closed socket = false) :
    ∃ waiting : List (Int64 × Option (PyObject Unicode)),
      (sentTo n (s.run actions).1).map (fun message =>
          ((client message.1).number,
            (PyObject.decodedItems python undefined (args message)).map decodeResult)) =
        (receivedOn socket (s.run actions).1).map (fun received =>
          (received.1, decodedString python indeterminate received.2)) ++ waiting ∧
      waiting.length = ((s.run actions).2.host.inbox socket).length := by
  obtain ⟨waiting, hsent, hwaiting⟩ := hs.delivers howner hempty hcalls hactions client
    (fun message h => ⟨(hmessages message h).1, (hmessages message h).2.1⟩) hopen
  have hdecoded : (sentTo n (s.run actions).1).map (fun message =>
      ((client message.1).number,
        (PyObject.decodedItems python undefined (args message)).map decodeResult)) =
      ((sentTo n (s.run actions).1).map fun message =>
        ((client message.1).number, message.2.take pytvnBufferSize)).map fun received =>
          (received.1, decodedString python indeterminate received.2) := by
    rw [List.map_map]
    refine List.map_congr_left fun message hmessage => ?_
    obtain ⟨-, -, hlength, hsized, hencoded⟩ := hmessages message hmessage
    rw [Function.comp_apply, List.take_of_length_le hlength,
      decodedString_of_encodedAs indeterminate hencoded hsized]
  refine ⟨waiting.map fun received =>
    (received.1, decodedString python indeterminate received.2), ?_, ?_⟩
  · rw [hdecoded, hsent, List.map_append]
  · have hlength := congrArg List.length hwaiting
    simpa using hlength

end Calls

def bytesAsInts (string : List UInt8) : List (PyObject (List UInt8)) :=
  string.map fun byte => .int (Int64.ofNat byte.toNat)

private theorem encodedAs_oneTwoThree :
    EncodedAs CPython.ofBytes (fun _ => 0) (bytesAsInts [1, 2, 3]) [1, 2, 3] :=
  ⟨⟨[0, 0, 0], 0, by decide, TvuBuffer.start_lt⟩, _, by decide, rfl, rfl, rfl, by decide⟩

private theorem encodedAs_fourFive :
    EncodedAs CPython.ofBytes (fun _ => 0) (bytesAsInts [4, 5]) [4, 5] :=
  ⟨⟨[0, 0], 0, by decide, TvuBuffer.start_lt⟩, _, by decide, rfl, rfl, rfl, by decide⟩

theorem serviceAndClient_calls_arrive :
    ∃ waiting : List (Int64 × Option (PyObject (List UInt8))),
      (sentTo serviceFive (serviceAndClient.run twoRequests).1).map (fun message =>
          (clientNumber pidOne 7,
            (PyObject.decodedItems CPython.ofBytes (fun _ => 0) (bytesAsInts message.2)).map
              decodeResult)) =
        (receivedOn false (serviceAndClient.run twoRequests).1).map (fun received =>
          (received.1, decodedString CPython.ofBytes .zeroFilled received.2)) ++ waiting ∧
      waiting.length = ((serviceAndClient.run twoRequests).2.host.inbox false).length := by
  have hsent : sentTo serviceFive (serviceAndClient.run twoRequests).1 =
      [(true, [1, 2, 3]), (true, [4, 5])] := by decide +kernel
  refine ServiceSystem.calls_arrive .zeroFilled serviceAndClient_reachable (by decide +kernel)
    (by decide +kernel) serviceAndClient_binds twoRequests_allowed
    (fun _ => clientServiceNr pidOne 7) (fun message => bytesAsInts message.2) ?_
    (by decide +kernel)
  rw [hsent]
  intro message hmessage
  have hclient := serviceAndClient_client
  have hsized (a b c : Int64) : PyObject.SizedItems CPython.ofBytes [.int a, .int b, .int c] ∧
      PyObject.SizedItems CPython.ofBytes [.int a, .int b] := by
    simp [PyObject.SizedItems, PyObject.Sized]
  rcases List.mem_pair.mp hmessage with rfl | rfl
  · exact ⟨hclient.1, hclient.2, by decide, (hsized 1 2 3).1, encodedAs_oneTwoThree⟩
  · exact ⟨hclient.1, hclient.2, by decide, (hsized 4 5 0).2, encodedAs_fourFive⟩

end Libtvnet
