import Libtvnet.PrintRoundTrip

/-!
# `log.c`

A log message is nine header fields and a pickled call of `printf`, in a
packet of the ring buffer.  The reader of the packet is another program, which
has the type string of the header written out once more.

`tvu_time` and the ring of tvutils are parameters: the ring gives a packet
whose data is a block of memory, or none.
-/

namespace Libtvnet

open Libtvnet.Foundation

structure TvnInfo where
  user : Int64
  session : Int64
  transaction : Int64
  service : CString

/-- `tvnl_severity_t`, an enumeration without negative values. -/
abbrev TvnlSeverity := UInt32

def tvnlMessageType : Int64 := 0

def headerTypes : List Char := ['q', 'q', 'q', 'q', 'q', 's', 'q', 's', 'q']

/-- The parameters of `tvnl_vmessage`, the thread's `tvn_info` and the time. -/
structure LogCall where
  tvnInfo : TvnInfo
  timestamp : Int64
  filename : CString
  lineno : Int64
  severity : TvnlSeverity
  fmt : CString
  ap : List VaArg

namespace LogCall

variable (call : LogCall)

def types : List Char := (tvnpFmtParse call.fmt.chars).1

def headerArgs : List VaArg :=
  [.gp64 tvnlMessageType.toBitVec, .gp64 call.timestamp.toBitVec,
    .gp64 call.tvnInfo.user.toBitVec, .gp64 call.tvnInfo.session.toBitVec,
    .gp64 call.tvnInfo.transaction.toBitVec, .string call.tvnInfo.service,
    .gp64 (BitVec.ofNat 64 call.severity.toNat), .string call.filename,
    .gp64 call.lineno.toBitVec]

def headerTokens (undefined : Binary64 → Int) : List Token :=
  vaTokens undefined headerTypes call.headerArgs

def packetTokens (undefined : Binary64 → Int) : List Token :=
  call.headerTokens undefined ++ callTokens undefined call.types call.fmt call.ap

end LogCall

section Sender

variable (undefined : Binary64 → Int) (tvuRingHead : UInt64 → Option TvuBuffer) (call : LogCall)

/-- `buffer.size`, as it is requested from the ring. -/
def tvnlVmessageSize (types : List Char) : Option UInt64 := do
  let header ← tvnpVlength undefined headerTypes call.headerArgs
  let message ← tvnpVpprintfLen undefined types call.fmt call.ap
  some (header.toUInt64 + message)

/--
The buffer behind the call, over the data of the packet.  The inner `none` is
a return before anything is written.
-/
def tvnlVmessage : Option (Option TvuBuffer) :=
  let (types, ret) := tvnpFmtParse call.fmt.chars
  if ret = -1 then some none
  else do
    let size ← tvnlVmessageSize undefined call types
    match tvuRingHead size with
    | none => some none
    | some packet => do
        let (_, buffer) ← tvnpVencode undefined packet headerTypes call.headerArgs
        let buffer ← tvnpVpprintf undefined buffer types call.fmt call.ap
        some (some buffer)

end Sender

/-! ## What the reader has to find -/

/-- The same argument: a double is `==` to what was sent, or it is the same pattern. -/
def VaSlot.Same (data : List UInt8) (c : Char) (arg : VaArg) : VaSlot → Prop
  | .gp type value => promotedLetter c = some type ∧ arg.value c = some value
  | .float64 y => ∃ x, arg = .float64 x ∧ (y = x ∨ y.eq x = true)
  | .data p => ∃ s, arg = .string s ∧ cString data p = some s.1
  | _ => False

section Agreement

variable (tvuRingHead : UInt64 → Option TvuBuffer) (call : LogCall)

def RingServes (undefined : Binary64 → Int) : Prop :=
  ∀ size, tvnlVmessageSize undefined call call.types = some size →
    ∃ packet, tvuRingHead size = some packet ∧ packet.offset = 0 ∧ packet.size = size.toNat

/-- The ring gives a block whose first byte is the first one of a buffer. -/
def RingStarts : Prop :=
  ∀ size packet, tvuRingHead size = some packet → packet.offset = 0

/--
The message fills its packet; the header is read back up to the pickled
format, and from there the format and its arguments, as far as `agrees` says.
-/
def PacketCarries (agrees : List UInt8 → Char → VaArg → VaSlot → Prop)
    (undefined : Binary64 → Int) (indeterminate : TvnpToken) : Prop :=
  ∃ size packet header written,
    tvnlVmessageSize undefined call call.types = some size ∧
    tvuRingHead size = some packet ∧
    tvnpVencode undefined packet headerTypes call.headerArgs = some (0, header) ∧
    tvnlVmessage undefined tvuRingHead call = some (some written) ∧
    written.offset = size.toNat ∧
    ∃ outputs message p slots final,
      tvnpVdecode undefined indeterminate headerTypes written.rewind =
        some (0, outputs, message) ∧
      List.Forall₂ (fun (c, arg) output => output.Agrees written.data c arg)
        (headerTypes.zip call.headerArgs) outputs ∧
      message.offset = header.offset ∧
      tvnpPickleToVa undefined indeterminate message = some (some (p, slots), final) ∧
      cString written.data p = some call.fmt.1 ∧
      List.Forall₂ (fun (c, arg) slot => agrees written.data c arg slot)
        (call.types.zip call.ap) slots

/-- The two programs agree, whatever a conversion gives that C does not define. -/
def LogAgrees : Prop :=
  ∀ undefined indeterminate,
    PacketCarries tvuRingHead call VaSlot.Same undefined indeterminate

end Agreement

end Libtvnet
