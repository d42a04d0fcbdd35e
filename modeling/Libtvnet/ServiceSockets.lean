import Libtvnet.Foundation.Registry
import Libtvnet.ServicePaths
import Libtvnet.ServiceTipc

/-!
# The sockets of services

The calls of `service.h` where the transport is that of UNIX domain sockets.
They are cut where they call the system; the threads of any number of processes
take their steps in any order, and meet in the paths of their sockets only.
-/

namespace Libtvnet

open Libtvnet.Foundation

inductive Errno where
  | enoent
  | ebadf
  | eagain
  | einval
  | eaddrinuse
  | econnrefused
  | other (code : Nat)
  deriving DecidableEq

/-! ## The system -/

abbrev Host (Socket : Type) := Registry (List Char) Socket (List UInt8)

abbrev HostEvent (Socket : Type) := Registry.Event (List Char) Socket (List UInt8)

namespace Unix

structure Answer (Socket Value : Type) where
  value : Except Errno Value
  events : List (HostEvent Socket)
  host : Host Socket

section Calls

variable {Socket Value : Type} [DecidableEq Socket]

def refuse (errno : Errno) (host : Host Socket) : Answer Socket Value := ⟨.error errno, [], host⟩

def cString (array : List Char) : List Char := array.takeWhile (· != '\x00')

def addressPath (address : Nat × SockaddrUn) : List Char := cString (pathBytes address)

/-- `refusal` is a reason of the system's own. -/
def unlink (refusal : Option Errno) (path : List Char) (host : Host Socket) :
    Answer Socket Unit :=
  match refusal with
  | some errno => refuse errno host
  | none =>
      if host.owner path = none then refuse .enoent host
      else ⟨.ok (), [.unlinked path], host.unlink path⟩

def bind (refusal : Option Errno) (socket : Socket) (address : Nat × SockaddrUn)
    (host : Host Socket) : Answer Socket Unit :=
  match refusal with
  | some errno => refuse errno host
  | none =>
      if host.closed socket = true then refuse .ebadf host
      else if host.name socket ≠ none then refuse .einval host
      else if host.owner (addressPath address) ≠ none then refuse .eaddrinuse host
      else ⟨.ok (), [.bound socket (addressPath address)], host.bind socket (addressPath address)⟩

def sendto (refusal : Option Errno) (socket : Socket) (buffer : List UInt8) (_flags : UInt32)
    (address : Nat × SockaddrUn) (host : Host Socket) : Answer Socket Unit :=
  match refusal with
  | some errno => refuse errno host
  | none =>
      if host.closed socket = true then refuse .ebadf host
      else
        match host.owner (addressPath address) with
        | none => refuse .enoent host
        | some target =>
            if host.closed target = true then refuse .econnrefused host
            else
              let letter := ⟨host.name socket, buffer⟩
              ⟨.ok (), [.delivered target (addressPath address) letter],
                host.setInbox target (host.inbox target ++ [letter])⟩

def msgPeek : UInt32 := 0x2

def msgTrunc : UInt32 := 0x20

/--
The name of a sender goes to the caller as far as it has `addressLen` bytes for
it.  Nobody looks at half of a family.
-/
def storeName (addressLen : Nat) (name : List Char) (address : SockaddrUn) : SockaddrUn where
  sunFamily := if sunPathOffset ≤ addressLen then afUnix else address.sunFamily
  sunPath :=
    (name ++ ['\x00']).take (addressLen - sunPathOffset) ++
      address.sunPath.drop (min (addressLen - sunPathOffset) (name.length + 1))

structure Received where
  length : Nat
  buffer : List UInt8
  address : SockaddrUn

def copyOut (letter : Letter (List Char) (List UInt8)) (length : Nat) (flags : UInt32)
    (address : SockaddrUn) (addressLen : UInt32) : Received where
  length := if flags &&& msgTrunc ≠ 0 then letter.data.length else min length letter.data.length
  buffer := letter.data.take length
  address := letter.sender.elim address fun name => storeName addressLen.toNat name address

/--
A call that has to wait is taken when there is something to receive.  The
system takes the length of the address as an `int`, and looks at it last.
-/
def recvfrom (refusal : Option Errno) (socket : Socket) (length : Nat) (flags : UInt32)
    (address : SockaddrUn) (addressLen : UInt32) (host : Host Socket) :
    Answer Socket Received :=
  match refusal with
  | some errno => refuse errno host
  | none =>
      if host.closed socket = true then refuse .ebadf host
      else
        match host.inbox socket with
        | [] => refuse .eagain host
        | letter :: letters =>
            let peek := flags &&& msgPeek ≠ 0
            let events := if peek then [] else [.received socket letter]
            let host := if peek then host else host.setInbox socket letters
            if addressLen.toNat < 2 ^ 31 then
              ⟨.ok (copyOut letter length flags address addressLen), events, host⟩
            else ⟨.error .einval, events, host⟩

/-- A descriptor is gone also where `close` fails. -/
def close (refusal : Option Errno) (socket : Socket) (host : Host Socket) : Answer Socket Unit :=
  if host.closed socket = true then refuse .ebadf host
  else
    match refusal with
    | some errno => ⟨.error errno, [.closed socket], host.close socket⟩
    | none => ⟨.ok (), [.closed socket], host.close socket⟩

end Calls

end Unix

/-! ## The calls of `service.h` -/

/-- A number of a service or of a client that has an absolute value. -/
@[ext]
structure ServiceNr where
  number : Int64
  abs_lt : -(2 ^ 63) < number.toInt
  deriving DecidableEq

structure Pid where
  value : UInt32
  pos : 0 < value.toNat
  lt : value.toNat < 2 ^ 31

def clientNumber (pid : Pid) (random : Int64) : Int64 :=
  -(Tipc.tvuInt pid.value <<< 32 ||| random &&& 0xffffffff)

private theorem tvuInt_shiftLeft (word : UInt32) :
    Tipc.tvuInt word <<< 32 = Int64.ofNat (2 ^ 32 * word.toNat) := by
  have hword := word.toNat_lt
  apply Int64.toBitVec_inj.mp
  apply BitVec.eq_of_toNat_eq
  simp [Tipc.tvuInt, Nat.shiftLeft_eq]
  omega

private theorem and_mask (n : Int64) : n &&& 0xffffffff = Tipc.tvuInt n.toUInt64.toUInt32 := by
  have hmask := Nat.and_two_pow_sub_one_eq_mod n.toBitVec.toNat 32
  have hword : n.toUInt64.toNat = n.toBitVec.toNat := rfl
  apply Int64.toBitVec_inj.mp
  apply BitVec.eq_of_toNat_eq
  simp [Tipc.tvuInt, hword] at hmask ⊢
  omega

private theorem toInt_clientNumber (pid : Pid) (random : Int64) :
    (clientNumber pid random).toInt = -(Tipc.pack pid.value random.toUInt64.toUInt32 : Int) := by
  have hlow := random.toUInt64.toUInt32.toNat_lt
  have hpack := Tipc.pack_lt pid.lt random.toUInt64.toUInt32
  rw [clientNumber, tvuInt_shiftLeft, and_mask, Tipc.tvuInt, Tipc.ofNat_or_ofNat,
    ← Nat.two_pow_add_eq_or_of_lt hlow]
  change (-Int64.ofNat (Tipc.pack pid.value random.toUInt64.toUInt32)).toInt = _
  rw [← Int64.ofInt_eq_ofNat, Int64.neg_ofInt, Int64.toInt_ofInt_of_le (by omega) (by omega)]

private theorem clientNumber_abs_lt (pid : Pid) (random : Int64) :
    -(2 ^ 63) < (clientNumber pid random).toInt := by
  have hpack := Tipc.pack_lt pid.lt random.toUInt64.toUInt32
  rw [toInt_clientNumber]
  omega

def clientServiceNr (pid : Pid) (random : Int64) : ServiceNr :=
  ⟨clientNumber pid random, clientNumber_abs_lt pid random⟩

/-- What the memory of a call holds that the call does not set, and what is `beyond` a literal. -/
structure Stack where
  address : SockaddrUn
  addressLen : UInt32
  indeterminate : UInt64
  beyond : List Char

inductive Report (Socket : Type) where
  | failed (socket : Socket) (errno : Errno)
  | bound (socket : Socket) (serviceNr : Int64)
  | unbound (socket : Socket) (serviceNr : Int64)
  | sent (socket : Socket) (serviceNr : Int64) (buffer : List UInt8)
  | received (socket : Socket) (serviceNr : Int64) (buffer : List UInt8) (length : Nat)
  | closed (socket : Socket) (serviceNr : Int64)
  | aborted (socket : Socket)
  deriving DecidableEq

/-- What a call does next; `address` is what `alloca` gave to it. -/
inductive ServiceCall (Socket : Type) where
  | idle
  | bind (socket : Socket) (serviceNr : ServiceNr) (address : SockaddrUn)
  | close (socket : Socket) (serviceNr : ServiceNr)
  | aborted

structure ServiceStep (Socket : Type) where
  call : ServiceCall Socket
  report : Option (Report Socket)
  events : List (HostEvent Socket)
  host : Host Socket

section Calls

variable {Socket : Type} [DecidableEq Socket]

def Unix.Answer.finish {Value : Type} (answer : Unix.Answer Socket Value) (socket : Socket)
    (report : Value → Report Socket) : ServiceStep Socket where
  call := .idle
  report := match answer.value with
    | .error errno => some (.failed socket errno)
    | .ok value => some (report value)
  events := answer.events
  host := answer.host

def Unix.Answer.goOn {Value : Type} (answer : Unix.Answer Socket Value)
    (call : ServiceCall Socket) : ServiceStep Socket :=
  ⟨call, none, answer.events, answer.host⟩

def tvnsBind (refusal : Option Errno) (socket : Socket) (serviceNr : ServiceNr)
    (address : SockaddrUn) (host : Host Socket) : ServiceStep Socket :=
  let made := tvnsMakeAddress serviceNr.number true address
  let unlinked := Unix.unlink refusal (Unix.cString made.2.sunPath) host
  match unlinked.value with
  | .error errno =>
      if errno ≠ .enoent then unlinked.finish socket fun _ => .bound socket serviceNr.number
      else unlinked.goOn (.bind socket serviceNr address)
  | .ok _ => unlinked.goOn (.bind socket serviceNr address)

def tvnsBindAddress (refusal : Option Errno) (socket : Socket) (serviceNr : ServiceNr)
    (address : SockaddrUn) (host : Host Socket) : ServiceStep Socket :=
  (Unix.bind refusal socket (tvnsMakeAddress serviceNr.number true address) host).finish socket
    fun _ => .bound socket serviceNr.number

/-- `random` is what `tvu_random` gives. -/
def tvnsClientBind (refusal : Option Errno) (socket : Socket) (pid : Pid) (random : Int64)
    (address : SockaddrUn) (host : Host Socket) : ServiceStep Socket :=
  tvnsBind refusal socket (clientServiceNr pid random) address host

def tvnsUnbind (socket : Socket) (serviceNr : ServiceNr) (host : Host Socket) :
    ServiceStep Socket :=
  ⟨.idle, some (.unbound socket serviceNr.number), [], host⟩

def tvnsSendto (refusal : Option Errno) (socket : Socket) (serviceNr : ServiceNr)
    (buffer : List UInt8) (flags : UInt32) (address : SockaddrUn) (host : Host Socket) :
    ServiceStep Socket :=
  (Unix.sendto refusal socket buffer flags (tvnsMakeAddress serviceNr.number true address)
    host).finish socket fun _ => .sent socket serviceNr.number buffer

def tvnsRecvfrom (refusal : Option Errno) (socket : Socket) (length : Nat) (flags : UInt32)
    (stack : Stack) (host : Host Socket) : ServiceStep Socket :=
  let answer := Unix.recvfrom refusal socket length flags stack.address stack.addressLen host
  match answer.value with
  | .error errno => ⟨.idle, some (.failed socket errno), answer.events, answer.host⟩
  | .ok received =>
      match tvnsParseAddress stack.beyond stack.indeterminate received.address with
      | none => ⟨.aborted, some (.aborted socket), answer.events, answer.host⟩
      | some serviceNr =>
          ⟨.idle, some (.received socket serviceNr received.buffer received.length),
            answer.events, answer.host⟩

def tvnsClose (refusal : Option Errno) (socket : Socket) (serviceNr : ServiceNr)
    (address : SockaddrUn) (host : Host Socket) : ServiceStep Socket :=
  let made := tvnsMakeAddress serviceNr.number true address
  (Unix.unlink refusal (Unix.cString made.2.sunPath) host).goOn (.close socket serviceNr)

def tvnsCloseSocket (refusal : Option Errno) (socket : Socket) (serviceNr : ServiceNr)
    (host : Host Socket) : ServiceStep Socket :=
  (Unix.close refusal socket host).finish socket fun _ => .closed socket serviceNr.number

end Calls

/-! ## Programs that call -/

inductive Request (Socket : Type) where
  | bind (socket : Socket) (serviceNr : ServiceNr)
  | clientBind (socket : Socket) (pid : Pid) (random : Int64)
  | unbind (socket : Socket) (serviceNr : ServiceNr)
  | sendto (socket : Socket) (serviceNr : ServiceNr) (buffer : List UInt8) (flags : UInt32)
  | recvfrom (socket : Socket) (length : Nat) (flags : UInt32)
  | close (socket : Socket) (serviceNr : ServiceNr)

/--
A thread takes its next step, with the request where it is not inside of a
call; or a socket is closed because its process is no more.
-/
inductive ServiceAction (Thread Socket : Type) where
  | step (thread : Thread) (request : Request Socket) (stack : Stack) (refusal : Option Errno)
  | exit (socket : Socket)

structure ServiceSystem (Thread Socket : Type) where
  host : Host Socket
  call : Thread → ServiceCall Socket

section Steps

variable {Thread Socket : Type} [DecidableEq Thread] [DecidableEq Socket]

def Request.start (refusal : Option Errno) (stack : Stack) (host : Host Socket) :
    Request Socket → ServiceStep Socket
  | .bind socket serviceNr => tvnsBind refusal socket serviceNr stack.address host
  | .clientBind socket pid random =>
      tvnsClientBind refusal socket pid random stack.address host
  | .unbind socket serviceNr => tvnsUnbind socket serviceNr host
  | .sendto socket serviceNr buffer flags =>
      tvnsSendto refusal socket serviceNr buffer flags stack.address host
  | .recvfrom socket length flags => tvnsRecvfrom refusal socket length flags stack host
  | .close socket serviceNr => tvnsClose refusal socket serviceNr stack.address host

def ServiceCall.step (request : Request Socket) (stack : Stack) (refusal : Option Errno)
    (host : Host Socket) : ServiceCall Socket → ServiceStep Socket
  | .idle => request.start refusal stack host
  | .bind socket serviceNr address => tvnsBindAddress refusal socket serviceNr address host
  | .close socket serviceNr => tvnsCloseSocket refusal socket serviceNr host
  | .aborted => ⟨.aborted, none, [], host⟩

namespace ServiceSystem

def initial : ServiceSystem Thread Socket := ⟨.empty, fun _ => .idle⟩

def next (s : ServiceSystem Thread Socket) :
    ServiceAction Thread Socket → Option (Report Socket) × ServiceSystem Thread Socket
  | .step thread request stack refusal =>
      let step := (s.call thread).step request stack refusal s.host
      (step.report, ⟨step.host, Function.update s.call thread step.call⟩)
  | .exit socket => (none, ⟨s.host.close socket, s.call⟩)

def run (s : ServiceSystem Thread Socket) :
    List (ServiceAction Thread Socket) → List (Report Socket) × ServiceSystem Thread Socket
  | [] => ([], s)
  | action :: actions =>
      let rest := run (s.next action).2 actions
      ((s.next action).1.toList ++ rest.1, rest.2)

end ServiceSystem

end Steps

end Libtvnet
