import Libtvnet.Foundation.DecimalField
import Libtvnet.Logfile

/-!
# `loop.c`

One iteration of the log server.  Its locals are not initialised: their first
contents are a parameter, and the run lists every assignment by a decode step
and every use of a local.  A use reads what the local holds, assigned or not.

The formatters of tvutils and `vsnprintf` are parameters; the bytes behind
the packet in the ring are too, as strings are read up to a NUL.  `none`
stands for an access outside of an array or of the packet.
-/

namespace Libtvnet

open Libtvnet.Foundation

/-! ## The text of a message -/

/-- What `snprintf` leaves in an array of `size` bytes. -/
def snprintfStored (size : Nat) (text : List UInt8) : List UInt8 := text.take (size - 1) ++ [0]

/-- The inner `none` is the return of -1, with nothing stored. -/
def tvnpSnprintp (undefined : Binary64 → Int) (indeterminate : TvnpToken)
    (vsnprintf : List UInt8 → List VaSlot → List UInt8 → List UInt8) (size : Nat)
    (buffer : TvuBuffer) : Option (Option (List UInt8) × TvuBuffer) := do
  let (call, final) ← tvnpPickleToVa undefined indeterminate buffer
  match call with
  | none => some (none, final)
  | some (p, ap) => do
      let fmt ← cString buffer.data p
      some (some (snprintfStored size (vsnprintf fmt ap buffer.data)), final)

/-! ## Locals -/

inductive Variable where
  | messageType
  | timestamp
  | user
  | session
  | transaction
  | service
  | severity
  | filename
  | lineno
  | messageS
  deriving DecidableEq, Repr

inductive Access where
  | assign (v : Variable)
  | read (v : Variable)
  deriving DecidableEq, Repr

/-- Every local is read behind an assignment to it. -/
def AssignedFirst : List Variable → List Access → Prop
  | _, [] => True
  | known, .assign v :: accesses => AssignedFirst (v :: known) accesses
  | known, .read v :: accesses => v ∈ known ∧ AssignedFirst known accesses

/-- A string is an index into the packet, `messageS` the bytes of the array. -/
structure Locals where
  messageType : Int64
  timestamp : Int64
  user : Int64
  session : Int64
  transaction : Int64
  service : Nat
  severity : Int64
  filename : Nat
  lineno : Int64
  messageS : List UInt8

def headerVariables : List Variable :=
  [.messageType, .timestamp, .user, .session, .transaction, .service, .severity, .filename,
    .lineno]

def Locals.assign (locals : Locals) : Variable × VaOutput → Locals
  | (.messageType, .integer _ x) => { locals with messageType := Int64.ofInt x }
  | (.timestamp, .integer _ x) => { locals with timestamp := Int64.ofInt x }
  | (.user, .integer _ x) => { locals with user := Int64.ofInt x }
  | (.session, .integer _ x) => { locals with session := Int64.ofInt x }
  | (.transaction, .integer _ x) => { locals with transaction := Int64.ofInt x }
  | (.service, .string p) => { locals with service := p }
  | (.severity, .integer _ x) => { locals with severity := Int64.ofInt x }
  | (.filename, .string p) => { locals with filename := p }
  | (.lineno, .integer _ x) => { locals with lineno := Int64.ofInt x }
  | _ => locals

/-! ## The iteration -/

/-- The part of tvutils and of the C library that the log server formats with. -/
structure Formatters where
  tvuFmtTimestamp : Int64 → List UInt8
  tvuFmtShortdate : Int64 → List UInt8
  tvuI64ToBase85 : Int64 → List UInt8
  vsnprintf : List UInt8 → List VaSlot → List UInt8 → List UInt8

/-- The casts to `tvnl_severity_t` and to `tvnl_type_t`. -/
def toEnum (x : Int64) : UInt32 := x.toUInt64.toUInt32

def severityText (severity : TvnlSeverity) : List UInt8 :=
  match severity.toNat with
  | 0 => ascii ['F', 'A', 'T', 'A', 'L']
  | 1 => ascii ['E', 'R', 'R', 'O', 'R']
  | 2 => ascii ['W', 'A', 'R', 'N', ' ']
  | 3 => ascii ['A', 'U', 'D', 'I', 'T']
  | 4 => ascii ['I', 'N', 'F', 'O', ' ']
  | 5 => ascii ['D', 'E', 'B', 'U', 'G']
  | _ => ascii ['U', 'N', 'K', 'N', ' ']

def unknownTypeText (messageType : Int64) : List UInt8 :=
  ascii ['U', 'n', 'k', 'n', 'o', 'w', 'n', ' ', 'm', 'e', 's', 's', 'a', 'g', 'e', ' ', 't',
    'y', 'p', 'e', ' '] ++ ascii (printSigned messageType.toInt32.toInt) ++ ascii ['.']

def stringAt (data beyond : List UInt8) (p : Nat) : List UInt8 :=
  ((data ++ beyond).drop p).takeWhile (· != 0)

/-- What `write` is called with, where `open_logfile` has returned. -/
structure IterationRun where
  accesses : List Access
  loglineS : List UInt8
  loglineLen : Nat
  logfile : LogfileRun

section Iteration

variable (undefined : Binary64 → Int) (indeterminate : TvnpToken) (lib : Formatters)

def formatMessage (locals : Locals) (severityS : List UInt8) (buffer : TvuBuffer) :
    Option (Locals × List UInt8 × List Access) :=
  if toEnum locals.messageType = toEnum tvnlMessageType then do
    let (text, _) ← tvnpSnprintp undefined indeterminate lib.vsnprintf 256 buffer
    match text with
    | some messageS => some ({ locals with messageS := messageS }, severityS, [.assign .messageS])
    | none => some (locals, severityS, [])
  else
    some ({ locals with messageS := snprintfStored 256 (unknownTypeText locals.messageType) },
      ascii ['E', 'R', 'R', 'O', 'R'], [.read .messageType, .assign .messageS])

def loglineText (locals : Locals) (severityS data beyond : List UInt8) : List UInt8 :=
  lib.tvuFmtTimestamp locals.timestamp ++ ascii [' '] ++ severityS ++ ascii [' '] ++
    lib.tvuI64ToBase85 locals.user ++ ascii [' '] ++
    lib.tvuI64ToBase85 locals.session ++ ascii [' '] ++
    lib.tvuI64ToBase85 locals.transaction ++ ascii [' '] ++
    stringAt data beyond locals.service ++ ascii [':'] ++
    stringAt data beyond locals.filename ++ ascii [':'] ++
    ascii (printSigned locals.lineno.toInt) ++ ascii [' '] ++
    locals.messageS.takeWhile (· != 0) ++ ascii ['\n']

/-- The inner `none` is the return of `false` for an empty ring. -/
def iteration (optionLogdir : List UInt8) (openFile : List UInt8 → Int) (files : Logfiles)
    (locals : Locals) (beyond : List UInt8) (packet : Option TvuBuffer) :
    Option (Option IterationRun) :=
  match packet with
  | none => some none
  | some buffer => do
      let (_, outputs, buffer) ← tvnpVdecode undefined indeterminate headerTypes buffer
      let decoded := headerVariables.zip outputs
      let locals := decoded.foldl Locals.assign locals
      let severityS := severityText (toEnum locals.severity)
      let (locals, severityS, messageAccesses) ←
        formatMessage undefined indeterminate lib locals severityS buffer
      let logline := loglineText lib locals severityS buffer.data beyond
      let logfile ← openLogfile lib.tvuFmtShortdate optionLogdir openFile files locals.timestamp
        (toEnum locals.severity)
      some (some {
        accesses := decoded.map (fun (v, _) => .assign v) ++
          [.read .timestamp, .read .user, .read .session, .read .transaction, .read .severity,
            .read .messageType] ++ messageAccesses ++
          [.read .service, .read .filename, .read .lineno, .read .messageS, .read .timestamp,
            .read .severity]
        loglineS := snprintfStored 256 logline
        loglineLen := logline.length
        logfile := logfile })

end Iteration

end Libtvnet
