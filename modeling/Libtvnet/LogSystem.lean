import Libtvnet.Foundation.SlotQueue
import Libtvnet.LogfileCache
import Libtvnet.LoglineBound

/-!
# The log system

Any number of threads of any number of processes log messages, and one server
writes them to files.  They share a ring of tvutils.  A call of `tvnl_vmessage`
is cut behind the reservation of its packet, an iteration of the server before
it frees the packet.
-/

namespace Libtvnet

open Libtvnet.Foundation

/-! ## The ring -/

/--
The ring of tvutils, as the two programs rely on it: a packet is a block of the
size that was asked for, and the packets are read in the order in which they
were reserved, each one when its data is marked.
-/
structure RingBuffer where
  State : Type
  tvuRingHead : State → UInt64 → Option (Nat × TvuBuffer) × State
  tvuRingpacketMarkdata : State → Nat → TvuBuffer → State
  tvuRingTail : State → Option (Nat × TvuBuffer) × State
  tvuRingpacketMarkfree : State → Nat → State
  tvuRingAdvanceFree : State → State
  queue : State → SlotQueue TvuBuffer
  head_reserves : ∀ s size number packet s',
    tvuRingHead s size = (some (number, packet), s') →
      number = (queue s).next ∧ queue s' = (queue s).reserve ∧
        packet.offset = 0 ∧ packet.size = size.toNat
  head_refuses : ∀ s size s', tvuRingHead s size = (none, s') → queue s' = queue s
  markdata_fills : ∀ s number packet,
    queue (tvuRingpacketMarkdata s number packet) = (queue s).fill number packet
  tail_takes : ∀ s number packet s', tvuRingTail s = (some (number, packet), s') →
    (queue s).oldest = some (number, packet) ∧ queue s' = (queue s).take
  tail_waits : ∀ s s', tvuRingTail s = (none, s') → queue s' = queue s
  free_keeps : ∀ s number,
    queue (tvuRingAdvanceFree (tvuRingpacketMarkfree s number)) = queue s

/-! ## The programs -/

structure Sending where
  number : Nat
  packet : TvuBuffer
  call : LogCall

structure Entry where
  file : Option (List UInt8)
  bytes : List UInt8

abbrev Disk := List UInt8 → List UInt8

/--
`taken` is the packet of the iteration that has not freed it yet.  The calls are
those that have got a packet, in that order.  The entries are those of all
servers, with `none` for a message that was lost when its server aborted.
-/
structure LogSystem (buffer : RingBuffer) (Thread : Type) where
  ring : buffer.State
  sending : Thread → Option Sending
  taken : Option Nat
  server : LogServer
  disk : Disk
  calls : List LogCall
  entries : List (Option Entry)
  aborts : Nat

def openFileName (opened : List (Int × List UInt8)) (fd : Int) : Option (List UInt8) :=
  (opened.find? fun descriptor => descriptor.1 = fd).map Prod.snd

/-- `write` to a descriptor that was opened with `O_APPEND`. -/
def Disk.write (disk : Disk) (entry : Entry) : Disk :=
  match entry.file with
  | none => disk
  | some file => Function.update disk file (disk file ++ entry.bytes)

/-- A proper call, with a severity that one of the macros has. -/
structure LogCall.Loggable (call : LogCall) : Prop where
  proper : call.Proper
  known : call.severity.toNat ≤ 5

section Steps

variable {buffer : RingBuffer} {Thread : Type} [DecidableEq Thread]
  (undefined : Binary64 → Int) (indeterminate : TvnpToken) (lib : Formatters)
  (optionLogdir : List UInt8)

/--
A step of a thread or of the server.  Only loggable calls get packets.  What
`open` answers, what the stack holds and what is behind the packet may be
anything; `write` finds all the memory that it is told to read.  Where `open`
fails, `open_logfile` aborts with the packet taken, which nobody frees or takes
again.
-/
inductive LogStep : LogSystem buffer Thread → LogSystem buffer Thread → Prop
  | refuse {s : LogSystem buffer Thread} {call : LogCall} {size : UInt64}
      {ring : buffer.State} :
      tvnlVmessageSize undefined call call.types = some size →
      buffer.tvuRingHead s.ring size = (none, ring) →
      LogStep s { s with ring := ring }
  | reserve {s : LogSystem buffer Thread} {thread : Thread} {call : LogCall} {size : UInt64}
      {number : Nat} {packet : TvuBuffer} {ring : buffer.State} :
      s.sending thread = none → call.Loggable → (tvnpFmtParse call.fmt.chars).2 ≠ -1 →
      tvnlVmessageSize undefined call call.types = some size →
      buffer.tvuRingHead s.ring size = (some (number, packet), ring) →
      LogStep s { s with
        ring := ring
        sending := Function.update s.sending thread (some ⟨number, packet, call⟩)
        calls := s.calls ++ [call] }
  | mark {s : LogSystem buffer Thread} {thread : Thread} {sending : Sending}
      {written : TvuBuffer} :
      s.sending thread = some sending →
      tvnlVmessage undefined (fun _ => some sending.packet) sending.call = some (some written) →
      LogStep s { s with
        ring := buffer.tvuRingpacketMarkdata s.ring sending.number written
        sending := Function.update s.sending thread none }
  | wait {s : LogSystem buffer Thread} {ring : buffer.State} :
      s.taken = none → buffer.tvuRingTail s.ring = (none, ring) →
      LogStep s { s with ring := ring }
  | log {s : LogSystem buffer Thread} {ring : buffer.State} {number : Nat} {packet : TvuBuffer}
      {locals : Locals} {beyond stack : List UInt8} {answer fd : Int} {run : IterationRun}
      {opened : List (Int × List UInt8)} {entry : Entry} :
      s.taken = none → buffer.tvuRingTail s.ring = (some (number, packet), ring) →
      iteration undefined indeterminate lib optionLogdir (fun _ => answer) s.server.files locals
        beyond (some packet.rewind) = some (some run) →
      run.logfile.ret = some fd → run.loglineLen ≤ (run.loglineS ++ stack).length →
      opened = run.logfile.calls.foldl (FileCall.run answer) s.server.opened →
      entry = ⟨openFileName opened fd, (run.loglineS ++ stack).take run.loglineLen⟩ →
      LogStep s { s with
        ring := ring
        taken := some number
        server := ⟨run.logfile.files, opened⟩
        disk := s.disk.write entry
        entries := s.entries ++ [some entry] }
  | abort {s : LogSystem buffer Thread} {ring : buffer.State} {number : Nat} {packet : TvuBuffer}
      {locals : Locals} {beyond : List UInt8} {answer : Int} {run : IterationRun} :
      s.taken = none → buffer.tvuRingTail s.ring = (some (number, packet), ring) →
      iteration undefined indeterminate lib optionLogdir (fun _ => answer) s.server.files locals
        beyond (some packet.rewind) = some (some run) →
      run.logfile.ret = none →
      LogStep s { s with
        ring := ring
        server := .start
        entries := s.entries ++ [none]
        aborts := s.aborts + 1 }
  | free {s : LogSystem buffer Thread} {number : Nat} :
      s.taken = some number →
      LogStep s { s with
        ring := buffer.tvuRingAdvanceFree (buffer.tvuRingpacketMarkfree s.ring number)
        taken := none }
  | restart {s : LogSystem buffer Thread} :
      s.taken = none → LogStep s { s with server := .start }

/-- Nothing has been logged; the ring may be in use, the files may be there. -/
structure LogSystem.Initial (s : LogSystem buffer Thread) : Prop where
  queue : buffer.queue s.ring = .empty
  sending : ∀ thread, s.sending thread = none
  taken : s.taken = none
  server : s.server = .start
  calls : s.calls = []
  entries : s.entries = []
  aborts : s.aborts = 0

end Steps

end Libtvnet
