import Libtvnet.Foundation.ByteStore
import Libtvnet.Cuid
import Libtvnet.LogPipeline

/-!
# The layout of the shared memory

`tvn_init` places `tvn_cuid_state` behind the ring buffer, in one segment of
shared memory; addresses are counted from the start of the segment.  The size
that it passes on for the ring is that of the whole segment.  The log and
`tvn_cuid` stay apart only in runs that never get to the end of it.
-/

namespace Libtvnet

open Libtvnet.Foundation

/-! ## Sizes and places -/

def tvnlRingbufferSize : Nat := 0x00100000

/-- `sizeof (tvn_cuid_state_t)`: two members, each aligned to 64 bytes. -/
def sizeofTvnCuidState : Nat := 128

def tvnShmSize : Nat := tvnlRingbufferSize + sizeofTvnCuidState

/-- The range that is passed to `tvu_ring_init`. -/
def ringSpan : Span := ⟨0, tvnShmSize⟩

def cuidStateSpan : Span := ⟨tvnlRingbufferSize, sizeofTvnCuidState⟩

def nodeIdAddress : Nat := tvnlRingbufferSize

def prevCuidAddress : Nat := tvnlRingbufferSize + 64

/-! ## Integers in memory -/

inductive ByteOrder where
  | big
  | little

def ByteOrder.arrange : ByteOrder → List UInt8 → List UInt8
  | .big, bytes => bytes
  | .little, bytes => bytes.reverse

@[simp] theorem ByteOrder.length_arrange (order : ByteOrder) (bytes : List UInt8) :
    (order.arrange bytes).length = bytes.length := by
  cases order with
  | big => rfl
  | little => exact List.length_reverse

@[simp] theorem ByteOrder.arrange_arrange (order : ByteOrder) (bytes : List UInt8) :
    order.arrange (order.arrange bytes) = bytes := by
  cases order with
  | big => rfl
  | little => exact List.reverse_reverse bytes

namespace SharedMemory

variable (order : ByteOrder)

def nodeId (m : Memory) : Int16 :=
  (tvuGetBeI 16 (order.arrange (m.bytesAt nodeIdAddress 2))).toInt16

def prevCuid (m : Memory) : Int64 :=
  tvuGetBeI 64 (order.arrange (m.bytesAt prevCuidAddress 8))

def setPrevCuid (m : Memory) (x : Int64) : Memory :=
  m.write (Memory.storesAt prevCuidAddress (order.arrange (tvuSetBeI 64 x.toInt)))

@[simp] theorem prevCuid_setPrevCuid (m : Memory) (x : Int64) :
    prevCuid order (setPrevCuid order m x) = x := by
  have hlength : (order.arrange (tvuSetBeI 64 x.toInt)).length = 8 := by simp
  have hbytes : (setPrevCuid order m x).bytesAt prevCuidAddress 8 =
      order.arrange (tvuSetBeI 64 x.toInt) := by
    rw [← hlength]
    exact Memory.bytesAt_write_storesAt m prevCuidAddress _
  rw [prevCuid, hbytes, ByteOrder.arrange_arrange]
  exact tvuGetBeI_tvuSetBeI x (by decide) (by decide) x.le_toInt x.toInt_lt

private theorem prevCuid_eq_of_agreesOn {span : Span} {m m' : Memory}
    (h : Memory.AgreesOn span m m') (hlo : span.start ≤ prevCuidAddress)
    (hhi : prevCuidAddress + 8 ≤ span.start + span.size) :
    prevCuid order m' = prevCuid order m := by
  rw [prevCuid, prevCuid, h.bytesAt hlo hhi]

end SharedMemory

/-! ## A call of `tvn_cuid` on its own -/

/-- The id that a call returns, and leaves in the cell, when no other call comes in between. -/
def tvnCuid (nodeId : Int16) (tvuTime prevCuid : Int64) : Int64 :=
  let newCuid := (tvuTime &&& timeMask) ||| nodeId.toInt64
  if newCuid > prevCuid then newCuid else prevCuid + timeStep

def tvnCuidRun (nodeId : Int16) (tvuTime : Int64) : Nat → Int64 → CuidCall → Option CuidStep
  | 0, _, _ => none
  | fuel + 1, prevCuid, call =>
      let step := tvnCuidStep nodeId tvuTime prevCuid call
      match step.returned with
      | some _ => some step
      | none => tvnCuidRun nodeId tvuTime fuel step.prevCuid step.call

theorem tvnCuidRun_eq (nodeId : Int16) (tvuTime prevCuid : Int64) :
    tvnCuidRun nodeId tvuTime 4 prevCuid .idle =
      some ⟨.idle, tvnCuid nodeId tvuTime prevCuid, some (tvnCuid nodeId tvuTime prevCuid)⟩ := by
  by_cases hnew : (tvuTime &&& timeMask) ||| nodeId.toInt64 > prevCuid
  · simp [tvnCuidRun, tvnCuidStep, tvnCuid, hnew]
  · simp [tvnCuidRun, tvnCuidStep, tvnCuid, hnew]

private theorem tvnCuid_ne (nodeId : Int16) (tvuTime prevCuid : Int64) :
    tvnCuid nodeId tvuTime prevCuid ≠ prevCuid := by
  simp only [tvnCuid]
  split
  case isTrue hnew => exact fun heq => Int64.lt_irrefl (heq ▸ hnew)
  case isFalse =>
    intro heq
    have hsum := congrArg Int64.toInt heq
    have hstep : timeStep.toInt = 4096 := by decide
    have hlo := prevCuid.le_toInt
    have hhi := prevCuid.toInt_lt
    rw [Int64.toInt_add, hstep] at hsum
    simp only [Int.bmod] at hsum
    omega

/-! ## Calls on the segment -/

section Calls

variable (undefined : Binary64 → Int)

/--
The stores of a logged message: the ring's for the head, the bytes of the
encoders, which end at the offset of the buffer, and the ring's mark.
-/
def logStores (head : List Store) (place : Nat) (packet : Option TvuBuffer)
    (markData : List Store) : List Store :=
  head ++ (packet.map fun packet =>
    Memory.storesAt place (packet.data.take packet.offset) ++ markData).getD []

structure LogWrite where
  call : LogCall
  tvuRingHead : UInt64 → Option TvuBuffer
  starts : RingStarts tvuRingHead
  packet : Option TvuBuffer
  sent : tvnlVmessage undefined tvuRingHead call = some packet
  place : Nat
  head : List Store
  markData : List Store
  inRing : ∀ store ∈ logStores head place packet markData, ringSpan.Contains store.address

variable {undefined}

def LogWrite.stores (write : LogWrite undefined) : List Store :=
  logStores write.head write.place write.packet write.markData

variable (undefined)

inductive SegmentCall where
  | log (write : LogWrite undefined)
  | cuid (tvuTime : Int64)

variable {undefined}

def SegmentCall.run (order : ByteOrder) (m : Memory) : SegmentCall undefined → Memory
  | .log write => m.write write.stores
  | .cuid tvuTime =>
      SharedMemory.setPrevCuid order m
        (tvnCuid (SharedMemory.nodeId order m) tvuTime (SharedMemory.prevCuid order m))

/-! ## Isolation -/

/-- What the call may not touch stays as it is. -/
def SegmentCall.Keeps (order : ByteOrder) (m : Memory) : SegmentCall undefined → Prop
  | .log write =>
      Memory.AgreesOn cuidStateSpan m (m.write write.stores) ∧
        SharedMemory.prevCuid order m ≤ SharedMemory.prevCuid order (m.write write.stores)
  | .cuid tvuTime =>
      Memory.AgreesOn ringSpan m ((cuid tvuTime : SegmentCall undefined).run order m)

/-- Each call of the sequence leaves the memory of the other user alone. -/
def IsolatedFrom (order : ByteOrder) : Memory → List (SegmentCall undefined) → Prop
  | _, [] => True
  | m, call :: calls => call.Keeps order m ∧ IsolatedFrom order (call.run order m) calls

/-- So they do whatever the segment holds in the beginning. -/
def Isolated (order : ByteOrder) (calls : List (SegmentCall undefined)) : Prop :=
  ∀ m, IsolatedFrom order m calls

/-- A log write inside of the bytes that the ring was meant to have. -/
def SegmentCall.InRingbuffer : SegmentCall undefined → Prop
  | .log write => ∀ store ∈ write.stores, store.address < tvnlRingbufferSize
  | .cuid _ => False

def SegmentCall.Separate (m : Memory) : SegmentCall undefined → Prop
  | .log write => ∀ address, cuidStateSpan.Contains address →
      ∀ byte ∈ Memory.lastStored write.stores address, byte = m address
  | .cuid _ => False

private theorem keeps_log_iff {order : ByteOrder} {m : Memory} {write : LogWrite undefined} :
    (SegmentCall.log write).Keeps order m ↔ (SegmentCall.log write).Separate m := by
  constructor
  · intro h
    exact Memory.agreesOn_write_iff.mp h.1
  · intro h
    have hagrees := Memory.agreesOn_write_iff.mpr h
    have hsame := SharedMemory.prevCuid_eq_of_agreesOn order hagrees (by decide) (by decide)
    refine ⟨hagrees, ?_⟩
    rw [hsame]
    exact Int64.le_refl _

private theorem not_keeps_cuid (order : ByteOrder) (m : Memory) (tvuTime : Int64) :
    ¬ (SegmentCall.cuid tvuTime : SegmentCall undefined).Keeps order m := by
  intro h
  have hagrees : Memory.AgreesOn ringSpan m
      ((SegmentCall.cuid tvuTime : SegmentCall undefined).run order m) := h
  have hsame := SharedMemory.prevCuid_eq_of_agreesOn order hagrees (by decide) (by decide)
  rw [SegmentCall.run, SharedMemory.prevCuid_setPrevCuid] at hsame
  exact tvnCuid_ne _ _ _ hsame

private theorem keeps_iff {order : ByteOrder} {m : Memory} {call : SegmentCall undefined} :
    call.Keeps order m ↔ call.Separate m := by
  cases call with
  | log write => exact keeps_log_iff
  | cuid tvuTime => exact iff_of_false (not_keeps_cuid order m tvuTime) not_false

theorem SegmentCall.Separate.run_iff {order : ByteOrder} {m : Memory}
    {first call : SegmentCall undefined} (h : first.Separate m) :
    call.Separate (first.run order m) ↔ call.Separate m := by
  cases first with
  | cuid tvuTime => exact h.elim
  | log write =>
      have hagrees : Memory.AgreesOn cuidStateSpan m (m.write write.stores) :=
        Memory.agreesOn_write_iff.mpr h
      cases call with
      | cuid tvuTime => exact Iff.rfl
      | log later =>
          refine forall₂_congr fun address haddress => ?_
          rw [SegmentCall.run, hagrees address haddress]

private theorem isolatedFrom_iff_separate {order : ByteOrder} {m : Memory}
    {calls : List (SegmentCall undefined)} :
    IsolatedFrom order m calls ↔ ∀ call ∈ calls, call.Separate m := by
  induction calls generalizing m with
  | nil => simp [IsolatedFrom]
  | cons call calls ih =>
      rw [IsolatedFrom, keeps_iff, ih, List.forall_mem_cons]
      refine and_congr_right fun hfirst => ?_
      exact forall₂_congr fun later _ => hfirst.run_iff

theorem SegmentCall.InRingbuffer.separate {call : SegmentCall undefined}
    (h : call.InRingbuffer) (m : Memory) : call.Separate m := by
  cases call with
  | cuid tvuTime => exact h
  | log write =>
      intro address haddress byte hbyte
      obtain ⟨store, hmem, rfl, -⟩ := Memory.mem_lastStored hbyte
      exact absurd (h store hmem) (Nat.not_lt.mpr haddress.1)

theorem SegmentCall.inRingbuffer_of_separate {call : SegmentCall undefined}
    (h : ∀ m, call.Separate m) : call.InRingbuffer := by
  cases call with
  | cuid tvuTime => exact h fun _ => 0
  | log write =>
      intro store hstore
      by_contra hbehind
      have hrange := write.inRing store hstore
      have hspan : cuidStateSpan.Contains store.address :=
        ⟨Nat.not_lt.mp hbehind, by simpa [ringSpan, cuidStateSpan, tvnShmSize] using hrange.2⟩
      obtain ⟨byte, hbyte⟩ := Memory.exists_lastStored hstore
      have hzero : byte = 0 := h (fun _ => 0) _ hspan byte hbyte
      have hone : byte = 1 := h (fun _ => 1) _ hspan byte hbyte
      exact absurd (hzero.symm.trans hone) (by decide)

theorem isolated_iff_inRingbuffer {order : ByteOrder} {calls : List (SegmentCall undefined)} :
    Isolated order calls ↔ ∀ call ∈ calls, call.InRingbuffer := by
  constructor
  · intro h call hcall
    refine SegmentCall.inRingbuffer_of_separate fun m => ?_
    exact isolatedFrom_iff_separate.mp (h m) call hcall
  · intro h m
    exact isolatedFrom_iff_separate.mpr fun call hcall => (h call hcall).separate m

end Calls

/-! ## The far end of the ring -/

def farEndPacket : Option TvuBuffer := (tvnlVmessage (fun _ => 0) zeroRing sampleCall).getD none

/-- The ring has filled up to the last 64 bytes of its range, where it places the packet. -/
def farEndWrite : LogWrite fun _ => 0 where
  call := sampleCall
  tvuRingHead := zeroRing
  starts := ringStarts_zeroRing
  packet := farEndPacket
  sent := by decide +kernel
  place := prevCuidAddress
  head := []
  markData := []
  inRing := by decide +kernel

/-- An id is in the range of the ring, and a message at its far end lowers it. -/
theorem not_isolated_farEnd :
    ¬ IsolatedFrom .little (fun _ => 0) [(.cuid 0x3000 : SegmentCall fun _ => 0)] ∧
      ∃ m, SharedMemory.prevCuid .little m = 0x3000 ∧
        SharedMemory.prevCuid .little (m.write farEndWrite.stores) < 0x3000 ∧
        ¬ IsolatedFrom .little m [.log farEndWrite] := by
  have hprev := SharedMemory.prevCuid_setPrevCuid .little (fun _ => 0) 0x3000
  have hlower : SharedMemory.prevCuid .little
      ((SharedMemory.setPrevCuid .little (fun _ => 0) 0x3000).write farEndWrite.stores) <
        0x3000 := by
    decide +kernel
  refine ⟨fun h => not_keeps_cuid .little _ _ h.1, _, hprev, hlower, fun h => ?_⟩
  have hkept := h.1.2
  rw [hprev] at hkept
  exact Int64.lt_irrefl (Int64.lt_of_lt_of_le hlower hkept)

end Libtvnet
