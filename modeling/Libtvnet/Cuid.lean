import Libtvnet.Foundation.Issuer
import Mathlib.Data.BitVec
import Mathlib.Logic.Function.Basic

/-!
# `cuid.h`

A call of `tvn_cuid` is cut at its atomic steps: the clock is read, the shared
cell is read, the new id is tried with a compare-and-swap, and where that fails
a time step is added to the cell.  A cluster is any number of nodes, each with
its cell, and any number of threads on them that take these steps in any order.
-/

namespace Libtvnet

/-! ## A call -/

def timeStep : Int64 := 0x0000000000001000

def nodeMask : Int64 := 0x0000000000000fff

def timeMask : Int64 := 0xfffffffffffff000

/-- Where a call is, with its locals; `idle` is before it and behind it. -/
inductive CuidCall where
  | idle
  | timed (newCuid : Int64)
  | read (newCuid oldCuid : Int64)
  | failed
  deriving DecidableEq

structure CuidStep where
  call : CuidCall
  prevCuid : Int64
  returned : Option Int64

def tvnCuidStep (nodeId : Int16) (tvuTime prevCuid : Int64) : CuidCall → CuidStep
  | .idle => ⟨.timed ((tvuTime &&& timeMask) ||| nodeId.toInt64), prevCuid, none⟩
  | .timed newCuid => ⟨.read newCuid prevCuid, prevCuid, none⟩
  | .read newCuid oldCuid =>
      if newCuid > oldCuid ∧ prevCuid = oldCuid then ⟨.idle, newCuid, some newCuid⟩
      else ⟨.failed, prevCuid, none⟩
  | .failed => ⟨.idle, prevCuid + timeStep, some (prevCuid + timeStep)⟩

/-! ## A cluster -/

structure Cluster (Node Thread : Type) where
  home : Thread → Node
  nodeId : Node → Int16
  nodeId_nonneg : ∀ node, 0 ≤ (nodeId node).toInt
  nodeId_lt : ∀ node, (nodeId node).toInt < 4096
  nodeId_injective : Function.Injective nodeId

/-- An id that was returned: by which node, for which reading of the clock, and how many
ids had been returned anywhere when its call started. -/
structure Issue (Node : Type) where
  node : Node
  id : Int64
  clock : Int64
  seen : Nat

structure ClusterState (Node Thread : Type) where
  prevCuid : Node → Int64
  call : Thread → CuidCall
  clock : Thread → Int64
  seen : Thread → Nat
  issued : List (Issue Node)

variable {Node Thread : Type} [DecidableEq Node] [DecidableEq Thread]

namespace ClusterState

def init : ClusterState Node Thread where
  prevCuid _ := 0
  call _ := .idle
  clock _ := 0
  seen _ := 0
  issued := []

/-- The next atomic step of a thread; the clock is read by the step that starts a call. -/
def next (cluster : Cluster Node Thread) (s : ClusterState Node Thread) (thread : Thread)
    (tvuTime : Int64) : ClusterState Node Thread :=
  let node := cluster.home thread
  let step := tvnCuidStep (cluster.nodeId node) tvuTime (s.prevCuid node) (s.call thread)
  let starts := s.call thread = .idle
  { prevCuid := Function.update s.prevCuid node step.prevCuid
    call := Function.update s.call thread step.call
    clock := if starts then Function.update s.clock thread tvuTime else s.clock
    seen := if starts then Function.update s.seen thread s.issued.length else s.seen
    issued := match step.returned with
      | none => s.issued
      | some id => ⟨node, id, s.clock thread, s.seen thread⟩ :: s.issued }

end ClusterState

/-- Any thread takes its next step; the clock is not negative and the addition does not overflow. -/
inductive ClusterStep (cluster : Cluster Node Thread) :
    ClusterState Node Thread → ClusterState Node Thread → Prop
  | mk {s : ClusterState Node Thread} (thread : Thread) (tvuTime : Int64) :
      0 ≤ tvuTime.toInt →
      (s.call thread = .failed → (s.prevCuid (cluster.home thread)).toInt + 4096 < 2 ^ 63) →
      ClusterStep cluster s (s.next cluster thread tvuTime)

def Reachable (cluster : Cluster Node Thread) (s : ClusterState Node Thread) : Prop :=
  Relation.ReflTransGen (ClusterStep cluster) .init s

inductive AllowedStep (cluster : Cluster Node Thread)
    (Allowed : ClusterState Node Thread → Thread → Prop) :
    ClusterState Node Thread → ClusterState Node Thread → Prop
  | mk {s : ClusterState Node Thread} (thread : Thread) (tvuTime : Int64) :
      0 ≤ tvuTime.toInt →
      (s.call thread = .failed → (s.prevCuid (cluster.home thread)).toInt + 4096 < 2 ^ 63) →
      Allowed s thread → AllowedStep cluster Allowed s (s.next cluster thread tvuTime)

def AllowedReachable (cluster : Cluster Node Thread)
    (Allowed : ClusterState Node Thread → Thread → Prop) (s : ClusterState Node Thread) : Prop :=
  Relation.ReflTransGen (AllowedStep cluster Allowed) .init s

section Runs

variable {cluster : Cluster Node Thread} {Allowed : ClusterState Node Thread → Thread → Prop}

theorem AllowedStep.clusterStep {s s' : ClusterState Node Thread}
    (h : AllowedStep cluster Allowed s s') : ClusterStep cluster s s' := by
  cases h with
  | mk thread tvuTime hclock hroom _ => exact .mk thread tvuTime hclock hroom

theorem AllowedReachable.reachable {s : ClusterState Node Thread}
    (h : AllowedReachable cluster Allowed s) : Reachable cluster s :=
  h.lift id fun _ _ hstep => hstep.clusterStep

variable (cluster Allowed) in
/-- The steps of the list are possible and allowed, one after the other. -/
def ClusterState.Admits (s : ClusterState Node Thread) : List (Thread × Int64) → Prop
  | [] => True
  | (thread, tvuTime) :: steps =>
      (0 ≤ tvuTime.toInt ∧
        (s.call thread = .failed → (s.prevCuid (cluster.home thread)).toInt + 4096 < 2 ^ 63) ∧
        Allowed s thread) ∧
      Admits (s.next cluster thread tvuTime) steps

instance ClusterState.decidableAdmits [∀ s, DecidablePred (Allowed s)] :
    ∀ (steps : List (Thread × Int64)) (s : ClusterState Node Thread),
      Decidable (s.Admits cluster Allowed steps)
  | [], _ => isTrue trivial
  | (thread, tvuTime) :: steps, s =>
      have := decidableAdmits steps (s.next cluster thread tvuTime)
      inferInstanceAs
        (Decidable (_ ∧ (s.next cluster thread tvuTime).Admits cluster Allowed steps))

variable (cluster) in
def ClusterState.run (steps : List (Thread × Int64)) : ClusterState Node Thread :=
  steps.foldl (fun s step => s.next cluster step.1 step.2) .init

theorem AllowedReachable.foldl {s : ClusterState Node Thread} {steps : List (Thread × Int64)}
    (h : AllowedReachable cluster Allowed s) (hadmits : s.Admits cluster Allowed steps) :
    AllowedReachable cluster Allowed
      (steps.foldl (fun s step => s.next cluster step.1 step.2) s) := by
  induction steps generalizing s with
  | nil => exact h
  | cons step steps ih =>
      obtain ⟨⟨hclock, hroom, hallowed⟩, hrest⟩ := hadmits
      exact ih (h.tail (.mk step.1 step.2 hclock hroom hallowed)) hrest

end Runs

/-! ## The bits of an id -/

private theorem toInt_eq_bmod (x : Int64) : x.toInt = Int.bmod x.toBitVec.toNat (2 ^ 64) := by
  rw [← Int64.toInt_toBitVec, BitVec.toInt_eq_toNat_bmod]

private theorem toNat_of_nonneg {x : Int64} (h : 0 ≤ x.toInt) :
    (x.toBitVec.toNat : Int) = x.toInt := by
  have hlt := x.toBitVec.isLt
  rw [toInt_eq_bmod] at h ⊢
  simp only [Int.bmod] at h ⊢
  omega

private theorem toInt_of_toNat {x : Int64} (h : x.toBitVec.toNat < 2 ^ 63) :
    x.toInt = x.toBitVec.toNat := by
  rw [toInt_eq_bmod]
  simp only [Int.bmod]
  omega

theorem toInt_and_nodeMask (x : Int64) : (x &&& nodeMask).toInt = x.toInt % 4096 := by
  have hnat : (x &&& nodeMask).toBitVec.toNat = x.toBitVec.toNat % 4096 := by
    rw [Int64.toBitVec_and, BitVec.toNat_and]
    exact Nat.and_two_pow_sub_one_eq_mod _ 12
  rw [toInt_of_toNat (by omega), hnat, toInt_eq_bmod]
  simp only [Int.bmod]
  omega

private theorem and_high (n : Nat) (h : n < 2 ^ 64) :
    n &&& (2 ^ 12 * (2 ^ 52 - 1)) = 2 ^ 12 * (n / 2 ^ 12) := by
  apply Nat.eq_of_testBit_eq
  intro i
  rw [Nat.testBit_and, Nat.testBit_two_pow_mul, Nat.testBit_two_pow_mul,
    Nat.testBit_two_pow_sub_one, Nat.testBit_div_two_pow]
  by_cases hlow : 12 ≤ i
  · rw [Nat.sub_add_cancel hlow]
    by_cases hhigh : i < 64
    · simp [hlow, show i - 12 < 52 by omega]
    · have hbit : n.testBit i = false :=
        Nat.testBit_lt_two_pow (lt_of_lt_of_le h (Nat.pow_le_pow_right (by decide) (by omega)))
      simp [hbit]
  · simp [hlow]

private theorem toNat_newCuid (t : Int64) {nodeId : Int16}
    (hlo : 0 ≤ nodeId.toInt) (hhi : nodeId.toInt < 4096) :
    (((t &&& timeMask) ||| nodeId.toInt64).toBitVec.toNat : Int) =
      t.toBitVec.toNat / 4096 * 4096 + nodeId.toInt := by
  have hnode := toNat_of_nonneg (x := nodeId.toInt64) (by rw [Int16.toInt_toInt64]; exact hlo)
  rw [Int16.toInt_toInt64] at hnode
  have hmask : timeMask.toBitVec.toNat = 2 ^ 12 * (2 ^ 52 - 1) := by decide
  have hbits : ((t &&& timeMask) ||| nodeId.toInt64).toBitVec.toNat =
      2 ^ 12 * (t.toBitVec.toNat / 2 ^ 12) + nodeId.toInt64.toBitVec.toNat := by
    rw [Int64.toBitVec_or, Int64.toBitVec_and, BitVec.toNat_or, BitVec.toNat_and, hmask,
      and_high _ t.toBitVec.isLt, Nat.two_pow_add_eq_or_of_lt (by omega)]
  rw [hbits]
  push_cast
  omega

theorem toInt_newCuid {t : Int64} {nodeId : Int16} (ht : 0 ≤ t.toInt)
    (hlo : 0 ≤ nodeId.toInt) (hhi : nodeId.toInt < 4096) :
    ((t &&& timeMask) ||| nodeId.toInt64).toInt = t.toInt / 4096 * 4096 + nodeId.toInt := by
  have hbits := toNat_newCuid t hlo hhi
  have hclock := toNat_of_nonneg ht
  have htop := t.toInt_lt
  rw [toInt_of_toNat (by omega), hbits, hclock]

theorem toInt_newCuid_emod (t : Int64) {nodeId : Int16}
    (hlo : 0 ≤ nodeId.toInt) (hhi : nodeId.toInt < 4096) :
    ((t &&& timeMask) ||| nodeId.toInt64).toInt % 4096 = nodeId.toInt := by
  have hbits := toNat_newCuid t hlo hhi
  rw [toInt_eq_bmod]
  simp only [Int.bmod]
  omega

theorem toInt_add_timeStep_emod (x : Int64) : (x + timeStep).toInt % 4096 = x.toInt % 4096 := by
  have hstep : timeStep.toInt = 4096 := by decide
  rw [Int64.toInt_add, hstep]
  simp only [Int.bmod]
  omega

end Libtvnet
