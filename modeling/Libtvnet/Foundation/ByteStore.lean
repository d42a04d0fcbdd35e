import Mathlib.Data.List.Induction
import Mathlib.Logic.Function.Basic

/-!
# Stores into bytes of memory

A memory gives a byte for each address.  What a list of stores leaves behind
at an address is the last byte that is stored there, or what was there before.
-/

namespace Libtvnet.Foundation

abbrev Memory := Nat → UInt8

structure Store where
  address : Nat
  byte : UInt8
  deriving DecidableEq

structure Span where
  start : Nat
  size : Nat

def Span.Contains (span : Span) (address : Nat) : Prop :=
  span.start ≤ address ∧ address < span.start + span.size

instance (span : Span) (address : Nat) : Decidable (span.Contains address) :=
  inferInstanceAs (Decidable (_ ∧ _))

namespace Memory

def write (m : Memory) (stores : List Store) : Memory :=
  stores.foldl (fun m store => Function.update m store.address store.byte) m

def lastStored (stores : List Store) (address : Nat) : Option UInt8 :=
  (stores.reverse.find? fun store => store.address = address).map Store.byte

def AgreesOn (span : Span) (m m' : Memory) : Prop :=
  ∀ address, span.Contains address → m' address = m address

/-! ## Writing -/

theorem write_append (m : Memory) (first second : List Store) :
    m.write (first ++ second) = (m.write first).write second :=
  List.foldl_append

theorem write_apply (m : Memory) (stores : List Store) (address : Nat) :
    m.write stores address = (lastStored stores address).getD (m address) := by
  induction stores using List.reverseRecOn with
  | nil => rfl
  | append_singleton stores store ih =>
      rw [write_append]
      by_cases heq : store.address = address
      · obtain rfl := heq
        simp [write, lastStored]
      · have hkept : (m.write stores).write [store] address = m.write stores address :=
          Function.update_of_ne (Ne.symm heq) _ _
        rw [hkept, ih]
        simp [lastStored, heq]

theorem mem_lastStored {stores : List Store} {address : Nat} {byte : UInt8}
    (h : byte ∈ lastStored stores address) :
    ∃ store ∈ stores, store.address = address ∧ store.byte = byte := by
  obtain ⟨store, hfound, hbyte⟩ := Option.map_eq_some_iff.mp h
  exact ⟨store, List.mem_reverse.mp (List.mem_of_find?_eq_some hfound),
    of_decide_eq_true (List.find?_some hfound :), hbyte⟩

theorem exists_lastStored {stores : List Store} {store : Store} (h : store ∈ stores) :
    ∃ byte, byte ∈ lastStored stores store.address := by
  have hfound : (stores.reverse.find? fun s => s.address = store.address).isSome := by
    simpa using ⟨store, h, rfl⟩
  obtain ⟨found, hfound⟩ := Option.isSome_iff_exists.mp hfound
  exact ⟨found.byte, Option.map_eq_some_iff.mpr ⟨found, hfound, rfl⟩⟩

theorem agreesOn_write_iff {span : Span} {m : Memory} {stores : List Store} :
    AgreesOn span m (m.write stores) ↔
      ∀ address, span.Contains address → ∀ byte ∈ lastStored stores address,
        byte = m address := by
  constructor
  · intro h address haddress byte hbyte
    have hsame := h address haddress
    rw [write_apply, Option.mem_def.mp hbyte] at hsame
    exact hsame
  · intro h address haddress
    rw [write_apply]
    cases hbyte : lastStored stores address with
    | none => rfl
    | some byte => exact h address haddress byte hbyte

/-! ## Consecutive bytes -/

def storesAt : Nat → List UInt8 → List Store
  | _, [] => []
  | start, byte :: bytes => ⟨start, byte⟩ :: storesAt (start + 1) bytes

def bytesAt (m : Memory) (start : Nat) : Nat → List UInt8
  | 0 => []
  | n + 1 => m start :: bytesAt m (start + 1) n

theorem lt_of_mem_storesAt {start : Nat} {bytes : List UInt8} {store : Store}
    (h : store ∈ storesAt start bytes) :
    start ≤ store.address ∧ store.address < start + bytes.length := by
  induction bytes generalizing start with
  | nil => cases h
  | cons byte bytes ih =>
      rcases List.mem_cons.mp h with rfl | hrest
      · simp
      · have hbounds := ih hrest
        rw [List.length_cons]
        omega

theorem write_eq_of_forall_ne {m : Memory} {stores : List Store} {address : Nat}
    (h : ∀ store ∈ stores, store.address ≠ address) : m.write stores address = m address := by
  have hnone : lastStored stores address = none := by
    simpa [lastStored] using h
  rw [write_apply, hnone, Option.getD_none]

theorem bytesAt_write_storesAt (m : Memory) (start : Nat) (bytes : List UInt8) :
    (m.write (storesAt start bytes)).bytesAt start bytes.length = bytes := by
  induction bytes generalizing m start with
  | nil => rfl
  | cons byte bytes ih =>
      have hfirst : m.write (storesAt start (byte :: bytes)) start = byte := by
        change Memory.write (Function.update m start byte) (storesAt (start + 1) bytes) start = _
        rw [write_eq_of_forall_ne, Function.update_self]
        intro store hstore
        have hbounds := lt_of_mem_storesAt hstore
        omega
      rw [List.length_cons, bytesAt, hfirst]
      congr 1
      exact ih (Function.update m start byte) (start + 1)

theorem AgreesOn.bytesAt {span : Span} {m m' : Memory} (h : AgreesOn span m m') {start n : Nat}
    (hlo : span.start ≤ start) (hhi : start + n ≤ span.start + span.size) :
    m'.bytesAt start n = m.bytesAt start n := by
  induction n generalizing start with
  | zero => rfl
  | succ n ih =>
      have hfirst := h start ⟨hlo, by omega⟩
      have hrest : m'.bytesAt (start + 1) n = m.bytesAt (start + 1) n :=
        ih (by omega) (by omega)
      rw [Memory.bytesAt, Memory.bytesAt, hfirst, hrest]

end Memory

end Libtvnet.Foundation
