import Mathlib.Data.List.Basic
import Mathlib.Tactic

/-!
# Queues of slots

A slot is reserved at the end of the queue, filled at some later time, and
taken at the front when it is full.  Slots have numbers in the order in which
they were reserved.
-/

namespace Libtvnet.Foundation

structure SlotQueue (α : Type) where
  taken : Nat
  slots : List (Option α)

namespace SlotQueue

variable {α : Type} (q : SlotQueue α)

def empty : SlotQueue α := ⟨0, []⟩

def next : Nat := q.taken + q.slots.length

def at? (t : Nat) : Option (Option α) :=
  if t < q.taken then none else q.slots[t - q.taken]?

def reserve : SlotQueue α := { q with slots := q.slots ++ [none] }

def fill (t : Nat) (a : α) : SlotQueue α :=
  if t < q.taken then q else { q with slots := q.slots.set (t - q.taken) (some a) }

def oldest : Option (Nat × α) := q.slots.head?.join.map fun a => (q.taken, a)

def take : SlotQueue α := ⟨q.taken + 1, q.slots.tail⟩

variable {q}

@[simp] theorem taken_reserve : q.reserve.taken = q.taken := rfl

@[simp] theorem taken_take : q.take.taken = q.taken + 1 := rfl

@[simp] theorem taken_fill (t : Nat) (a : α) : (q.fill t a).taken = q.taken := by
  unfold fill
  split <;> rfl

@[simp] theorem next_reserve : q.reserve.next = q.next + 1 := by
  simp [next, reserve, Nat.add_assoc]

@[simp] theorem next_fill (t : Nat) (a : α) : (q.fill t a).next = q.next := by
  unfold fill
  split
  · rfl
  · simp [next]

theorem lt_next_of_at? {t : Nat} {content : Option α} (h : q.at? t = some content) :
    q.taken ≤ t ∧ t < q.next := by
  unfold at? at h
  split at h
  case isTrue => cases h
  case isFalse hle =>
    obtain ⟨hlt, -⟩ := List.getElem?_eq_some_iff.mp h
    unfold next
    omega

theorem at?_reserve (t : Nat) :
    q.reserve.at? t = if t = q.next then some none else q.at? t := by
  unfold at? next reserve
  dsimp only
  by_cases hlt : t < q.taken
  · have hne : t ≠ q.taken + q.slots.length := by omega
    simp [hlt, hne]
  · rw [if_neg hlt, if_neg hlt]
    split
    case isTrue heq => simp [heq]
    case isFalse hne =>
      by_cases hold : t - q.taken < q.slots.length
      · rw [List.getElem?_append_left hold]
      · rw [List.getElem?_eq_none (by rw [List.length_append, List.length_singleton]; omega),
          List.getElem?_eq_none (by omega)]

theorem at?_fill {t : Nat} {content : Option α} (h : q.at? t = some content) (a : α)
    (t' : Nat) : (q.fill t a).at? t' = if t' = t then some (some a) else q.at? t' := by
  obtain ⟨hle, hlt⟩ := lt_next_of_at? h
  unfold next at hlt
  unfold fill at?
  rw [if_neg (Nat.not_lt.mpr hle)]
  by_cases hbefore : t' < q.taken
  · have hne : t' ≠ t := by omega
    simp [hbefore, hne]
  · simp only [if_neg hbefore, List.getElem?_set]
    by_cases heq : t' = t
    · obtain rfl := heq
      rw [if_pos rfl, if_pos rfl, if_pos (by omega)]
    · rw [if_neg (by omega), if_neg heq]

theorem at?_take (t : Nat) : q.take.at? t = if t = q.taken then none else q.at? t := by
  unfold at? take
  dsimp only
  by_cases hlt : t < q.taken
  · have hne : t ≠ q.taken := by omega
    have hnext : t < q.taken + 1 := by omega
    simp [hlt, hne, hnext]
  · by_cases heq : t = q.taken
    · simp [heq]
    · have hnext : ¬ t < q.taken + 1 := by omega
      rw [if_neg hnext, if_neg heq, if_neg hlt, List.getElem?_tail]
      congr 1
      omega

theorem at?_of_oldest {t : Nat} {a : α} (h : q.oldest = some (t, a)) :
    t = q.taken ∧ q.at? t = some (some a) ∧ q.take.next = q.next := by
  obtain ⟨b, hfront, hpair⟩ := Option.map_eq_some_iff.mp h
  obtain ⟨rfl, rfl⟩ := Prod.mk.inj hpair
  cases hslots : q.slots with
  | nil => simp [hslots] at hfront
  | cons content slots =>
      have hcontent : content = some b := by simpa [hslots] using hfront
      simp [at?, hslots, hcontent, next, take]
      omega

theorem oldest_eq_none_iff :
    q.oldest = none ↔ q.taken = q.next ∨ q.at? q.taken = some none := by
  cases hslots : q.slots with
  | nil => simp [oldest, next, hslots]
  | cons content slots =>
      have hne : q.taken ≠ q.next := by simp [next, hslots]
      cases content <;> simp [oldest, at?, hslots, hne]

end SlotQueue

end Libtvnet.Foundation
