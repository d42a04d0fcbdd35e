import Mathlib

/-!
# Association lists

Entries that are set one after the other, where a comparison of keys that need
not be an equivalence decides which entry is replaced.
-/

namespace Libtvnet.Foundation

variable {Key Value : Type} (same : Key → Key → Bool)

/-- The first entry with the same key gets the value, or a new one behind all of them. -/
def setEntry : List (Key × Value) → Key → Value → List (Key × Value)
  | [], key, value => [(key, value)]
  | entry :: entries, key, value =>
      if same entry.1 key then (entry.1, value) :: entries
      else entry :: setEntry entries key value

def Absent (entries : List (Key × Value)) (key : Key) : Prop :=
  ∀ entry ∈ entries, same entry.1 key = false

def entriesTotal (weight : Value → Nat) (entries : List (Key × Value)) : Nat :=
  (entries.map fun entry => weight entry.2 + 1).sum

variable {same}

theorem setEntry_of_absent {entries : List (Key × Value)} {key : Key} (value : Value)
    (h : Absent same entries key) :
    setEntry same entries key value = entries ++ [(key, value)] := by
  induction entries with
  | nil => rfl
  | cons entry entries ih =>
      obtain ⟨hfirst, hrest⟩ := List.forall_mem_cons.mp h
      rw [setEntry, hfirst, ih hrest]
      rfl

theorem length_setEntry_le (entries : List (Key × Value)) (key : Key) (value : Value) :
    (setEntry same entries key value).length ≤ entries.length + 1 := by
  induction entries with
  | nil => simp [setEntry]
  | cons entry entries ih =>
      rw [setEntry]
      split
      · simp
      · simpa using ih

theorem mem_setEntry {entries : List (Key × Value)} {key : Key} {value : Value}
    {entry : Key × Value} (h : entry ∈ setEntry same entries key value) :
    (entry.1 = key ∨ entry.1 ∈ entries.map Prod.fst) ∧
      (entry.2 = value ∨ entry.2 ∈ entries.map Prod.snd) := by
  induction entries with
  | nil =>
      obtain rfl := List.mem_singleton.mp h
      exact ⟨.inl rfl, .inl rfl⟩
  | cons first entries ih =>
      rw [setEntry] at h
      split at h
      · rcases List.mem_cons.mp h with rfl | hrest
        · exact ⟨.inr List.mem_cons_self, .inl rfl⟩
        · exact ⟨.inr (List.mem_cons_of_mem _ (List.mem_map_of_mem hrest)),
            .inr (List.mem_cons_of_mem _ (List.mem_map_of_mem hrest))⟩
      · rcases List.mem_cons.mp h with rfl | hrest
        · exact ⟨.inr List.mem_cons_self, .inr List.mem_cons_self⟩
        · obtain ⟨hkey, hvalue⟩ := ih hrest
          exact ⟨hkey.imp_right (List.mem_cons_of_mem _),
            hvalue.imp_right (List.mem_cons_of_mem _)⟩

theorem entriesTotal_of_perm {weight : Value → Nat} {xs ys : List (Key × Value)}
    (h : xs.Perm ys) : entriesTotal weight xs = entriesTotal weight ys :=
  (h.map _).sum_nat

theorem entriesTotal_setEntry (weight : Value → Nat) (entries : List (Key × Value)) (key : Key)
    (value : Value) :
    (Absent same entries key ∧ entriesTotal weight (setEntry same entries key value) =
        entriesTotal weight entries + (weight value + 1)) ∨
      entriesTotal weight (setEntry same entries key value) <
        entriesTotal weight entries + (weight value + 1) := by
  induction entries with
  | nil => exact .inl ⟨nofun, by simp [setEntry, entriesTotal]⟩
  | cons entry entries ih =>
      rw [setEntry]
      cases hsame : same entry.1 key with
      | true =>
          right
          simp only [if_true, entriesTotal, List.map_cons, List.sum_cons]
          omega
      | false =>
          simp only [Bool.false_eq_true, if_false, entriesTotal, List.map_cons,
            List.sum_cons] at ih ⊢
          rcases ih with ⟨habsent, hsum⟩ | hlt
          · exact .inl ⟨List.forall_mem_cons.mpr ⟨hsame, habsent⟩, by omega⟩
          · exact .inr (by omega)

end Libtvnet.Foundation
