import Mathlib.Data.List.Basic

/-!
# Histories of calls

What calls have returned, the last one first, where each entry says how many
entries there were when its call started.  Whatever holds between an entry and
all that stand behind it then holds in real time.
-/

namespace Libtvnet.Foundation

variable {α : Type} {seen : α → Nat}

def Witnessed (seen : α → Nat) : List α → Prop
  | [] => True
  | entry :: older => seen entry ≤ older.length ∧ Witnessed seen older

/-- The entries that were there when the call of an entry started. -/
def before (seen : α → Nat) (history : List α) (entry : α) : List α :=
  history.reverse.take (seen entry)

theorem before_cons_of_le {first entry : α} {older : List α} (h : seen entry ≤ older.length) :
    before seen (first :: older) entry = before seen older entry := by
  rw [before, List.reverse_cons, List.take_append_of_le_length (by simpa using h)]
  rfl

theorem Witnessed.le_length {history : List α} (h : Witnessed seen history) {entry : α}
    (hentry : entry ∈ history) : seen entry ≤ history.length := by
  induction history with
  | nil => cases hentry
  | cons first older ih =>
      rw [List.length_cons]
      cases hentry with
      | head => exact Nat.le_succ_of_le h.1
      | tail _ hold => exact Nat.le_succ_of_le (ih h.2 hold)

theorem Witnessed.real_time {history : List α} (h : Witnessed seen history)
    {R : α → α → Prop} (hpairwise : history.Pairwise R) {entry : α}
    (hentry : entry ∈ history) :
    ∀ earlier ∈ before seen history entry, R entry earlier := by
  induction history with
  | nil => cases hentry
  | cons first older ih =>
      rw [List.pairwise_cons] at hpairwise
      cases hentry with
      | head =>
          rw [before_cons_of_le h.1]
          intro earlier hearlier
          exact hpairwise.1 earlier (List.mem_reverse.mp (List.mem_of_mem_take hearlier))
      | tail _ hold =>
          rw [before_cons_of_le (h.2.le_length hold)]
          exact ih h.2 hpairwise.2 hold

end Libtvnet.Foundation
