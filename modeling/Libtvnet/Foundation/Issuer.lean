import Mathlib.Logic.Relation
import Mathlib.Order.Basic
import Mathlib.Tactic

/-!
# Cells that only grow

A cell whose value only grows, and that hands out each value it takes.  What
it has handed out is strictly increasing, so no value is handed out twice.
-/

namespace Libtvnet.Foundation

structure Issuer (α : Type) where
  cell : α
  issued : List α

namespace Issuer

variable {α : Type} [LinearOrder α]

inductive Step : Issuer α → Issuer α → Prop
  | issue {s : Issuer α} {v : α} : s.cell < v → Step s ⟨v, v :: s.issued⟩

structure Sound (s : Issuer α) : Prop where
  decreasing : s.issued.Pairwise (· > ·)
  le_cell : ∀ v ∈ s.issued, v ≤ s.cell

theorem sound_nil (v : α) : Sound ⟨v, []⟩ := ⟨List.Pairwise.nil, by simp⟩

theorem Step.sound {s s' : Issuer α} (hstep : Step s s') (h : Sound s) : Sound s' := by
  cases hstep with
  | issue hlt =>
      constructor
      · exact List.pairwise_cons.mpr
          ⟨fun v hv => lt_of_le_of_lt (h.le_cell v hv) hlt, h.decreasing⟩
      · intro v hv
        rcases List.mem_cons.mp hv with rfl | hold
        · exact le_refl _
        · exact (h.le_cell v hold).trans hlt.le

theorem run_sound {s s' : Issuer α} (hrun : Relation.ReflTransGen Step s s') (h : Sound s) :
    Sound s' := by
  induction hrun with
  | refl => exact h
  | tail _ hstep ih => exact hstep.sound ih

end Issuer

end Libtvnet.Foundation
