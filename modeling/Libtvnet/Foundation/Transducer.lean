import Mathlib.Algebra.BigOperators.Group.List.Basic
import Mathlib.Tactic

/-!
# Transducers

A machine that reads symbols one after another and writes some symbols at each
of them.  How much it writes is bounded by credit: a step is paid for by the
symbol it reads or by what earlier steps have saved.
-/

namespace Libtvnet.Foundation

structure Transducer (σ α β : Type) where
  step : σ → α → σ × List β

namespace Transducer

variable {σ α β : Type} (T : Transducer σ α β)

def state (s : σ) (xs : List α) : σ := xs.foldl (fun s x => (T.step s x).1) s

def output : σ → List α → List β
  | _, [] => []
  | s, x :: xs => (T.step s x).2 ++ output (T.step s x).1 xs

@[simp] theorem state_nil (s : σ) : T.state s [] = s := rfl

@[simp] theorem state_cons (s : σ) (x : α) (xs : List α) :
    T.state s (x :: xs) = T.state (T.step s x).1 xs :=
  rfl

theorem state_append (s : σ) (xs ys : List α) :
    T.state s (xs ++ ys) = T.state (T.state s xs) ys :=
  List.foldl_append

@[simp] theorem output_nil (s : σ) : T.output s [] = [] := rfl

@[simp] theorem output_cons (s : σ) (x : α) (xs : List α) :
    T.output s (x :: xs) = (T.step s x).2 ++ T.output (T.step s x).1 xs :=
  rfl

theorem output_append (s : σ) (xs ys : List α) :
    T.output s (xs ++ ys) = T.output s xs ++ T.output (T.state s xs) ys := by
  induction xs generalizing s with
  | nil => rfl
  | cons x xs ih =>
      rw [List.cons_append, output_cons, output_cons, ih, state_cons, List.append_assoc]

theorem mem_output {P : β → Prop} (hstep : ∀ s x, ∀ y ∈ (T.step s x).2, P y) {s : σ}
    {xs : List α} {y : β} (hy : y ∈ T.output s xs) : P y := by
  induction xs generalizing s with
  | nil => simp at hy
  | cons x xs ih =>
      rw [output_cons, List.mem_append] at hy
      cases hy with
      | inl hfirst => exact hstep s x y hfirst
      | inr hrest => exact ih hrest

theorem length_output_le {k : Nat} (credit : σ → Nat) (price : α → Nat)
    (hstep : ∀ s x, k * (T.step s x).2.length + credit (T.step s x).1 ≤ credit s + price x)
    (s : σ) (xs : List α) :
    k * (T.output s xs).length + credit (T.state s xs) ≤ credit s + (xs.map price).sum := by
  induction xs generalizing s with
  | nil => simp
  | cons x xs ih =>
      have hfirst := hstep s x
      have hrest := ih (T.step s x).1
      rw [output_cons, state_cons, List.length_append, Nat.mul_add, List.map_cons, List.sum_cons]
      omega

end Transducer

end Libtvnet.Foundation
