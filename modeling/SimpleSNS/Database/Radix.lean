import Mathlib.Algebra.Order.Ring.Nat
import Mathlib.Data.List.Lex
import Mathlib.Order.Fin.Basic
import Mathlib.Tactic.Ring

/-!
Numerals, the most significant digit first. Among numerals of one length the order of the digits is
the order of the numbers, and no number has two of them.
-/

namespace Radix

variable {b : Nat} {xs ys : List (Fin b)}

/-- The number that the digits denote. -/
def value : List (Fin b) → Nat
  | [] => 0
  | d :: rest => d * b ^ rest.length + value rest

theorem value_lt (xs : List (Fin b)) : value xs < b ^ xs.length := by
  induction xs with
  | nil => simp [value]
  | cons d rest ih =>
    rw [value, List.length_cons, Nat.pow_succ, Nat.mul_comm _ b]
    calc d * b ^ rest.length + value rest
      _ < d * b ^ rest.length + b ^ rest.length := by omega
      _ = (d + 1) * b ^ rest.length := (Nat.succ_mul _ _).symm
      _ ≤ b * b ^ rest.length := Nat.mul_le_mul_right _ d.isLt

theorem value_append (xs ys : List (Fin b)) :
    value (xs ++ ys) = value xs * b ^ ys.length + value ys := by
  induction xs with
  | nil => simp [value]
  | cons d rest ih =>
    rw [List.cons_append, value, value, ih, List.length_append, Nat.pow_add]
    ring

theorem value_concat (xs : List (Fin b)) (d : Fin b) : value (xs ++ [d]) = value xs * b + d := by
  simp [value_append, value]

theorem value_cons_lt {d e : Fin b} (below : d < e) (same : xs.length = ys.length) :
    value (d :: xs) < value (e :: ys) := by
  rw [value, value, same]
  calc d * b ^ ys.length + value xs
    _ < d * b ^ ys.length + b ^ ys.length := by
      have small := value_lt xs
      rw [same] at small
      omega
    _ = (d + 1) * b ^ ys.length := (Nat.succ_mul _ _).symm
    _ ≤ e * b ^ ys.length := Nat.mul_le_mul_right _ below
    _ ≤ e * b ^ ys.length + value ys := Nat.le_add_right _ _

theorem lt_iff (same : xs.length = ys.length) : xs < ys ↔ value xs < value ys := by
  induction xs generalizing ys with
  | nil =>
    obtain rfl := List.length_eq_zero_iff.mp same.symm
    simp [value]
  | cons d xs ih =>
    cases ys with
    | nil => cases same
    | cons e ys =>
      have shorter : xs.length = ys.length := Nat.succ.inj same
      rw [List.cons_lt_cons_iff, ih shorter]
      rcases lt_trichotomy d e with below | rfl | above
      · exact iff_of_true (Or.inl below) (value_cons_lt below shorter)
      · simp [value, shorter]
      · have greater := value_cons_lt above shorter.symm
        refine iff_of_false ?_ (by omega)
        rintro (below | ⟨rfl, _⟩)
        · exact absurd below (not_lt.mpr above.le)
        · exact absurd above (lt_irrefl d)

theorem value_inj (same : xs.length = ys.length) (equal : value xs = value ys) : xs = ys := by
  rcases lt_trichotomy xs ys with below | rfl | above
  · have smaller := (lt_iff same).mp below
    omega
  · rfl
  · have smaller := (lt_iff same.symm).mp above
    omega

theorem value_eq_zero : value xs = 0 ↔ ∀ d ∈ xs, d.val = 0 := by
  induction xs with
  | nil => simp [value]
  | cons d rest ih =>
    have positive : 0 < b := d.pos
    simp [value, ih, Nat.pos_iff_ne_zero.mp positive]

end Radix
