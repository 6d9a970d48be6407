import Mathlib.Order.Basic

/-!
# Arithmetic below a bound

Checked and saturating addition on the naturals up to a largest value `top`.
A fixed-width unsigned integer is the case `top = 2 ^ w - 1`. The operations
stay on `Nat`, so that linear arithmetic decides the goals they leave.
-/

namespace Bounded

/-- Addition that fails past `top`. -/
def checkedAdd (top a b : Nat) : Option Nat :=
  if a + b ≤ top then some (a + b) else none

/-- Subtraction that fails below zero. -/
def checkedSub (a b : Nat) : Option Nat :=
  if b ≤ a then some (a - b) else none

/-- Addition that stops at `top`. -/
def saturatingAdd (top a b : Nat) : Nat := min (a + b) top

@[simp] theorem checkedAdd_eq_some {top a b c : Nat} :
    checkedAdd top a b = some c ↔ a + b = c ∧ c ≤ top := by
  unfold checkedAdd
  split
  · rename_i h
    constructor
    · intro hc
      obtain rfl := Option.some.inj hc
      exact ⟨rfl, h⟩
    · rintro ⟨rfl, -⟩
      rfl
  · rename_i h
    constructor
    · intro hc
      cases hc
    · rintro ⟨rfl, hle⟩
      exact absurd hle h

@[simp] theorem checkedAdd_eq_none {top a b : Nat} :
    checkedAdd top a b = none ↔ top < a + b := by
  unfold checkedAdd
  split <;> simp <;> omega

@[simp] theorem checkedSub_eq_some {a b c : Nat} :
    checkedSub a b = some c ↔ b ≤ a ∧ a - b = c := by
  unfold checkedSub
  split <;> simp <;> omega

theorem saturatingAdd_of_le {top a b : Nat} (h : a + b ≤ top) :
    saturatingAdd top a b = a + b := Nat.min_eq_left h

theorem saturatingAdd_le_add (top a b : Nat) : saturatingAdd top a b ≤ a + b :=
  Nat.min_le_left _ _

end Bounded
