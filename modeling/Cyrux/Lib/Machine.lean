import Mathlib

/-!
# Machine arithmetic
-/

namespace Cyrux.Unsigned

variable {w a b c : ℕ}

def checkedAdd (w a b : ℕ) : Option ℕ := if a + b < 2 ^ w then some (a + b) else none

def checkedMul (w a b : ℕ) : Option ℕ := if a * b < 2 ^ w then some (a * b) else none

def saturatingAdd (w a b : ℕ) : ℕ := min (a + b) (2 ^ w - 1)

def saturatingMul (w a b : ℕ) : ℕ := min (a * b) (2 ^ w - 1)

def wrappingAdd (w a b : ℕ) : ℕ := (a + b) % 2 ^ w

def wrappingSub (w a b : ℕ) : ℕ := (a + 2 ^ w - b) % 2 ^ w

theorem wrappingAdd_eq (h : a + b < 2 ^ w) : wrappingAdd w a b = a + b := Nat.mod_eq_of_lt h

theorem wrappingSub_eq (h : b ≤ a) (ha : a < 2 ^ w) : wrappingSub w a b = a - b := by
  unfold wrappingSub
  rw [Nat.sub_add_comm h, Nat.add_mod_right, Nat.mod_eq_of_lt]
  exact (Nat.sub_le _ _).trans_lt ha

theorem eq_of_checkedAdd (h : checkedAdd w a b = some c) : c = a + b := by
  unfold checkedAdd at h
  split at h
  · exact (Option.some.inj h).symm
  · cases h

theorem eq_of_checkedMul (h : checkedMul w a b = some c) : c = a * b := by
  unfold checkedMul at h
  split at h
  · exact (Option.some.inj h).symm
  · cases h

theorem saturatingAdd_le : saturatingAdd w a b ≤ a + b := min_le_left _ _

theorem saturatingMul_le : saturatingMul w a b ≤ a * b := min_le_left _ _

end Cyrux.Unsigned

namespace Cyrux.Signed

variable {w : ℕ} {a b : ℤ}

def InRange (w : ℕ) (a : ℤ) : Prop := -(2 ^ w : ℕ) ≤ a * 2 ∧ a * 2 < (2 ^ w : ℕ)

instance (w : ℕ) (a : ℤ) : Decidable (InRange w a) :=
  inferInstanceAs (Decidable (-(2 ^ w : ℕ) ≤ a * 2 ∧ a * 2 < (2 ^ w : ℕ)))

def wrappingAdd (w : ℕ) (a b : ℤ) : ℤ := (a + b).bmod (2 ^ w)

theorem wrappingAdd_eq (h : InRange w (a + b)) : wrappingAdd w a b = a + b :=
  Int.bmod_eq_of_le_mul_two h.1 h.2

end Cyrux.Signed
