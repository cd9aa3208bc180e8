import Mathlib.Data.Nat.Basic
import Mathlib.Tactic.Ring
import Mathlib.Tactic.Linarith

/-!
# Unsigned 128-bit fixed-point numbers
-/

namespace Cyrux

structure Fixed (f : ℕ) where
  bits : ℕ
  bits_lt : bits < 2 ^ 128
deriving DecidableEq

namespace Fixed

variable {f g : ℕ}

theorem ext_bits {x y : Fixed f} (h : x.bits = y.bits) : x = y := by
  cases x
  simp_all

instance : LE (Fixed f) := ⟨fun x y => x.bits ≤ y.bits⟩

instance (x y : Fixed f) : Decidable (x ≤ y) := inferInstanceAs (Decidable (x.bits ≤ y.bits))

def ofBits? (n : ℕ) : Option (Fixed f) :=
  if h : n < 2 ^ 128 then some ⟨n, h⟩ else none

def wrap (n : ℕ) : Fixed f := ⟨n % 2 ^ 128, Nat.mod_lt _ (by positivity)⟩

def zero : Fixed f := ⟨0, by positivity⟩

def fromNum? (n : ℕ) : Option (Fixed f) := ofBits? (n * 2 ^ f)

def convert? (x : Fixed f) : Option (Fixed g) := ofBits? (x.bits * 2 ^ g / 2 ^ f)

def toNum (x : Fixed f) : ℕ := x.bits / 2 ^ f

def mulInt? (x : Fixed f) (n : ℕ) : Option (Fixed f) := ofBits? (x.bits * n)

def divInt? (x : Fixed f) (n : ℕ) : Option (Fixed f) :=
  if n = 0 then none else ofBits? (x.bits / n)

def add (x y : Fixed f) : Fixed f := wrap (x.bits + y.bits)

def sub (x y : Fixed f) : Fixed f := wrap (x.bits + 2 ^ 128 - y.bits)

def mul (x y : Fixed f) : Fixed f := wrap (x.bits * y.bits / 2 ^ f)

def div? (x y : Fixed f) : Option (Fixed f) :=
  if y.bits = 0 then none else some (wrap (x.bits * 2 ^ f / y.bits))

def checkedDiv (x y : Fixed f) : Option (Fixed f) :=
  if y.bits = 0 then none else ofBits? (x.bits * 2 ^ f / y.bits)

theorem ofBits?_eq_some {n : ℕ} {x : Fixed f} : ofBits? n = some x ↔ x.bits = n := by
  unfold ofBits?
  split_ifs with h
  · constructor
    · rintro ⟨⟩
      rfl
    · rintro rfl
      rfl
  · constructor
    · rintro ⟨⟩
    · rintro rfl
      exact absurd x.bits_lt h

theorem ofBits?_eq_none {n : ℕ} : (ofBits? n : Option (Fixed f)) = none ↔ 2 ^ 128 ≤ n := by
  unfold ofBits?
  split_ifs with h
  · exact ⟨False.elim, fun hn => absurd h (Nat.not_lt.2 hn)⟩
  · exact ⟨fun _ => Nat.not_lt.1 h, fun _ => rfl⟩

theorem wrap_bits_of_lt {n : ℕ} (h : n < 2 ^ 128) : (wrap n : Fixed f).bits = n :=
  Nat.mod_eq_of_lt h

theorem add_bits {x y : Fixed f} (h : x.bits + y.bits < 2 ^ 128) :
    (x.add y).bits = x.bits + y.bits := wrap_bits_of_lt h

theorem sub_bits {x y : Fixed f} (h : y ≤ x) : (x.sub y).bits = x.bits - y.bits := by
  have le : y.bits ≤ x.bits := h
  have lt := x.bits_lt
  show (x.bits + 2 ^ 128 - y.bits) % 2 ^ 128 = x.bits - y.bits
  rw [Nat.sub_add_comm le, Nat.add_mod_right, Nat.mod_eq_of_lt (by omega)]

theorem mul_bits_le (x y : Fixed f) : (x.mul y).bits ≤ x.bits * y.bits / 2 ^ f := Nat.mod_le _ _

theorem checkedDiv_eq_some {x y q : Fixed f} :
    checkedDiv x y = some q ↔ y.bits ≠ 0 ∧ q.bits = x.bits * 2 ^ f / y.bits := by
  unfold checkedDiv
  split_ifs with h
  · simp [h]
  · simp [h, ofBits?_eq_some]

theorem div?_eq_some {x y q : Fixed f} :
    div? x y = some q ↔ y.bits ≠ 0 ∧ wrap (x.bits * 2 ^ f / y.bits) = q := by
  unfold div?
  split_ifs with h <;> simp [h]

end Fixed

end Cyrux
