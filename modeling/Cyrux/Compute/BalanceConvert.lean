import Cyrux.Lib.FixedPoint
import Mathlib.Algebra.Order.Field.Rat

/-!
# Balances as fixed-point numbers

`pallets/cyrux/src/utils/balance_convert.rs`
-/

namespace Cyrux

abbrev FixedPoint := Fixed 64

def PHA : ℕ := 1000000000000

def toFixed (x : ℕ) : Option FixedPoint := do
  let v : Fixed 48 ← Fixed.fromNum? x
  let q ← v.divInt? PHA
  q.convert?

def fromFixed (v : FixedPoint) : Option ℕ := do
  let u : Fixed 48 ← v.convert?
  let m ← u.mulInt? PHA
  pure m.toNum

namespace Balance

def mul (x : ℕ) (y : FixedPoint) : Option ℕ := do
  let v ← toFixed x
  fromFixed (v.mul y)

def div (x : ℕ) (y : FixedPoint) : Option ℕ := do
  let v ← toFixed x
  let q ← v.div? y
  fromFixed q

end Balance

/-! ## Truncated scalings -/

def scale (x : ℕ) : ℕ := x * 2 ^ 48 / PHA

def unscale (u : ℕ) : ℕ := u * PHA / 2 ^ 48

theorem PHA_pos : 0 < PHA := by decide

theorem scale_mono {x y : ℕ} (h : x ≤ y) : scale x ≤ scale y :=
  Nat.div_le_div_right (Nat.mul_le_mul_right _ h)

theorem unscale_mono {u v : ℕ} (h : u ≤ v) : unscale u ≤ unscale v :=
  Nat.div_le_div_right (Nat.mul_le_mul_right _ h)

theorem scale_add_le (x y : ℕ) : scale x + scale y ≤ scale (x + y) := by
  unfold scale
  rw [Nat.add_mul]
  exact Nat.div_add_div_le_add_div

theorem unscale_add_le (u v : ℕ) : unscale u + unscale v ≤ unscale (u + v) := by
  unfold unscale
  rw [Nat.add_mul]
  exact Nat.div_add_div_le_add_div

theorem scale_mul_le (x : ℕ) : scale x * PHA ≤ x * 2 ^ 48 := Nat.div_mul_le_self _ _

theorem lt_scale_succ_mul (x : ℕ) : x * 2 ^ 48 < (scale x + 1) * PHA := by
  have h := Nat.lt_mul_div_succ (x * 2 ^ 48) PHA_pos
  rwa [Nat.mul_comm PHA] at h

theorem unscale_mul_le (u : ℕ) : unscale u * 2 ^ 48 ≤ u * PHA := Nat.div_mul_le_self _ _

theorem unscale_scale_le (x : ℕ) : unscale (scale x) ≤ x := by
  have h₁ := unscale_mul_le (scale x)
  have h₂ := scale_mul_le x
  omega

theorem scale_eq_zero {x : ℕ} : scale x = 0 ↔ x = 0 := by
  unfold scale PHA
  omega

theorem scale_add_unscale_le (x u : ℕ) : scale (x + unscale u) ≤ scale x + u := by
  calc scale (x + unscale u) ≤ (x * 2 ^ 48 + u * PHA) / PHA := by
        apply Nat.div_le_div_right
        rw [Nat.add_mul]
        exact Nat.add_le_add_left (unscale_mul_le u) _
    _ = scale x + u := Nat.add_mul_div_right _ _ PHA_pos

theorem scale_le_scale_sub_unscale (x u : ℕ) : scale x ≤ scale (x - unscale u) + u := by
  calc scale x ≤ scale (x - unscale u + unscale u) := scale_mono (by omega)
    _ ≤ scale (x - unscale u) + u := scale_add_unscale_le _ _

/-! ## The conversions in closed form -/

theorem toFixed_eq_some {x : ℕ} {v : FixedPoint} :
    toFixed x = some v ↔ x < 2 ^ 80 ∧ v.bits = scale x * 2 ^ 16 := by
  have hs : scale x * 2 ^ 64 / 2 ^ 48 = scale x * 2 ^ 16 := by
    omega
  have hlt : x * 2 ^ 48 < 2 ^ 128 ↔ x < 2 ^ 80 := by
    rw [show (2 : ℕ) ^ 128 = 2 ^ 80 * 2 ^ 48 by norm_num]
    exact Nat.mul_lt_mul_right (by positivity)
  unfold toFixed
  simp only [Option.bind_eq_bind, Option.bind_eq_some_iff, Fixed.fromNum?, Fixed.divInt?,
    Fixed.convert?, Fixed.ofBits?_eq_some, PHA_pos.ne', if_false]
  constructor
  · rintro ⟨a, ha, b, hb, hv⟩
    have hx := a.bits_lt
    rw [ha] at hx
    rw [hb, ha] at hv
    exact ⟨hlt.1 hx, hv.trans hs⟩
  · rintro ⟨hx, hv⟩
    have hx := hlt.2 hx
    refine ⟨⟨_, hx⟩, rfl, ⟨_, lt_of_le_of_lt (Nat.div_le_self _ PHA) hx⟩, rfl, ?_⟩
    exact hv.trans hs.symm

theorem fromFixed_eq_some {v : FixedPoint} {b : ℕ} :
    fromFixed v = some b ↔ v.bits / 2 ^ 16 * PHA < 2 ^ 128 ∧ b = unscale (v.bits / 2 ^ 16) := by
  have hs : v.bits * 2 ^ 48 / 2 ^ 64 = v.bits / 2 ^ 16 := by omega
  unfold fromFixed
  simp only [Option.bind_eq_bind, Option.bind_eq_some_iff, Fixed.convert?, Fixed.mulInt?,
    Fixed.ofBits?_eq_some, hs, Option.pure_def, Option.some.injEq, Fixed.toNum]
  constructor
  · rintro ⟨a, ha, m, hm, rfl⟩
    have hlt := m.bits_lt
    rw [hm, ha] at hlt ⊢
    exact ⟨hlt, rfl⟩
  · rintro ⟨hlt, rfl⟩
    have hv : v.bits / 2 ^ 16 < 2 ^ 128 := lt_of_le_of_lt (Nat.div_le_self _ _) v.bits_lt
    exact ⟨⟨_, hv⟩, rfl, ⟨_, hlt⟩, rfl, rfl⟩

namespace Balance

theorem mul_le {x b : ℕ} {y : FixedPoint} (h : mul x y = some b) :
    b ≤ unscale (scale x * y.bits / 2 ^ 64) := by
  obtain ⟨v, hv, hb⟩ := Option.bind_eq_some_iff.1 h
  obtain ⟨-, hv⟩ := toFixed_eq_some.1 hv
  obtain ⟨-, rfl⟩ := fromFixed_eq_some.1 hb
  apply unscale_mono
  have hw : (Fixed.mul v y).bits ≤ v.bits * y.bits / 2 ^ 64 := Nat.mod_le _ _
  calc (Fixed.mul v y).bits / 2 ^ 16 ≤ v.bits * y.bits / 2 ^ 64 / 2 ^ 16 :=
        Nat.div_le_div_right hw
    _ = scale x * y.bits * 2 ^ 16 / (2 ^ 64 * 2 ^ 16) := by
        rw [hv, Nat.div_div_eq_div_mul, Nat.mul_right_comm]
    _ = scale x * y.bits / 2 ^ 64 := Nat.mul_div_mul_right _ _ (by positivity)

theorem div_le {x b : ℕ} {y : FixedPoint} (h : div x y = some b) :
    ∃ q, b = unscale q ∧ q * y.bits ≤ scale x * 2 ^ 64 := by
  obtain ⟨v, hv, h⟩ := Option.bind_eq_some_iff.1 h
  obtain ⟨w, hw, hb⟩ := Option.bind_eq_some_iff.1 h
  obtain ⟨-, hv⟩ := toFixed_eq_some.1 hv
  obtain ⟨hy, rfl⟩ := Fixed.div?_eq_some.1 hw
  obtain ⟨-, rfl⟩ := fromFixed_eq_some.1 hb
  refine ⟨_, rfl, ?_⟩
  set w := (Fixed.wrap (v.bits * 2 ^ 64 / y.bits) : FixedPoint).bits
  have hq : w * y.bits ≤ v.bits * 2 ^ 64 :=
    (Nat.le_div_iff_mul_le (Nat.pos_of_ne_zero hy)).1 (Nat.mod_le _ _)
  rw [hv] at hq
  have hd : w / 2 ^ 16 * 2 ^ 16 * y.bits ≤ w * y.bits :=
    Nat.mul_le_mul_right _ (Nat.div_mul_le_self _ _)
  nlinarith only [hq, hd]

theorem toFixed_of_lt {x : ℕ} (h : x < 2 ^ 80) : ∃ v, toFixed x = some v := by
  have fits : scale x * 2 ^ 16 < 2 ^ 128 := by
    unfold scale PHA
    omega
  exact ⟨⟨_, fits⟩, toFixed_eq_some.2 ⟨h, rfl⟩⟩

theorem mul_of_fits {x : ℕ} {y : FixedPoint} (h : x < 2 ^ 80)
    (fits : scale x * y.bits / 2 ^ 64 * PHA < 2 ^ 128) :
    mul x y = some (unscale (scale x * y.bits / 2 ^ 64)) := by
  obtain ⟨v, converted⟩ := toFixed_of_lt h
  obtain ⟨-, hv⟩ := toFixed_eq_some.1 converted
  have short : v.bits * y.bits / 2 ^ 64 / 2 ^ 16 = scale x * y.bits / 2 ^ 64 := by
    rw [hv, Nat.div_div_eq_div_mul, Nat.mul_right_comm]
    exact Nat.mul_div_mul_right _ _ (by positivity)
  have bits : (v.mul y).bits = v.bits * y.bits / 2 ^ 64 := by
    refine Fixed.wrap_bits_of_lt ?_
    unfold PHA at fits
    omega
  unfold mul
  rw [converted, Option.bind_eq_bind, Option.bind_some, fromFixed_eq_some, bits, short]
  exact ⟨fits, rfl⟩

theorem mul_of_small {x : ℕ} (h : x < 2 ^ 13) (y : FixedPoint) :
    mul x y = some (unscale (scale x * y.bits / 2 ^ 64)) := by
  have hx : scale x < 2 ^ 22 := by
    unfold scale PHA
    omega
  have product : scale x * y.bits / 2 ^ 64 ≤ 2 ^ 86 := by
    refine Nat.div_le_of_le_mul ?_
    calc scale x * y.bits ≤ 2 ^ 22 * 2 ^ 128 := Nat.mul_le_mul hx.le y.bits_lt.le
      _ = 2 ^ 64 * 2 ^ 86 := by norm_num
  refine mul_of_fits (h.trans (by norm_num)) ?_
  calc scale x * y.bits / 2 ^ 64 * PHA ≤ 2 ^ 86 * PHA := Nat.mul_le_mul_right _ product
    _ < 2 ^ 128 := by norm_num [PHA]

theorem div_eq_some {x b : ℕ} {y : FixedPoint} (nonzero : y.bits ≠ 0)
    (fits : scale x * 2 ^ 16 * 2 ^ 64 / y.bits < 2 ^ 128) :
    div x y = some b ↔ x < 2 ^ 80 ∧ scale x * 2 ^ 64 / y.bits * PHA < 2 ^ 128 ∧
      b = unscale (scale x * 2 ^ 64 / y.bits) := by
  have short : scale x * 2 ^ 16 * 2 ^ 64 / y.bits / 2 ^ 16 = scale x * 2 ^ 64 / y.bits := by
    rw [Nat.div_div_eq_div_mul, Nat.mul_right_comm]
    exact Nat.mul_div_mul_right _ _ (by positivity)
  have bits : ∀ v : FixedPoint, v.bits = scale x * 2 ^ 16 →
      (Fixed.wrap (v.bits * 2 ^ 64 / y.bits) : FixedPoint).bits / 2 ^ 16 =
        scale x * 2 ^ 64 / y.bits := by
    intro v hv
    rw [hv, Fixed.wrap_bits_of_lt fits, short]
  constructor
  · intro h
    obtain ⟨v, hv, h⟩ := Option.bind_eq_some_iff.1 h
    obtain ⟨w, hw, hb⟩ := Option.bind_eq_some_iff.1 h
    obtain ⟨hx, hv⟩ := toFixed_eq_some.1 hv
    obtain ⟨-, rfl⟩ := Fixed.div?_eq_some.1 hw
    rw [fromFixed_eq_some, bits v hv] at hb
    exact ⟨hx, hb⟩
  · rintro ⟨hx, small, rfl⟩
    obtain ⟨v, converted⟩ := toFixed_of_lt hx
    obtain ⟨-, hv⟩ := toFixed_eq_some.1 converted
    unfold div
    rw [converted, Option.bind_eq_bind, Option.bind_some, Fixed.div?_eq_some.2 ⟨nonzero, rfl⟩,
      Option.bind_some, fromFixed_eq_some, bits v hv]
    exact ⟨small, rfl⟩

theorem div_of_one_le {x b : ℕ} {y : FixedPoint} (one : 2 ^ 64 ≤ y.bits) (h : div x y = some b) :
    b = unscale (scale x * 2 ^ 64 / y.bits) := by
  have hx : x < 2 ^ 80 := by
    obtain ⟨v, hv, -⟩ := Option.bind_eq_some_iff.1 h
    exact (toFixed_eq_some.1 hv).1
  have fits : scale x * 2 ^ 16 * 2 ^ 64 / y.bits < 2 ^ 128 := by
    have le : scale x * 2 ^ 16 * 2 ^ 64 / y.bits ≤ scale x * 2 ^ 16 :=
      (Nat.div_le_div_left one (by positivity)).trans_eq (Nat.mul_div_cancel _ (by positivity))
    refine le.trans_lt ?_
    unfold scale PHA
    omega
  exact ((div_eq_some (by omega) fits).1 h).2.2

theorem div_le_self {x b : ℕ} {y : FixedPoint} (one : 2 ^ 64 ≤ y.bits) (h : div x y = some b) :
    b ≤ x := by
  rw [div_of_one_le one h]
  calc unscale (scale x * 2 ^ 64 / y.bits) ≤ unscale (scale x) := by
        apply unscale_mono
        exact (Nat.div_le_div_left one (by positivity)).trans_eq
          (Nat.mul_div_cancel _ (by positivity))
    _ ≤ x := unscale_scale_le x

theorem le_scale_unscale (u : ℕ) : u ≤ scale (unscale u) + 282 := by
  unfold scale unscale PHA
  omega

theorem div_nondust {x b value : ℕ} {y : FixedPoint} (one : 2 ^ 64 ≤ y.bits)
    (h : div x y = some b) (worth : mul 2000 y = some value) (pays : value ≤ x) : 1000 < b := by
  rw [mul_of_small (by norm_num)] at worth
  cases worth
  rw [div_of_one_le one h]
  -- In scaled units the payment lacks at most 283 prices of the exact price of 2000 units.
  have enough : 562949 * y.bits / 2 ^ 64 ≤ scale x + 282 :=
    (le_scale_unscale _).trans (Nat.add_le_add_right (scale_mono pays) _)
  have many : 562666 ≤ scale x * 2 ^ 64 / y.bits := by
    rw [Nat.le_div_iff_mul_le (by omega)]
    omega
  have most : unscale 562666 ≤ unscale (scale x * 2 ^ 64 / y.bits) := unscale_mono many
  have : 1000 < unscale 562666 := by
    unfold unscale PHA
    norm_num
  omega

theorem div_ne_zero_of_le {x x' : ℕ} {y : FixedPoint} (nonzero : y.bits ≠ 0)
    (fits : scale x' * 2 ^ 16 * 2 ^ 64 / y.bits < 2 ^ 128) (le : x ≤ x')
    (h : div x y ≠ some 0) : div x' y ≠ some 0 := by
  have smaller : scale x * 2 ^ 64 / y.bits ≤ scale x' * 2 ^ 64 / y.bits :=
    Nat.div_le_div_right (Nat.mul_le_mul_right _ (scale_mono le))
  have fits' : scale x * 2 ^ 16 * 2 ^ 64 / y.bits < 2 ^ 128 :=
    (Nat.div_le_div_right (by gcongr; exact scale_mono le)).trans_lt fits
  intro zero
  obtain ⟨hx, small, none⟩ := (div_eq_some nonzero fits).1 zero
  refine h ((div_eq_some nonzero fits').2 ⟨le.trans_lt hx, ?_, ?_⟩)
  · exact (Nat.mul_le_mul_right _ smaller).trans_lt small
  · have most := unscale_mono smaller
    rw [← none] at most
    exact (Nat.le_zero.1 most).symm

theorem worth_of_div_eq_zero {x n : ℕ} {y : FixedPoint} (nonzero : y.bits ≠ 0)
    (fits : scale x * 2 ^ 16 * 2 ^ 64 / y.bits < 2 ^ 128) (zero : div x y = some 0)
    (large : 1000 < n) : 997 * x ≤ unscale (scale n * y.bits / 2 ^ 64) := by
  obtain ⟨-, -, none⟩ := (div_eq_some nonzero fits).1 zero
  have few : scale x * 2 ^ 64 / y.bits < 282 := by
    generalize scale x * 2 ^ 64 / y.bits = q at none
    unfold unscale PHA at none
    omega
  have price : scale x * 2 ^ 64 < 282 * y.bits :=
    (Nat.div_lt_iff_lt_mul (Nat.pos_of_ne_zero nonzero)).1 few
  have many : 281756 ≤ scale n := by
    have : scale 1001 ≤ scale n := scale_mono large
    have : scale 1001 = 281756 := by
      unfold scale PHA
      norm_num
    omega
  have product : 999 * scale x ≤ scale n * y.bits / 2 ^ 64 := by
    rw [Nat.le_div_iff_mul_le (by positivity)]
    calc 999 * scale x * 2 ^ 64 ≤ 281756 * y.bits := by omega
      _ ≤ scale n * y.bits := Nat.mul_le_mul_right _ many
  have unit : 281 * x ≤ scale x := by
    unfold scale PHA
    omega
  have worth : 997 * x ≤ unscale (280719 * x) := by
    unfold unscale PHA
    omega
  exact worth.trans (unscale_mono (by omega))

end Balance

/-! ## Rounding -/

theorem unscale_scale (x : ℕ) : unscale (scale x) = if 5 ^ 12 ∣ x then x else x - 1 := by
  have hrest : scale x * PHA + x * 2 ^ 48 % PHA = x * 2 ^ 48 := Nat.div_add_mod' _ _
  have hlt : x * 2 ^ 48 % PHA < 2 ^ 48 := (Nat.mod_lt _ PHA_pos).trans (by norm_num [PHA])
  have hzero : x * 2 ^ 48 % PHA = 0 ↔ 5 ^ 12 ∣ x := by
    have hcoprime : Nat.Coprime (5 ^ 12) (2 ^ 36) := Nat.Coprime.pow 12 36 (by decide)
    rw [← Nat.dvd_iff_mod_eq_zero, PHA, show x * 2 ^ 48 = x * 2 ^ 36 * 2 ^ 12 by ring,
      show 1000000000000 = 5 ^ 12 * 2 ^ 12 by norm_num, Nat.mul_dvd_mul_iff_right (by norm_num)]
    exact ⟨hcoprime.dvd_of_dvd_mul_right, fun h => h.mul_right _⟩
  unfold unscale
  split_ifs with hdvd
  · omega
  · omega

/-- Conversions of balances round down, by at most one. -/
theorem conversions_round_down (x : ℕ) (small : x < 2 ^ 80) :
    (toFixed x).bind fromFixed = some (if 5 ^ 12 ∣ x then x else x - 1) ∧
    (∀ x' v v', x ≤ x' → toFixed x = some v → toFixed x' = some v' → v ≤ v') ∧
    (∀ y : FixedPoint, (scale x * y.bits / 2 ^ 64 * PHA < 2 ^ 128 →
        ∃ b, Balance.mul x y = some b) ∧
      ∀ b, Balance.mul x y = some b → (b : ℚ) ≤ x * (y.bits / 2 ^ 64)) ∧
    ∀ y : FixedPoint, y.bits ≠ 0 → (scale x * 2 ^ 64 / y.bits * PHA < 2 ^ 128 →
        ∃ b, Balance.div x y = some b) ∧
      ∀ b, Balance.div x y = some b → (b : ℚ) ≤ x / (y.bits / 2 ^ 64) := by
  have hscale := scale_mul_le x
  refine ⟨?_, ?_, fun y => ⟨fun fits => ⟨_, Balance.mul_of_fits small fits⟩, fun b hb => ?_⟩,
    fun y hy => ⟨fun fits => ?_, fun b hb => ?_⟩⟩
  · obtain ⟨v, hv⟩ := Balance.toFixed_of_lt small
    rw [hv, Option.bind_some, fromFixed_eq_some, (toFixed_eq_some.1 hv).2,
      Nat.mul_div_cancel _ (by positivity), unscale_scale]
    exact ⟨by omega, rfl⟩
  · intro x' v v' hle hv hv'
    show v.bits ≤ v'.bits
    rw [(toFixed_eq_some.1 hv).2, (toFixed_eq_some.1 hv').2]
    exact Nat.mul_le_mul_right _ (scale_mono hle)
  · have hmul := Balance.mul_le hb
    have hle := unscale_mul_le (scale x * y.bits / 2 ^ 64)
    have hdiv := Nat.div_mul_le_self (scale x * y.bits) (2 ^ 64)
    generalize scale x * y.bits / 2 ^ 64 = u at *
    have hexact : b * 2 ^ 64 ≤ x * y.bits := by
      refine Nat.le_of_mul_le_mul_right ?_ (Nat.two_pow_pos 48)
      calc b * 2 ^ 64 * 2 ^ 48 = b * 2 ^ 48 * 2 ^ 64 := Nat.mul_right_comm _ _ _
        _ ≤ unscale u * 2 ^ 48 * 2 ^ 64 :=
          Nat.mul_le_mul_right _ (Nat.mul_le_mul_right _ hmul)
        _ ≤ u * PHA * 2 ^ 64 := Nat.mul_le_mul_right _ hle
        _ = u * 2 ^ 64 * PHA := Nat.mul_right_comm _ _ _
        _ ≤ scale x * y.bits * PHA := Nat.mul_le_mul_right _ hdiv
        _ = scale x * PHA * y.bits := Nat.mul_right_comm _ _ _
        _ ≤ x * 2 ^ 48 * y.bits := Nat.mul_le_mul_right _ hscale
        _ = x * y.bits * 2 ^ 48 := Nat.mul_right_comm _ _ _
    rw [← mul_div_assoc, le_div_iff₀ (by positivity)]
    exact_mod_cast hexact
  · have fits' : scale x * 2 ^ 16 * 2 ^ 64 / y.bits < 2 ^ 128 := by
      have hnext := Nat.lt_mul_div_succ (scale x * 2 ^ 64) (Nat.pos_of_ne_zero hy)
      rw [Nat.div_lt_iff_lt_mul (Nat.pos_of_ne_zero hy)]
      generalize scale x * 2 ^ 64 / y.bits = q at *
      calc scale x * 2 ^ 16 * 2 ^ 64 = scale x * 2 ^ 64 * 2 ^ 16 := Nat.mul_right_comm _ _ _
        _ < y.bits * (q + 1) * 2 ^ 16 := Nat.mul_lt_mul_of_pos_right hnext (by positivity)
        _ = (q + 1) * 2 ^ 16 * y.bits := by ring
        _ ≤ 2 ^ 128 * y.bits := Nat.mul_le_mul_right _ (by unfold PHA at fits; omega)
    exact ⟨_, (Balance.div_eq_some hy fits').2 ⟨small, fits, rfl⟩⟩
  · obtain ⟨q, rfl, hq⟩ := Balance.div_le hb
    have hle := unscale_mul_le q
    have hexact : unscale q * y.bits ≤ x * 2 ^ 64 := by
      refine Nat.le_of_mul_le_mul_right ?_ (Nat.two_pow_pos 48)
      calc unscale q * y.bits * 2 ^ 48 = unscale q * 2 ^ 48 * y.bits := Nat.mul_right_comm _ _ _
        _ ≤ q * PHA * y.bits := Nat.mul_le_mul_right _ hle
        _ = q * y.bits * PHA := Nat.mul_right_comm _ _ _
        _ ≤ scale x * 2 ^ 64 * PHA := Nat.mul_le_mul_right _ hq
        _ = scale x * PHA * 2 ^ 64 := Nat.mul_right_comm _ _ _
        _ ≤ x * 2 ^ 48 * 2 ^ 64 := Nat.mul_le_mul_right _ hscale
        _ = x * 2 ^ 64 * 2 ^ 48 := Nat.mul_right_comm _ _ _
    have hpos : (0 : ℚ) < y.bits := by exact_mod_cast Nat.pos_of_ne_zero hy
    rw [le_div_iff₀ (div_pos hpos (by positivity)), ← mul_div_assoc, div_le_iff₀ (by positivity)]
    exact_mod_cast hexact

theorem conversions_round_down_seven :
    let half : FixedPoint := .wrap (2 ^ 63)
    (toFixed 7).bind fromFixed = some 6 ∧
    (∃ b, Balance.mul 7 half = some b ∧ (b : ℚ) ≤ 7 / 2) ∧
    ∃ b, Balance.div 7 half = some b ∧ (b : ℚ) ≤ 14 := by
  intro half
  have bits : half.bits = 2 ^ 63 := rfl
  obtain ⟨trip, -, mul, div⟩ := conversions_round_down 7 (by norm_num)
  refine ⟨by simpa using trip, ?_, ?_⟩
  · obtain ⟨b, hb⟩ := (mul half).1 (by norm_num [bits, scale, PHA])
    exact ⟨b, hb, ((mul half).2 b hb).trans (by norm_num [bits])⟩
  · obtain ⟨exists_div, le⟩ := div half (by norm_num [bits])
    obtain ⟨b, hb⟩ := exists_div (by norm_num [bits, scale, PHA])
    exact ⟨b, hb, (le b hb).trans (by norm_num [bits])⟩

end Cyrux
