import Cyrux.Compute.BasePool

/-!
# Share prices
-/

namespace Cyrux

variable {A : Type}

theorem scale_lt_scale {x y : ℕ} (h : x < y) : scale x < scale y := by
  unfold scale PHA
  omega

theorem le_of_scale_le {x y : ℕ} (h : scale x ≤ scale y) : x ≤ y :=
  Nat.not_lt.1 fun lt => Nat.not_lt.2 h (scale_lt_scale lt)

namespace BasePool

variable {b : BasePool A} {price : FixedPoint}

theorem sharePrice_eq {o : Option FixedPoint} :
    b.sharePrice = some o ↔ b.totalValue < 2 ^ 80 ∧ b.totalShares < 2 ^ 80 ∧
      o = if b.totalShares = 0 then none
        else Fixed.ofBits? (scale b.totalValue * 2 ^ 64 / scale b.totalShares) := by
  unfold sharePrice
  simp only [Option.bind_eq_bind, Option.bind_eq_some_iff, toFixed_eq_some, Option.pure_def,
    Option.some.injEq]
  have quotient : ∀ value shares : FixedPoint, value.bits = scale b.totalValue * 2 ^ 16 →
      shares.bits = scale b.totalShares * 2 ^ 16 →
      value.checkedDiv shares = if b.totalShares = 0 then none
        else Fixed.ofBits? (scale b.totalValue * 2 ^ 64 / scale b.totalShares) := by
    intro value shares hv hs
    unfold Fixed.checkedDiv
    have zero : shares.bits = 0 ↔ b.totalShares = 0 := by
      rw [hs, Nat.mul_eq_zero, scale_eq_zero]
      simp
    rw [hv, hs, Nat.mul_right_comm, Nat.mul_div_mul_right _ _ (by positivity), ← hs]
    simp only [zero]
  constructor
  · rintro ⟨value, ⟨hV, hv⟩, shares, ⟨hS, hs⟩, rfl⟩
    exact ⟨hV, hS, quotient value shares hv hs⟩
  · rintro ⟨hV, hS, rfl⟩
    have fits : ∀ x, x < 2 ^ 80 → scale x * 2 ^ 16 < 2 ^ 128 := by
      unfold scale PHA
      omega
    exact ⟨⟨_, fits _ hV⟩, ⟨hV, rfl⟩, ⟨_, fits _ hS⟩, ⟨hS, rfl⟩, quotient _ _ rfl rfl⟩

theorem sharePrice_eq_some : b.sharePrice = some (some price) ↔ b.totalValue < 2 ^ 80 ∧
    b.totalShares < 2 ^ 80 ∧ b.totalShares ≠ 0 ∧
      price.bits = scale b.totalValue * 2 ^ 64 / scale b.totalShares := by
  rw [sharePrice_eq]
  by_cases h : b.totalShares = 0
  · simp [h]
  · simp only [h, if_false, ne_eq, not_false_eq_true, true_and]
    rw [eq_comm, Fixed.ofBits?_eq_some]

theorem sharePrice_eq_none : b.sharePrice = some none ↔ b.totalValue < 2 ^ 80 ∧
    b.totalShares < 2 ^ 80 ∧ (b.totalShares = 0 ∨
      2 ^ 128 ≤ scale b.totalValue * 2 ^ 64 / scale b.totalShares) := by
  rw [sharePrice_eq]
  by_cases h : b.totalShares = 0
  · simp [h]
  · simp only [h, if_false, false_or]
    rw [eq_comm, Fixed.ofBits?_eq_none]

theorem sharePrice_mul_le (h : b.sharePrice = some (some price)) :
    price.bits * scale b.totalShares ≤ scale b.totalValue * 2 ^ 64 := by
  obtain ⟨-, -, -, bits⟩ := sharePrice_eq_some.1 h
  rw [bits]
  exact Nat.div_mul_le_self _ _

theorem one_le_sharePrice (h : b.sharePrice = some (some price))
    (le : b.totalShares ≤ b.totalValue) : 2 ^ 64 ≤ price.bits := by
  obtain ⟨-, -, nonzero, bits⟩ := sharePrice_eq_some.1 h
  have pos : 0 < scale b.totalShares := Nat.pos_of_ne_zero (scale_eq_zero.not.2 nonzero)
  rw [bits, Nat.le_div_iff_mul_le pos, Nat.mul_comm]
  exact Nat.mul_le_mul_right _ (scale_mono le)

theorem worth_le_totalValue (h : b.sharePrice = some (some price)) {n value : ℕ}
    (worth : Balance.mul n price = some value) (within : n ≤ b.totalShares) :
    value ≤ b.totalValue := by
  calc value ≤ unscale (scale n * price.bits / 2 ^ 64) := Balance.mul_le worth
    _ ≤ unscale (scale b.totalValue) := by
        apply unscale_mono
        refine Nat.div_le_of_le_mul ?_
        calc scale n * price.bits ≤ scale b.totalShares * price.bits :=
              Nat.mul_le_mul_right _ (scale_mono within)
          _ = price.bits * scale b.totalShares := Nat.mul_comm _ _
          _ ≤ scale b.totalValue * 2 ^ 64 := sharePrice_mul_le h
          _ = 2 ^ 64 * scale b.totalValue := Nat.mul_comm _ _
    _ ≤ b.totalValue := unscale_scale_le _

theorem worth_eq (h : b.sharePrice = some (some price)) {n : ℕ} (within : n ≤ b.totalShares) :
    Balance.mul n price = some (unscale (scale n * price.bits / 2 ^ 64)) := by
  obtain ⟨small, few, -⟩ := sharePrice_eq_some.1 h
  refine Balance.mul_of_fits (within.trans_lt few) ?_
  have most : scale n * price.bits / 2 ^ 64 ≤ scale b.totalValue := by
    refine Nat.div_le_of_le_mul ?_
    calc scale n * price.bits ≤ scale b.totalShares * price.bits :=
          Nat.mul_le_mul_right _ (scale_mono within)
      _ = price.bits * scale b.totalShares := Nat.mul_comm _ _
      _ ≤ scale b.totalValue * 2 ^ 64 := sharePrice_mul_le h
      _ = 2 ^ 64 * scale b.totalValue := Nat.mul_comm _ _
  have := scale_mul_le b.totalValue
  calc scale n * price.bits / 2 ^ 64 * PHA ≤ scale b.totalValue * PHA :=
        Nat.mul_le_mul_right _ most
    _ < 2 ^ 128 := by omega

theorem price_mul_rest_le (h : b.sharePrice = some (some price)) {n value amount : ℕ}
    (worth : Balance.mul n price = some value) (paid : amount ≤ value) :
    price.bits * scale (b.totalShares - n) ≤ scale (b.totalValue - amount) * 2 ^ 64 := by
  have product : scale n * price.bits / 2 ^ 64 * 2 ^ 64 ≤ scale n * price.bits :=
    Nat.div_mul_le_self _ _
  have rest : scale b.totalValue ≤
      scale (b.totalValue - amount) + scale n * price.bits / 2 ^ 64 :=
    calc scale b.totalValue
        ≤ scale (b.totalValue - unscale (scale n * price.bits / 2 ^ 64)) +
            scale n * price.bits / 2 ^ 64 := scale_le_scale_sub_unscale _ _
      _ ≤ _ := Nat.add_le_add_right
            (scale_mono (Nat.sub_le_sub_left (paid.trans (Balance.mul_le worth)) _)) _
  have shares : scale (b.totalShares - n) + scale n ≤ scale b.totalShares ∨
      b.totalShares ≤ n := by
    by_cases le : n ≤ b.totalShares
    · left
      have := scale_add_le (b.totalShares - n) n
      rwa [Nat.sub_add_cancel le] at this
    · exact .inr (Nat.le_of_not_le le)
  rcases shares with shares | none
  · have price_le := sharePrice_mul_le h
    nlinarith
  · rw [Nat.sub_eq_zero_of_le none]
    simp [scale]

theorem rest_le_rest (h : b.sharePrice = some (some price)) {n value amount : ℕ}
    (worth : Balance.mul n price = some value) (paid : amount ≤ value)
    (le : b.totalShares ≤ b.totalValue) : b.totalShares - n ≤ b.totalValue - amount := by
  have one := one_le_sharePrice h le
  have rest := price_mul_rest_le h worth paid
  refine le_of_scale_le (Nat.le_of_mul_le_mul_right ?_ (show 0 < 2 ^ 64 by positivity))
  calc scale (b.totalShares - n) * 2 ^ 64 ≤ scale (b.totalShares - n) * price.bits :=
        Nat.mul_le_mul_left _ one
    _ = price.bits * scale (b.totalShares - n) := Nat.mul_comm _ _
    _ ≤ _ := rest

theorem newShares_le {amount shares : ℕ} (bought : b.newShares amount = some shares)
    (le : b.totalShares ≤ b.totalValue) : shares ≤ amount := by
  obtain ⟨o, priced, bought⟩ := Option.bind_eq_some_iff.1 bought
  cases o with
  | none => exact (Option.some.inj bought).ge
  | some price =>
    have one := one_le_sharePrice priced le
    have nonzero : price.bits ≠ 0 := by omega
    simp only [nonzero, if_false] at bought
    exact Balance.div_le_self one bought

theorem newShares_nondust {amount shares : ℕ} (bought : b.newShares amount = some shares)
    (le : b.totalShares ≤ b.totalValue) (least : 1000 < amount)
    (pays : ∀ price value, b.sharePrice = some (some price) →
      Balance.mul 2000 price = some value → value ≤ amount) : 1000 < shares := by
  obtain ⟨o, priced, bought⟩ := Option.bind_eq_some_iff.1 bought
  cases o with
  | none =>
    cases bought
    exact least
  | some price =>
    have one := one_le_sharePrice priced le
    have nonzero : price.bits ≠ 0 := by omega
    simp only [nonzero, if_false] at bought
    have worth := Balance.mul_of_small (x := 2000) (by norm_num) price
    exact Balance.div_nondust one bought worth (pays price _ priced worth)

end BasePool

end Cyrux
