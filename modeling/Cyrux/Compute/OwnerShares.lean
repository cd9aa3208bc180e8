import Mathlib
import Cyrux.Compute.Mock
import Cyrux.Compute.Price
import Cyrux.Compute.RewardSpec
import Cyrux.Compute.VaultSpec

/-!
# The commission of a vault's owner
-/

namespace Cyrux

open Exec

/-! ## Rounding -/

theorem Permill.mul_bounds (p : Permill) (x : ℕ) :
    1000000 * p.mul x ≤ p.parts * x + 500000 ∧ p.parts * x ≤ 1000000 * p.mul x + 500000 := by
  have exact_ : p.parts * x = x / 1000000 * p.parts * 1000000 + x % 1000000 * p.parts := by
    have := Nat.div_add_mod x 1000000
    calc p.parts * x = p.parts * (1000000 * (x / 1000000) + x % 1000000) := by rw [this]
      _ = x / 1000000 * p.parts * 1000000 + x % 1000000 * p.parts := by ring
  unfold Permill.mul
  dsimp only
  split_ifs <;> omega

theorem Permill.mul_of_all {p : Permill} (all : p.parts = 1000000) (x : ℕ) : p.mul x = x := by
  unfold Permill.mul
  dsimp only
  rw [all]
  split_ifs <;> omega

theorem lt_unscale_succ_mul (u : ℕ) : u * PHA < (unscale u + 1) * 2 ^ 48 := by
  have h := Nat.lt_mul_div_succ (u * PHA) (show 0 < 2 ^ 48 by positivity)
  rwa [Nat.mul_comm (2 ^ 48)] at h

theorem fromFixed_lt {v : FixedPoint} {b : ℕ} (h : fromFixed v = some b) : b < 2 ^ 80 := by
  obtain ⟨fits, rfl⟩ := fromFixed_eq_some.1 h
  have := unscale_mul_le (v.bits / 2 ^ 16)
  omega

theorem Balance.div_lt {x b : ℕ} {y : FixedPoint} (h : div x y = some b) : b < 2 ^ 80 := by
  obtain ⟨_, -, h⟩ := Option.bind_eq_some_iff.1 h
  obtain ⟨_, -, h⟩ := Option.bind_eq_some_iff.1 h
  exact fromFixed_lt h

theorem Balance.div_mul_le {x b np : ℕ} {y : FixedPoint} (converted : toFixed np = some y)
    (h : div x y = some b) : b * scale np ≤ x * 2 ^ 48 := by
  obtain ⟨q, rfl, le⟩ := div_le h
  obtain ⟨-, bits⟩ := toFixed_eq_some.1 converted
  rw [bits] at le
  have whole : q * scale np ≤ scale x * 2 ^ 48 := by
    have : q * scale np * 2 ^ 16 ≤ scale x * 2 ^ 48 * 2 ^ 16 := by
      calc q * scale np * 2 ^ 16 = q * (scale np * 2 ^ 16) := Nat.mul_assoc _ _ _
        _ ≤ scale x * 2 ^ 64 := le
        _ = scale x * 2 ^ 48 * 2 ^ 16 := by ring
    exact Nat.le_of_mul_le_mul_right this (by positivity)
  have units : unscale q * scale np * 2 ^ 48 ≤ x * 2 ^ 48 * 2 ^ 48 := by
    calc unscale q * scale np * 2 ^ 48 = unscale q * 2 ^ 48 * scale np := by ring
      _ ≤ q * PHA * scale np := Nat.mul_le_mul_right _ (unscale_mul_le q)
      _ = q * scale np * PHA := by ring
      _ ≤ scale x * 2 ^ 48 * PHA := Nat.mul_le_mul_right _ whole
      _ = scale x * PHA * 2 ^ 48 := by ring
      _ ≤ x * 2 ^ 48 * 2 ^ 48 := Nat.mul_le_mul_right _ (scale_mul_le x)
  exact Nat.le_of_mul_le_mul_right units (by positivity)

variable {A W : Type}

namespace Vault

variable {u : Vault A} {price divisor : FixedPoint} {current shares : ℕ}

theorem Gains.checkpoint_le_newPrice (gains : u.Gains price current) :
    u.lastSharePriceCheckpoint ≤ u.newPrice current := by
  have part := Permill.mul_le (u.commission.getD Permill.zero)
    (current - u.lastSharePriceCheckpoint)
  have risen := gains.2.2.2
  unfold Vault.newPrice
  omega

theorem Gains.current_eq (gains : u.Gains price current) :
    current = unscale (scale u.basepool.totalValue * 2 ^ 48 / scale u.basepool.totalShares) := by
  obtain ⟨priced, rounded, -, -⟩ := gains
  obtain ⟨-, -, -, bits⟩ := BasePool.sharePrice_eq_some.1 priced
  obtain ⟨-, rfl⟩ := fromFixed_eq_some.1 rounded
  rw [bits, Nat.div_div_eq_div_mul, Nat.mul_comm (scale u.basepool.totalShares),
    show scale u.basepool.totalValue * 2 ^ 64 = 2 ^ 16 * (scale u.basepool.totalValue * 2 ^ 48) by
      ring, Nat.mul_div_mul_left _ _ (by positivity)]

/-! ## The quotient does not wrap -/

theorem Gains.current_le_newPrice (gains : u.Gains price current)
    (less : (u.commission.getD Permill.zero).parts ≠ 1000000) :
    current ≤ 1000000 * u.newPrice current := by
  obtain ⟨-, -, marked, risen⟩ := gains
  have some_ := (u.commission.getD Permill.zero).parts_le
  have nearest := ((u.commission.getD Permill.zero).mul_bounds
    (current - u.lastSharePriceCheckpoint)).1
  have part : (u.commission.getD Permill.zero).parts * (current - u.lastSharePriceCheckpoint) ≤
      999999 * (current - u.lastSharePriceCheckpoint) := Nat.mul_le_mul_right _ (by omega)
  unfold Vault.newPrice
  omega

theorem Gains.scale_totalValue_lt (gains : u.Gains price current) :
    scale u.basepool.totalValue * (PHA * PHA) < (current + 1) * 2 ^ 129 := by
  obtain ⟨-, few, nonzero, -⟩ := BasePool.sharePrice_eq_some.1 gains.1
  have rounded := gains.current_eq
  have pos : 0 < scale u.basepool.totalShares := Nat.pos_of_ne_zero (scale_eq_zero.not.2 nonzero)
  have shares_lt : scale u.basepool.totalShares * PHA < 2 ^ 128 := by
    have := scale_mul_le u.basepool.totalShares
    omega
  generalize scale u.basepool.totalValue = v at *
  generalize scale u.basepool.totalShares = n at *
  have quotient : v * 2 ^ 48 < (v * 2 ^ 48 / n + 1) * n := by
    have := Nat.lt_mul_div_succ (v * 2 ^ 48) pos
    rwa [Nat.mul_comm n] at this
  have decimals : (v * 2 ^ 48 / n + 1) * PHA < (current + 1) * 2 ^ 49 := by
    have units := lt_unscale_succ_mul (v * 2 ^ 48 / n)
    rw [← rounded] at units
    have small : PHA ≤ 2 ^ 48 := by norm_num [PHA]
    calc (v * 2 ^ 48 / n + 1) * PHA = v * 2 ^ 48 / n * PHA + PHA := by ring
      _ < (current + 1) * 2 ^ 48 + 2 ^ 48 := Nat.add_lt_add_of_lt_of_le units small
      _ ≤ (current + 1) * 2 ^ 49 := by omega
  have product : v * (PHA * PHA) * 2 ^ 48 < (current + 1) * 2 ^ 129 * 2 ^ 48 := by
    calc v * (PHA * PHA) * 2 ^ 48 = v * 2 ^ 48 * (PHA * PHA) := by ring
      _ ≤ (v * 2 ^ 48 / n + 1) * n * (PHA * PHA) := Nat.mul_le_mul_right _ quotient.le
      _ = (v * 2 ^ 48 / n + 1) * PHA * (n * PHA) := by ring
      _ < (current + 1) * 2 ^ 49 * 2 ^ 128 := Nat.mul_lt_mul'' decimals shares_lt
      _ = (current + 1) * 2 ^ 129 * 2 ^ 48 := by ring
  exact Nat.lt_of_mul_lt_mul_right product

theorem Gains.quotient_fits (gains : u.Gains price current)
    (less : (u.commission.getD Permill.zero).parts ≠ 1000000) :
    scale u.basepool.totalValue * 2 ^ 16 * 2 ^ 64 / (scale (u.newPrice current) * 2 ^ 16) <
      2 ^ 128 := by
  have fall := gains.current_le_newPrice less
  have value := gains.scale_totalValue_lt
  have risen := gains.2.2.2
  have unit : 281 * u.newPrice current ≤ scale (u.newPrice current) := by
    unfold scale PHA
    omega
  have value' : scale u.basepool.totalValue * 10 ^ 24 < (current + 1) * 2 ^ 129 := value
  rw [Nat.mul_right_comm, Nat.mul_div_mul_right _ _ (by positivity)]
  apply Nat.div_lt_of_lt_mul
  have small : scale u.basepool.totalValue < scale (u.newPrice current) * 2 ^ 64 := by
    omega
  calc scale u.basepool.totalValue * 2 ^ 64 < scale (u.newPrice current) * 2 ^ 64 * 2 ^ 64 :=
        Nat.mul_lt_mul_of_pos_right small (by positivity)
    _ = scale (u.newPrice current) * 2 ^ 128 := by ring

/-! ## Settling twice -/

def Quiet (u : Vault A) : Prop :=
  ∃ price current, u.basepool.sharePrice = some (some price) ∧ fromFixed price = some current ∧
    (current ≤ u.lastSharePriceCheckpoint ∨ u.Gains price current ∧
      ∃ divisor shares, toFixed (u.newPrice current) = some divisor ∧
        Balance.div u.basepool.totalValue divisor = some shares ∧
        shares ≤ u.basepool.totalShares)

theorem Gains.price_gained (gains : u.Gains price current) {n np : ℕ}
    (few : u.basepool.totalShares + n < 2 ^ 80) :
    ∃ price' current', (u.gained np n).basepool.sharePrice = some (some price') ∧
      fromFixed price' = some current' ∧ current' ≤ current := by
  obtain ⟨priced, rounded, -, -⟩ := gains
  obtain ⟨small, -, nonzero, bits⟩ := BasePool.sharePrice_eq_some.1 priced
  obtain ⟨fits, rfl⟩ := fromFixed_eq_some.1 rounded
  have pos : 0 < scale u.basepool.totalShares := Nat.pos_of_ne_zero (scale_eq_zero.not.2 nonzero)
  have less : scale u.basepool.totalValue * 2 ^ 64 / scale (u.basepool.totalShares + n) ≤
      price.bits := by
    rw [bits]
    exact Nat.div_le_div_left (scale_mono (Nat.le_add_right _ n)) pos
  let price' : FixedPoint := ⟨_, less.trans_lt price.bits_lt⟩
  have shorter : price'.bits / 2 ^ 16 ≤ price.bits / 2 ^ 16 := Nat.div_le_div_right less
  refine ⟨price', _, BasePool.sharePrice_eq_some.2 ⟨small, few, ?_, rfl⟩,
    fromFixed_eq_some.2 ⟨(Nat.mul_le_mul_right _ shorter).trans_lt fits, rfl⟩,
    unscale_mono shorter⟩
  show u.basepool.totalShares + n ≠ 0
  omega

theorem Gains.div_of_le (gains : u.Gains price current)
    (less : (u.commission.getD Permill.zero).parts ≠ 1000000)
    (divided : toFixed (u.newPrice current) = some divisor)
    (bought : Balance.div u.basepool.totalValue divisor = some shares) {np : ℕ}
    {divisor' : FixedPoint} (le : u.newPrice current ≤ np) (divided' : toFixed np = some divisor') :
    ∃ shares', Balance.div u.basepool.totalValue divisor' = some shares' ∧ shares' ≤ shares := by
  have fits := gains.quotient_fits less
  obtain ⟨-, bits⟩ := toFixed_eq_some.1 divided
  obtain ⟨-, bits'⟩ := toFixed_eq_some.1 divided'
  have marked : u.newPrice current ≠ 0 := by
    have := gains.checkpoint_le_newPrice
    have := gains.2.2.1
    omega
  have nonzero : divisor.bits ≠ 0 := by
    rw [bits]
    exact Nat.mul_ne_zero (scale_eq_zero.not.2 marked) (by norm_num)
  have higher : divisor.bits ≤ divisor'.bits := by
    rw [bits, bits']
    exact Nat.mul_le_mul_right _ (scale_mono le)
  have fewer : scale u.basepool.totalValue * 2 ^ 64 / divisor'.bits ≤
      scale u.basepool.totalValue * 2 ^ 64 / divisor.bits :=
    Nat.div_le_div_left higher (Nat.pos_of_ne_zero nonzero)
  rw [← bits] at fits
  have fits' : scale u.basepool.totalValue * 2 ^ 16 * 2 ^ 64 / divisor'.bits < 2 ^ 128 :=
    (Nat.div_le_div_left higher (Nat.pos_of_ne_zero nonzero)).trans_lt fits
  obtain ⟨small, short, rfl⟩ := (Balance.div_eq_some nonzero fits).1 bought
  refine ⟨_, (Balance.div_eq_some (by omega) fits').2 ⟨small, ?_, rfl⟩, unscale_mono fewer⟩
  exact (Nat.mul_le_mul_right _ fewer).trans_lt short

theorem Gains.quiet_gained (gains : u.Gains price current)
    (divided : toFixed (u.newPrice current) = some divisor)
    (bought : Balance.div u.basepool.totalValue divisor = some shares) :
    (u.gained (u.newPrice current) (shares - u.basepool.totalShares)).Quiet := by
  have few : u.basepool.totalShares + (shares - u.basepool.totalShares) < 2 ^ 80 := by
    have := Balance.div_lt bought
    have := (BasePool.sharePrice_eq_some.1 gains.1).2.1
    omega
  obtain ⟨price', current', priced', rounded', le⟩ := gains.price_gained few
  refine ⟨price', current', priced', rounded', ?_⟩
  by_cases risen : current' ≤ u.newPrice current
  · exact .inl risen
  right
  have marked : u.newPrice current ≠ 0 := by
    have := gains.checkpoint_le_newPrice
    have := gains.2.2.1
    omega
  have gains' : (u.gained (u.newPrice current) (shares - u.basepool.totalShares)).Gains price'
      current' := ⟨priced', rounded', marked, Nat.not_le.1 risen⟩
  refine ⟨gains', ?_⟩
  by_cases all : (u.commission.getD Permill.zero).parts = 1000000
  · -- The owner takes all of the profit: the price does not move.
    have same : (u.gained (u.newPrice current) (shares - u.basepool.totalShares)).newPrice
        current' = u.newPrice current := by
      show current' - (u.commission.getD Permill.zero).mul (current' - u.newPrice current) = _
      rw [Permill.mul_of_all all]
      omega
    rw [same]
    refine ⟨divisor, shares, divided, bought, ?_⟩
    show shares ≤ u.basepool.totalShares + (shares - u.basepool.totalShares)
    omega
  · have higher : u.newPrice current ≤
        (u.gained (u.newPrice current) (shares - u.basepool.totalShares)).newPrice current' :=
      gains'.checkpoint_le_newPrice
    have bounded : (u.gained (u.newPrice current) (shares - u.basepool.totalShares)).newPrice
        current' < 2 ^ 80 := (Nat.sub_le _ _).trans_lt (fromFixed_lt rounded')
    obtain ⟨divisor', divided'⟩ := Balance.toFixed_of_lt bounded
    obtain ⟨shares', bought', fewer⟩ := gains.div_of_le all divided bought higher divided'
    refine ⟨divisor', shares', divided', bought', ?_⟩
    show shares' ≤ u.basepool.totalShares + (shares - u.basepool.totalShares)
    omega

/-! ## The value of the owner's shares -/

theorem Gains.totalValue_le (gains : u.Gains price current) :
    u.basepool.totalValue * 2 ^ 48 * PHA ≤
      (current + 1) * 2 ^ 48 * u.basepool.totalShares + PHA * u.basepool.totalShares +
        PHA * PHA := by
  obtain ⟨-, -, nonzero, -⟩ := BasePool.sharePrice_eq_some.1 gains.1
  have rounded := gains.current_eq
  have pos : 0 < scale u.basepool.totalShares := Nat.pos_of_ne_zero (scale_eq_zero.not.2 nonzero)
  have value := lt_scale_succ_mul u.basepool.totalValue
  have shares := scale_mul_le u.basepool.totalShares
  generalize scale u.basepool.totalValue = v at *
  generalize scale u.basepool.totalShares = n at *
  set t := v * 2 ^ 48 / n with ht
  have quotient : v * 2 ^ 48 < (t + 1) * n := by
    have := Nat.lt_mul_div_succ (v * 2 ^ 48) pos
    rwa [Nat.mul_comm n] at this
  have decimals : t * PHA ≤ (current + 1) * 2 ^ 48 := by
    have := lt_unscale_succ_mul t
    rw [← rounded] at this
    exact this.le
  have scaled : v * PHA ≤ (t + 1) * u.basepool.totalShares := by
    have : v * PHA * 2 ^ 48 ≤ (t + 1) * u.basepool.totalShares * 2 ^ 48 := by
      calc v * PHA * 2 ^ 48 = v * 2 ^ 48 * PHA := by ring
        _ ≤ (t + 1) * n * PHA := Nat.mul_le_mul_right _ quotient.le
        _ = (t + 1) * (n * PHA) := Nat.mul_assoc _ _ _
        _ ≤ (t + 1) * (u.basepool.totalShares * 2 ^ 48) := Nat.mul_le_mul_left _ shares
        _ = (t + 1) * u.basepool.totalShares * 2 ^ 48 := by ring
    exact Nat.le_of_mul_le_mul_right this (by positivity)
  calc u.basepool.totalValue * 2 ^ 48 * PHA ≤ (v + 1) * PHA * PHA :=
        Nat.mul_le_mul_right _ value.le
    _ = v * PHA * PHA + PHA * PHA := by ring
    _ ≤ (t + 1) * u.basepool.totalShares * PHA + PHA * PHA :=
        Nat.add_le_add_right (Nat.mul_le_mul_right _ scaled) _
    _ = t * PHA * u.basepool.totalShares + PHA * u.basepool.totalShares + PHA * PHA := by ring
    _ ≤ _ := Nat.add_le_add_right (Nat.add_le_add_right (Nat.mul_le_mul_right _ decimals) _) _

theorem Gains.newPrice_ge (gains : u.Gains price current) :
    (current : ℚ) - (u.commission.getD Permill.zero).parts / 1000000 *
      (current - u.lastSharePriceCheckpoint) - 1 / 2 ≤ u.newPrice current := by
  have risen := gains.2.2.2
  have part := Permill.mul_le (u.commission.getD Permill.zero)
    (current - u.lastSharePriceCheckpoint)
  have nearest := ((u.commission.getD Permill.zero).mul_bounds
    (current - u.lastSharePriceCheckpoint)).1
  unfold Vault.newPrice
  rw [Nat.cast_sub (by omega)]
  have exact_ : (1000000 : ℚ) * (u.commission.getD Permill.zero).mul
      (current - u.lastSharePriceCheckpoint) ≤ (u.commission.getD Permill.zero).parts *
        (current - u.lastSharePriceCheckpoint) + 500000 := by
    have := (Nat.cast_le (α := ℚ)).2 nearest
    push_cast [Nat.cast_sub risen.le] at this
    exact this
  linarith

theorem Gains.worth_le (gains : u.Gains price current)
    (divided : toFixed (u.newPrice current) = some divisor)
    (bought : Balance.div u.basepool.totalValue divisor = some shares)
    (more : u.basepool.totalShares < shares) :
    ((shares : ℚ) - u.basepool.totalShares) * (u.basepool.totalValue / shares) ≤
      (u.commission.getD Permill.zero).parts / 1000000 *
        (u.basepool.totalValue - u.lastSharePriceCheckpoint / PHA * u.basepool.totalShares) +
        2 * u.basepool.totalShares / PHA + 1 := by
  have value := (Nat.cast_le (α := ℚ)).2 gains.totalValue_le
  have bought' := (Nat.cast_le (α := ℚ)).2 (Balance.div_mul_le divided bought)
  have scaled := (Nat.cast_lt (α := ℚ)).2 (lt_scale_succ_mul (u.newPrice current))
  have lower := gains.newPrice_ge
  have few := (u.commission.getD Permill.zero).parts_le
  have pos : (0 : ℚ) < shares := by exact_mod_cast (Nat.zero_le _).trans_lt more
  push_cast [PHA] at value bought' scaled
  have some_ : (0 : ℚ) ≤ (u.commission.getD Permill.zero).parts / 1000000 := by positivity
  have all : ((u.commission.getD Permill.zero).parts : ℚ) / 1000000 ≤ 1 := by
    rw [div_le_one (by norm_num)]
    exact_mod_cast few
  have nonneg : (0 : ℚ) ≤ u.basepool.totalShares := Nat.cast_nonneg _
  generalize ((u.commission.getD Permill.zero).parts : ℚ) / 1000000 = c at *
  generalize (u.basepool.totalShares : ℚ) = n at *
  generalize (u.basepool.totalValue : ℚ) = total at *
  generalize (scale (u.newPrice current) : ℚ) = y at *
  generalize (u.newPrice current : ℚ) = np at *
  have worth : (shares - n) * (total / shares) ≤ total - n * y / 2 ^ 48 := by
    have price : y / 2 ^ 48 ≤ total / shares := by
      rw [div_le_div_iff₀ (by positivity) pos]
      linarith
    have split_ : (shares - n) * (total / shares) = total - n * (total / shares) := by
      field_simp
    have := mul_le_mul_of_nonneg_left price nonneg
    linarith
  have converted : n * (np / 1000000000000 - 1 / 2 ^ 48) ≤ n * (y / 2 ^ 48) := by
    apply mul_le_mul_of_nonneg_left _ nonneg
    linarith
  have rounded := mul_le_mul_of_nonneg_left lower nonneg
  have short : (1 - c) * total ≤ (1 - c) * ((current + 1) * n / 1000000000000 + n / 2 ^ 48 +
      1000000000000 / 2 ^ 48) := by
    apply mul_le_mul_of_nonneg_left _ (by linarith)
    linarith
  have part := mul_nonneg some_ nonneg
  push_cast [PHA]
  linarith

end Vault

namespace VaultPallet

variable {s s' : State A W} {pid : ℕ} {u u' : Vault A}

theorem doGainOwnerShare_of_quiet (stored : s.pools pid = some (.vault u)) (quiet : u.Quiet) :
    ∃ u', doGainOwnerShare pid s = .ok ((), s.putPool pid (.vault u')) ∧
      u'.basepool.totalShares = u.basepool.totalShares ∧ u'.ownerShares = u.ownerShares := by
  obtain ⟨price, current, priced, rounded, settled⟩ := quiet
  have spec : Sat (doGainOwnerShare pid) s (fun _ s' => ∃ u', s' = s.putPool pid (.vault u') ∧
      u'.basepool.totalShares = u.basepool.totalShares ∧ u'.ownerShares = u.ownerShares)
      (fun _ => False) := by
    have idle : s = s.putPool pid (.vault u) := (State.putPool_stored stored).symm
    simp only [doGainOwnerShare, ensureVault, sat_bind, sat_get, stored, sat_pure, convert, priced,
      rounded, sat_demand, Option.some.injEq, forall_eq', reduceCtorEq, false_implies, and_true]
    refine Sat.ite (fun _ => ⟨_, rfl, rfl, rfl⟩) fun marked => ?_
    refine Sat.ite (fun _ => ⟨u, idle, rfl, rfl⟩) fun risen => ?_
    obtain ⟨-, divisor, shares, divided, bought, none⟩ := settled.resolve_left risen
    unfold Vault.newPrice at divided
    simp only [sat_bind, divided, bought, sat_demand, Option.some.injEq, forall_eq', reduceCtorEq,
      false_implies, and_true]
    refine ⟨_, rfl, ?_, ?_⟩
    · show u.basepool.totalShares + (shares - u.basepool.totalShares) = _
      omega
    · show u.ownerShares + (shares - u.basepool.totalShares) = _
      omega
  obtain ⟨⟨⟩, _, run, u', rfl, same⟩ := spec.returns
  exact ⟨u', run, same⟩

theorem Settles.quiet (settles : Settles u u') : u' = u ∨ u'.Quiet := by
  cases settles with
  | idle => exact .inl rfl
  | mark priced rounded => exact .inr ⟨_, _, priced, rounded, .inl le_rfl⟩
  | gain gains divided bought => exact .inr (gains.quiet_gained divided bought)

theorem Settles.gains (settles : Settles u u') :
    u.lastSharePriceCheckpoint ≤ u'.lastSharePriceCheckpoint ∧
      u'.basepool.totalValue = u.basepool.totalValue ∧
      ∃ m, u'.basepool.totalShares = u.basepool.totalShares + m ∧
        u'.ownerShares = u.ownerShares + m := by
  cases settles with
  | idle => exact ⟨le_rfl, rfl, 0, rfl, rfl⟩
  | mark _ _ unmarked => exact ⟨unmarked.le.trans (Nat.zero_le _), rfl, 0, rfl, rfl⟩
  | gain gains => exact ⟨gains.checkpoint_le_newPrice, rfl, _, rfl, rfl⟩

end VaultPallet

def Mock.risenVault (commission : List (Event Mock.Account ℕ)) : List (Event Mock.Account ℕ) :=
  Mock.opening (10 ^ 15) (10 ^ 15) ++ [
    .signed Mock.alice .createVault,
    .signed Mock.bob (.contributeVault 1 (3 * 10 ^ 13))] ++ commission ++ [
    .signed Mock.alice (.contributeStakePool 0 (3 * 10 ^ 13) (some 1)),
    .signed Mock.alice (.startComputing 0 7 (10 ^ 12)),
    Mock.settle 7 (10 * 2 ^ 64)]

def Mock.settlement (s : State Mock.Account ℕ) : Option (Vault Mock.Account × Vault Mock.Account) :=
  match VaultPallet.doGainOwnerShare 1 s with
  | .ok (_, s') => do
    let u ← Mock.vaultOf s
    let u' ← Mock.vaultOf s'
    some (u, u')
  | .error _ => none

theorem Mock.settled_of_settlement {s : State Mock.Account ℕ} {u u' : Vault Mock.Account}
    (h : Mock.settlement s = some (u, u')) : s.pools 1 = some (.vault u) ∧
      ∃ s', VaultPallet.doGainOwnerShare 1 s = .ok ((), s') ∧ s'.pools 1 = some (.vault u') := by
  unfold Mock.settlement at h
  split at h
  case h_1 s' settled =>
    obtain ⟨_, before, h⟩ := Option.bind_eq_some_iff.1 h
    obtain ⟨_, after, h⟩ := Option.bind_eq_some_iff.1 h
    cases h
    exact ⟨Mock.pools_of_vaultOf before, s', settled, Mock.pools_of_vaultOf after⟩
  case h_2 => cases h

open VaultPallet in
/-- Settling the owner shares again at once gives none. -/
theorem owner_settlement_idempotent {s s' : State A W} {pid : ℕ} {u : Vault A}
    (stored : s.pools pid = some (.vault u)) (settled : doGainOwnerShare pid s = .ok ((), s')) :
    ∃ u' m, s'.pools pid = some (.vault u') ∧
      u.lastSharePriceCheckpoint ≤ u'.lastSharePriceCheckpoint ∧
      u'.basepool.totalValue = u.basepool.totalValue ∧
      u'.basepool.totalShares = u.basepool.totalShares + m ∧
      u'.ownerShares = u.ownerShares + m ∧
      ∃ u'' s'', doGainOwnerShare pid s' = .ok ((), s'') ∧ s''.pools pid = some (.vault u'') ∧
        u''.basepool.totalShares = u'.basepool.totalShares ∧ u''.ownerShares = u'.ownerShares := by
  obtain ⟨u₀, u', stored₀, settles, rfl⟩ := (doGainOwnerShare_settles pid s).of_ok settled
  cases stored.symm.trans stored₀
  obtain ⟨checkpoint, value, m, shares, owner⟩ := settles.gains
  refine ⟨u', m, State.putPool_self _ _ _, checkpoint, value, shares, owner, ?_⟩
  rcases settles.quiet with rfl | quiet
  · -- Nothing changed, so the same happens again.
    rw [State.putPool_stored stored] at settled ⊢
    exact ⟨u', s, settled, stored, rfl, rfl⟩
  · obtain ⟨u'', run, shares', owner'⟩ :=
      doGainOwnerShare_of_quiet (State.putPool_self s pid (.vault u')) quiet
    exact ⟨u'', _, run, State.putPool_self _ _ _, shares', owner'⟩

theorem owner_settlement_idempotent_risen : ∃ s s' : State Mock.Account ℕ, ∃ u u' m,
    s.pools 1 = some (.vault u) ∧ VaultPallet.doGainOwnerShare 1 s = .ok ((), s') ∧
      s'.pools 1 = some (.vault u') ∧ u.ownerShares < u'.ownerShares ∧
      u'.ownerShares = u.ownerShares + m ∧
      ∃ u'' s'', VaultPallet.doGainOwnerShare 1 s' = .ok ((), s'') ∧
        s''.pools 1 = some (.vault u'') ∧ u''.ownerShares = u'.ownerShares := by
  obtain ⟨s, -, gained⟩ := Mock.exists_reachable Mock.runtime (fun _ _ => True)
    (Mock.risenVault [.signed Mock.alice (.setVaultPayoutPref 1 (some ⟨500000, by decide⟩))])
    (fun s => (Mock.settlement s).any fun (u, u') => u.ownerShares < u'.ownerShares)
    (by decide +kernel)
  obtain ⟨⟨u, u'⟩, settlement, more⟩ := (Option.any_eq_true _ _).1 gained
  obtain ⟨stored, s', settled, stored'⟩ := Mock.settled_of_settlement settlement
  obtain ⟨u₁, m, stored₁, -, -, -, owner, u'', s'', again, stored'', -, same⟩ :=
    owner_settlement_idempotent stored settled
  cases stored'.symm.trans stored₁
  exact ⟨s, s', u, u', m, stored, settled, stored', of_decide_eq_true more, owner, u'', s'', again,
    stored'', same⟩

open VaultPallet in
/-- The owner of a vault gains at most the commission, up to rounding. -/
theorem owner_commission_le {s s' : State A W} {pid : ℕ} {u u' : Vault A}
    (stored : s.pools pid = some (.vault u)) (settled : doGainOwnerShare pid s = .ok ((), s'))
    (stored' : s'.pools pid = some (.vault u')) (marked : 0 < u.lastSharePriceCheckpoint)
    (mints : u.ownerShares < u'.ownerShares) :
    ((u'.ownerShares : ℚ) - u.ownerShares) *
        (u'.basepool.totalValue / u'.basepool.totalShares) ≤
      (u.commission.getD Permill.zero).parts / 1000000 *
        (u.basepool.totalValue - u.lastSharePriceCheckpoint / PHA * u.basepool.totalShares) +
        2 * u.basepool.totalShares / PHA + 1 := by
  obtain ⟨u₀, u₁, stored₀, settles, rfl⟩ := (doGainOwnerShare_settles pid s).of_ok settled
  cases stored.symm.trans stored₀
  cases (State.putPool_self s pid (.vault u₁)).symm.trans stored'
  cases settles with
  | idle => exact absurd mints (Nat.lt_irrefl _)
  | mark _ _ unmarked => exact absurd unmarked marked.ne'
  | @gain price divisor current shares gains divided bought =>
    have more : u.basepool.totalShares < shares := by
      change u.ownerShares < u.ownerShares + (shares - u.basepool.totalShares) at mints
      omega
    have total : (u.gained (u.newPrice current)
        (shares - u.basepool.totalShares)).basepool.totalShares = shares := by
      show u.basepool.totalShares + (shares - u.basepool.totalShares) = shares
      omega
    have gain : ((u.gained (u.newPrice current)
        (shares - u.basepool.totalShares)).ownerShares : ℚ) - u.ownerShares =
          shares - u.basepool.totalShares := by
      show ((u.ownerShares + (shares - u.basepool.totalShares) : ℕ) : ℚ) - u.ownerShares = _
      rw [Nat.cast_add, Nat.cast_sub more.le]
      ring
    rw [total, gain]
    exact gains.worth_le divided bought more

theorem owner_commission_le_half : ∃ s s' : State Mock.Account ℕ, ∃ u u',
    s.pools 1 = some (.vault u) ∧ VaultPallet.doGainOwnerShare 1 s = .ok ((), s') ∧
      s'.pools 1 = some (.vault u') ∧ u.ownerShares < u'.ownerShares ∧
      ((u'.ownerShares : ℚ) - u.ownerShares) *
        (u'.basepool.totalValue / u'.basepool.totalShares) ≤
      (u.commission.getD Permill.zero).parts / 1000000 *
        (u.basepool.totalValue - u.lastSharePriceCheckpoint / PHA * u.basepool.totalShares) +
        2 * u.basepool.totalShares / PHA + 1 := by
  obtain ⟨s, -, gained⟩ := Mock.exists_reachable Mock.runtime (fun _ _ => True)
    (Mock.risenVault [.signed Mock.alice (.setVaultPayoutPref 1 (some ⟨500000, by decide⟩))])
    (fun s => (Mock.settlement s).any fun (u, u') =>
      0 < u.lastSharePriceCheckpoint ∧ u.ownerShares < u'.ownerShares) (by decide +kernel)
  obtain ⟨⟨u, u'⟩, settlement, gained⟩ := (Option.any_eq_true _ _).1 gained
  obtain ⟨stored, s', settled, stored'⟩ := Mock.settled_of_settlement settlement
  obtain ⟨marked, more⟩ := of_decide_eq_true gained
  exact ⟨s, s', u, u', stored, settled, stored', more,
    owner_commission_le stored settled stored' marked more⟩

theorem owner_gains_without_commission : ∃ s, Reachable Mock.runtime (fun _ _ => True) s ∧
    ∃ s' u u', s.pools 1 = some (.vault u) ∧ u.commission = none ∧
      0 < u.lastSharePriceCheckpoint ∧ VaultPallet.doGainOwnerShare 1 s = .ok ((), s') ∧
      s'.pools 1 = some (.vault u') ∧ u'.ownerShares = u.ownerShares + 7 := by
  obtain ⟨s, reached, gained⟩ := Mock.exists_reachable Mock.runtime (fun _ _ => True)
    (Mock.risenVault []) (fun s => (Mock.settlement s).any fun (u, u') =>
      u.commission = none ∧ 0 < u.lastSharePriceCheckpoint ∧ u'.ownerShares = u.ownerShares + 7)
    (by decide +kernel)
  obtain ⟨⟨u, u'⟩, settlement, gained⟩ := (Option.any_eq_true _ _).1 gained
  obtain ⟨stored, s', settled, stored'⟩ := Mock.settled_of_settlement settlement
  obtain ⟨none, marked, seven⟩ := of_decide_eq_true gained
  exact ⟨s, reached, s', u, u', stored, none, marked, settled, stored', seven⟩

end Cyrux
