import Mathlib.Data.Nat.Sqrt
import Cyrux.Gatekeeper.Tokenomic
import Cyrux.Lib.Exec

/-!
# The range of a worker's value
-/

namespace Cyrux.Economics

inductive Update
  | idle
  | heartbeat (sumShare : FixedPoint) (nowMs blockNumber : ℕ)
  | slash
  | recover (nowMs blockNumber : ℕ)
  | performance (now iterations : ℕ) (contractRunning : Bool)

def Update.apply (sqrt : FixedPoint → FixedPoint) (params : Params) (self : TokenomicInfo) :
    Update → Option TokenomicInfo
  | idle => self.updateVIdle params
  | heartbeat sumShare nowMs blockNumber =>
    (self.updateVHeartbeat sqrt params sumShare nowMs blockNumber).map Prod.fst
  | slash => some (self.updateVSlash params)
  | recover nowMs blockNumber => some (self.updateVRecover nowMs blockNumber)
  | performance now iterations contractRunning =>
    self.updatePInstant now iterations contractRunning

def TokenomicInfo.deltaV (self : TokenomicInfo) (params : Params) : Option FixedPoint := do
  let perfMultiplier ← self.perfMultiplier
  some (perfMultiplier.mul
    (((params.rho.sub (fp 1)).mul self.v).add ((params.costK.mul self.pBench).add params.costB)))

def Update.Fits (params : Params) (self : TokenomicInfo) : Update → Prop
  | idle => ∀ deltaV, self.deltaV params = some deltaV →
      self.v.bits + deltaV.bits < 2 ^ 128 ∧
        self.vDeductible.bits + deltaV.bits ≤ params.vMax.bits
  | _ => True

structure InRange (params : Params) (info : TokenomicInfo) : Prop where
  v_le : info.v ≤ params.vMax
  owed : info.vDeductible ≤ info.v

theorem minimum_le_left (x y : FixedPoint) : minimum x y ≤ x := by
  unfold minimum
  split
  · exact le_refl x.bits
  · rename_i h
    exact (Nat.not_le.1 h).le

theorem minimum_le_right (x y : FixedPoint) : minimum x y ≤ y := by
  unfold minimum
  split
  · assumption
  · exact le_refl y.bits

theorem clamp?_le {x high d : FixedPoint} (clamped : clamp? x (fp 0) high = some d) : d ≤ x := by
  unfold clamp? at clamped
  split at clamped
  · split at clamped
    · cases clamped
      exact Nat.zero_le x.bits
    · cases clamped
      exact minimum_le_left x high
  · cases clamped

namespace TokenomicInfo

variable {sqrt : FixedPoint → FixedPoint} {params : Params} {self self' : TokenomicInfo}

theorem updateVIdle_eq : self.updateVIdle params = (self.deltaV params).map fun deltaV =>
    { self with
      v := minimum (self.v.add deltaV) params.vMax
      vDeductible := self.vDeductible.add deltaV } := by
  unfold updateVIdle deltaV
  cases self.perfMultiplier <;> rfl

theorem updateVHeartbeat_cases {sumShare payout treasury : FixedPoint} {nowMs blockNumber : ℕ}
    (settled : self.updateVHeartbeat sqrt params sumShare nowMs blockNumber =
      some (self', payout, treasury)) :
    (self' = self ∧ payout = fp 0 ∧ treasury = fp 0) ∨
    (self.vUpdateBlock < blockNumber ∧ ∃ part d, (self.share sqrt).div? sumShare = some part ∧
      payout = ((part.mul params.budgetPerBlock).mul
        (fp (blockNumber - self.vUpdateBlock))).mul params.payoutRation ∧
      treasury = ((part.mul params.budgetPerBlock).mul
        (fp (blockNumber - self.vUpdateBlock))).mul params.treasuryRation ∧
      clamp? self.vDeductible (fp 0) payout = some d ∧
      self' = { self with
        v := self.v.sub d
        vDeductible := fp 0
        vUpdateAt := nowMs
        vUpdateBlock := blockNumber }) := by
  unfold updateVHeartbeat at settled
  split_ifs at settled with _ _ late _
  · cases settled
    exact .inl ⟨rfl, rfl, rfl⟩
  · cases settled
    exact .inl ⟨rfl, rfl, rfl⟩
  · cases settled
    exact .inl ⟨rfl, rfl, rfl⟩
  · cases settled
    exact .inl ⟨rfl, rfl, rfl⟩
  · obtain ⟨part, divided, settled⟩ := Option.bind_eq_some_iff.1 settled
    obtain ⟨d, clamped, settled⟩ := Option.bind_eq_some_iff.1 settled
    cases settled
    exact .inr ⟨Nat.not_le.1 late, part, d, divided, rfl, rfl, clamped, rfl⟩

theorem updatePInstant_value {now iterations : ℕ} {contractRunning : Bool}
    (updated : self.updatePInstant now iterations contractRunning = some self') :
    self'.v = self.v ∧ self'.vDeductible = self.vDeductible ∧
      self'.vUpdateBlock = self.vUpdateBlock := by
  unfold updatePInstant at updated
  split_ifs at updated
  · cases updated
    exact ⟨rfl, rfl, rfl⟩
  · obtain ⟨rate, -, updated⟩ := Option.bind_eq_some_iff.1 updated
    cases updated
    exact ⟨rfl, rfl, rfl⟩

/-! ## One update -/

theorem updateVHeartbeat_covered (range : InRange params self)
    {sumShare payout treasury : FixedPoint} {nowMs blockNumber : ℕ}
    (settled : self.updateVHeartbeat sqrt params sumShare nowMs blockNumber =
      some (self', payout, treasury)) :
    ∃ d, clamp? self.vDeductible (fp 0) payout = some d ∧ d ≤ self.v ∧
      self'.v.bits = self.v.bits - d.bits := by
  have covers : ∀ {d}, clamp? self.vDeductible (fp 0) payout = some d → d ≤ self.v :=
    fun clamped => Nat.le_trans (clamp?_le clamped) range.owed
  rcases updateVHeartbeat_cases settled with ⟨rfl, rfl, -⟩ | ⟨-, _, d, -, -, -, clamped, rfl⟩
  · obtain ⟨d, clamped⟩ := Option.ne_none_iff_exists'.1 (clamp?_zero self'.vDeductible (fp 0))
    have none : d.bits = 0 := by
      unfold clamp? at clamped
      split_ifs at clamped
      · cases clamped
        rfl
      · cases clamped
        exact Nat.le_zero.1 (minimum_le_right _ (fp 0))
    refine ⟨d, clamped, covers clamped, ?_⟩
    rw [none, Nat.sub_zero]
  · exact ⟨d, clamped, covers clamped, Fixed.sub_bits (covers clamped)⟩

end TokenomicInfo

open TokenomicInfo

variable {sqrt : FixedPoint → FixedPoint} {params : Params} {self self' : TokenomicInfo}

theorem InRange.step (range : InRange params self) (slashRate : params.slashRate ≤ fp 1)
    {u : Update} (fits : u.Fits params self) (updated : u.apply sqrt params self = some self') :
    InRange params self' := by
  cases u with
  | idle =>
    unfold Update.apply at updated
    rw [updateVIdle_eq] at updated
    obtain ⟨deltaV, grown, rfl⟩ := Option.map_eq_some_iff.1 updated
    obtain ⟨small, owed⟩ := fits deltaV grown
    have le : self.vDeductible.bits ≤ self.v.bits := range.owed
    refine ⟨minimum_le_right _ _, ?_⟩
    have v : (self.v.add deltaV).bits = self.v.bits + deltaV.bits := Fixed.add_bits small
    have deductible : (self.vDeductible.add deltaV).bits =
        self.vDeductible.bits + deltaV.bits := Fixed.add_bits (by omega)
    show (self.vDeductible.add deltaV).bits ≤ (minimum (self.v.add deltaV) params.vMax).bits
    unfold minimum
    split_ifs
    · omega
    · omega
  | heartbeat sumShare nowMs blockNumber =>
    obtain ⟨⟨self', payout, treasury⟩, settled, rfl⟩ := Option.map_eq_some_iff.1 updated
    obtain ⟨d, clamped, -, v⟩ := updateVHeartbeat_covered range settled
    have le : self.v.bits ≤ params.vMax.bits := range.v_le
    refine ⟨?_, ?_⟩
    · show self'.v.bits ≤ params.vMax.bits
      omega
    · rcases updateVHeartbeat_cases settled with ⟨rfl, -, -⟩ | ⟨-, _, _, -, -, -, -, rfl⟩
      · exact range.owed
      · exact Nat.zero_le _
  | slash =>
    cases updated
    have le : self.v.bits ≤ params.vMax.bits := range.v_le
    have slashed : (self.v.mul params.slashRate).bits ≤ self.v.bits := by
      refine (Fixed.mul_bits_le _ _).trans (Nat.div_le_of_le_mul ?_)
      rw [Nat.mul_comm]
      exact Nat.mul_le_mul_right _ slashRate
    have v := Fixed.sub_bits (x := self.v) (y := self.v.mul params.slashRate) slashed
    refine ⟨?_, Nat.zero_le _⟩
    show (self.v.sub (self.v.mul params.slashRate)).bits ≤ params.vMax.bits
    omega
  | recover nowMs blockNumber =>
    cases updated
    exact ⟨range.v_le, Nat.zero_le _⟩
  | performance now iterations contractRunning =>
    obtain ⟨v, deductible, -⟩ := updatePInstant_value updated
    exact ⟨v ▸ range.v_le, v ▸ deductible ▸ range.owed⟩

def Fitting (sqrt : FixedPoint → FixedPoint) (params : Params) (self self' : TokenomicInfo) :
    Prop :=
  ∃ u : Update, u.Fits params self ∧ u.apply sqrt params self = some self'

theorem value_in_range (slashRate : params.slashRate ≤ fp 1)
    (reached : Reach (fun self => self.v ≤ params.vMax ∧ self.vDeductible = fp 0)
      (Fitting sqrt params) self) :
    self.v ≤ params.vMax ∧ ∀ sumShare nowMs blockNumber self' payout treasury,
      self.updateVHeartbeat sqrt params sumShare nowMs blockNumber =
        some (self', payout, treasury) →
      ∃ d, clamp? self.vDeductible (fp 0) payout = some d ∧ d ≤ self.v ∧
        self'.v.bits = self.v.bits - d.bits := by
  have range : InRange params self := by
    refine reached.invariant ?_ ?_
    · rintro self ⟨v_le, none⟩
      exact ⟨v_le, none ▸ Nat.zero_le _⟩
    · rintro self self' range ⟨u, fits, updated⟩
      exact range.step slashRate fits updated
  exact ⟨range.v_le, fun _ _ _ _ _ _ settled => updateVHeartbeat_covered range settled⟩

def root (x : FixedPoint) : FixedPoint := Fixed.wrap (Nat.sqrt (x.bits * 2 ^ 64))

theorem root_square {n : ℕ} (small : n * n < 2 ^ 64) : root (fp (n * n)) = fp n := by
  have bits : (fp (n * n)).bits = n * n * 2 ^ 64 := Fixed.wrap_bits_of_lt (by omega)
  unfold root
  rw [bits, show n * n * 2 ^ 64 * 2 ^ 64 = n * 2 ^ 64 * (n * 2 ^ 64) by ring, Nat.sqrt_eq]
  rfl

def growing (gain : ℕ) : Params where
  rho := fp 1
  slashRate := fp 0
  budgetPerBlock := fp 1000
  vMax := fp 10
  costK := fp 0
  costB := fp gain
  treasuryRation := fp 0
  payoutRation := fp 1
  heartbeatWindow := 10

theorem value_in_range_grown : ∃ self : TokenomicInfo, self.v = fp 6 ∧ self.vDeductible = fp 1 ∧
    self.v ≤ (growing 1).vMax ∧ ∀ sumShare nowMs blockNumber self' payout treasury,
      self.updateVHeartbeat root (growing 1) sumShare nowMs blockNumber =
        some (self', payout, treasury) →
      ∃ d, clamp? self.vDeductible (fp 0) payout = some d ∧ d ≤ self.v ∧
        self'.v.bits = self.v.bits - d.bits := by
  have start : Reach (fun self => self.v ≤ (growing 1).vMax ∧ self.vDeductible = fp 0)
      (Fitting root (growing 1)) { v := fp 5 } := .init ⟨by decide +kernel, rfl⟩
  have grown : Fitting root (growing 1) { v := fp 5 } { v := fp 6, vDeductible := fp 1 } := by
    refine ⟨.idle, fun deltaV gain => ?_, rfl⟩
    have one : some (fp 1) = some deltaV := gain
    cases one
    decide +kernel
  exact ⟨_, rfl, rfl, value_in_range (by decide +kernel) (start.step grown)⟩

theorem value_underflows : ∃ params : Params, fp 1 ≤ params.rho ∧ params.slashRate ≤ fp 1 ∧
    params.payoutRation ≤ fp 1 ∧ ∃ start grown taken : TokenomicInfo, ∃ payout treasury d,
      start.v ≤ params.vMax ∧ start.vDeductible = fp 0 ∧
      start.updateVIdle params = some grown ∧
      grown.updateVHeartbeat root params (grown.share root) 0 1 =
        some (taken, payout, treasury) ∧
      clamp? grown.vDeductible (fp 0) payout = some d ∧ ¬ d ≤ grown.v ∧
      ¬ taken.v ≤ params.vMax := by
  have share : ({ v := fp 10, vDeductible := fp 20 } : TokenomicInfo).share root = fp 10 := by
    unfold TokenomicInfo.share
    exact root_square (n := 10) (by norm_num)
  have settled : ({ v := fp 10, vDeductible := fp 20 } : TokenomicInfo).updateVHeartbeat root
      (growing 20) (fp 10) 0 1 =
        some ({ v := (fp 10).sub (fp 20), vUpdateBlock := 1 }, fp 1000, fp 0) := by
    unfold updateVHeartbeat
    rw [share]
    rfl
  refine ⟨growing 20, by decide +kernel, by decide +kernel, by decide +kernel, { v := fp 10 },
    { v := fp 10, vDeductible := fp 20 }, { v := (fp 10).sub (fp 20), vUpdateBlock := 1 },
    fp 1000, fp 0, fp 20, by decide +kernel, rfl, rfl, ?_, rfl, by decide +kernel,
    by decide +kernel⟩
  rw [share]
  exact settled

end Cyrux.Economics
