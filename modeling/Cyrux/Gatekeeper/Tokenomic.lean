import Cyrux.Lib.FixedPoint

/-!
# The value of a worker
-/

namespace Cyrux.Economics

abbrev FixedPoint := Fixed 64

def fp (n : ℕ) : FixedPoint := Fixed.wrap (n * 2 ^ 64)

structure Params where
  rho : FixedPoint
  slashRate : FixedPoint
  budgetPerBlock : FixedPoint
  vMax : FixedPoint
  costK : FixedPoint
  costB : FixedPoint
  treasuryRation : FixedPoint
  payoutRation : FixedPoint
  heartbeatWindow : ℕ

structure TokenomicParameters where
  rho : FixedPoint
  budgetPerBlock : FixedPoint
  vMax : FixedPoint
  costK : FixedPoint
  costB : FixedPoint
  slashRate : FixedPoint
  treasuryRatio : FixedPoint
  heartbeatWindow : ℕ

def TokenomicParameters.into (params : TokenomicParameters) : Params where
  rho := params.rho
  slashRate := params.slashRate
  budgetPerBlock := params.budgetPerBlock
  vMax := params.vMax
  costK := params.costK
  costB := params.costB
  treasuryRation := params.treasuryRatio
  payoutRation := (fp 1).sub params.treasuryRatio
  heartbeatWindow := params.heartbeatWindow

def testParams : Params where
  rho := Fixed.wrap 18446756370313412349
  slashRate := Fixed.wrap 61489146912365
  budgetPerBlock := fp 100
  vMax := fp 30000
  costK := Fixed.wrap 291740030655
  costB := Fixed.wrap 621866907450610
  treasuryRation := Fixed.wrap 3689348814741910323
  payoutRation := Fixed.wrap 14757395258967641293
  heartbeatWindow := 10

structure TokenomicInfo where
  v : FixedPoint := fp 0
  vDeductible : FixedPoint := fp 0
  vUpdateAt : ℕ := 0
  vUpdateBlock : ℕ := 0
  iterationLast : ℕ := 0
  challengeTimeLast : ℕ := 0
  pBench : FixedPoint := fp 0
  pInstant : FixedPoint := fp 0
  confidenceLevel : ℕ := 0
  contractRunning : Bool := false

def square (v : FixedPoint) : FixedPoint := v.mul v

def minimum (x y : FixedPoint) : FixedPoint := if x ≤ y then x else y

def clamp? (x low high : FixedPoint) : Option FixedPoint :=
  if low ≤ high then some (if x ≤ low then low else minimum x high) else none

def confScore (level : ℕ) : FixedPoint :=
  if level = 1 ∨ level = 2 ∨ level = 3 ∨ level = 128 then fp 1
  else if level = 4 then Fixed.wrap 14757395258967641293
  else if level = 5 then Fixed.wrap 12912720851596686131
  else fp 0

namespace TokenomicInfo

def p (self : TokenomicInfo) : FixedPoint :=
  if self.contractRunning then self.pBench else self.pInstant

def perfMultiplier (self : TokenomicInfo) : Option FixedPoint :=
  if self.pBench = fp 0 then some (fp 1) else self.p.div? self.pBench

def updateVIdle (self : TokenomicInfo) (params : Params) : Option TokenomicInfo := do
  let costIdle := (params.costK.mul self.pBench).add params.costB
  let perfMultiplier ← self.perfMultiplier
  let deltaV := perfMultiplier.mul (((params.rho.sub (fp 1)).mul self.v).add costIdle)
  some { self with
    v := minimum (self.v.add deltaV) params.vMax
    vDeductible := self.vDeductible.add deltaV }

def share (sqrt : FixedPoint → FixedPoint) (self : TokenomicInfo) : FixedPoint :=
  sqrt ((square self.v).add
    (square (((fp 2).mul self.p).mul (confScore self.confidenceLevel))))

def updateVHeartbeat (sqrt : FixedPoint → FixedPoint) (self : TokenomicInfo) (params : Params)
    (sumShare : FixedPoint) (nowMs blockNumber : ℕ) :
    Option (TokenomicInfo × FixedPoint × FixedPoint) :=
  if sumShare = fp 0 then some (self, fp 0, fp 0)
  else if self.vDeductible = fp 0 then some (self, fp 0, fp 0)
  else if blockNumber ≤ self.vUpdateBlock then some (self, fp 0, fp 0)
  else if self.share sqrt = fp 0 then some (self, fp 0, fp 0)
  else do
    let blocks := fp (blockNumber - self.vUpdateBlock)
    let part ← (self.share sqrt).div? sumShare
    let budget := (part.mul params.budgetPerBlock).mul blocks
    let actualPayout := budget.mul params.payoutRation
    let actualTreasury := budget.mul params.treasuryRation
    let actualVDeduct ← clamp? self.vDeductible (fp 0) actualPayout
    some ({ self with
      v := self.v.sub actualVDeduct
      vDeductible := fp 0
      vUpdateAt := nowMs
      vUpdateBlock := blockNumber }, actualPayout, actualTreasury)

def updateVRecover (self : TokenomicInfo) (nowMs blockNumber : ℕ) : TokenomicInfo :=
  { self with
    vDeductible := fp 0
    vUpdateAt := nowMs
    vUpdateBlock := blockNumber }

def updateVSlash (self : TokenomicInfo) (params : Params) : TokenomicInfo :=
  { self with
    v := self.v.sub (self.v.mul params.slashRate)
    vDeductible := fp 0 }

def updatePInstant (self : TokenomicInfo) (now iterations : ℕ) (contractRunning : Bool) :
    Option TokenomicInfo :=
  if now ≤ self.challengeTimeLast then some { self with contractRunning := contractRunning }
  else do
    let iterationLast := min iterations self.iterationLast
    let dt : FixedPoint := Fixed.wrap ((fp (now - self.challengeTimeLast)).bits / 1000)
    let rate ← (fp (iterations - iterationLast)).div? dt
    let p : FixedPoint := Fixed.wrap (rate.bits * 6)
    some { self with
      contractRunning := contractRunning
      iterationLast := iterationLast
      pInstant := minimum p (self.pBench.mul (Fixed.wrap 22136092888451461939)) }

/-! ## Nothing panics -/

theorem bind_ne_none {α β : Type} {x : Option α} {f : α → Option β} (hx : x ≠ none)
    (hf : ∀ a, f a ≠ none) : (x >>= f) ≠ none := by
  cases x with
  | none => exact absurd rfl hx
  | some a => exact hf a

theorem div?_ne_none {x y : FixedPoint} (h : y ≠ fp 0) : x.div? y ≠ none := by
  unfold Fixed.div?
  rw [if_neg]
  · exact Option.some_ne_none _
  · intro hbits
    apply h
    apply Fixed.ext_bits
    rw [hbits]
    rfl

theorem clamp?_zero (x high : FixedPoint) : clamp? x (fp 0) high ≠ none := by
  unfold clamp?
  rw [if_pos]
  · exact Option.some_ne_none _
  · exact Nat.zero_le high.bits

variable (self : TokenomicInfo)

theorem updateVIdle_ne_none (params : Params) : self.updateVIdle params ≠ none := by
  apply bind_ne_none
  · unfold perfMultiplier
    split
    · exact Option.some_ne_none _
    · rename_i hbench
      exact div?_ne_none hbench
  · intro _
    exact Option.some_ne_none _

theorem updateVHeartbeat_ne_none (sqrt : FixedPoint → FixedPoint) (params : Params)
    (sumShare : FixedPoint) (nowMs blockNumber : ℕ) :
    self.updateVHeartbeat sqrt params sumShare nowMs blockNumber ≠ none := by
  unfold updateVHeartbeat
  split
  · exact Option.some_ne_none _
  · rename_i hsum
    split_ifs
    · exact Option.some_ne_none _
    · exact Option.some_ne_none _
    · exact Option.some_ne_none _
    · apply bind_ne_none (div?_ne_none hsum)
      intro part
      apply bind_ne_none (clamp?_zero _ _)
      intro _
      exact Option.some_ne_none _

theorem elapsed_ne_zero {n : ℕ} (hpos : 0 < n) (hn : n < 2 ^ 64) :
    (Fixed.wrap ((fp n).bits / 1000) : FixedPoint) ≠ fp 0 := by
  intro heq
  have hbits := congrArg Fixed.bits heq
  have hfp : (fp n).bits = n * 2 ^ 64 := Fixed.wrap_bits_of_lt (by omega)
  rw [hfp, Fixed.wrap_bits_of_lt (by omega)] at hbits
  change _ = 0 * 2 ^ 64 % 2 ^ 128 at hbits
  omega

theorem updatePInstant_ne_none {now : ℕ} (hnow : now < 2 ^ 64) (iterations : ℕ)
    (contractRunning : Bool) : self.updatePInstant now iterations contractRunning ≠ none := by
  unfold updatePInstant
  split
  · exact Option.some_ne_none _
  · apply bind_ne_none
    · apply div?_ne_none
      exact elapsed_ne_zero (by omega) (by omega)
    · intro _
      exact Option.some_ne_none _

end TokenomicInfo

end Cyrux.Economics
