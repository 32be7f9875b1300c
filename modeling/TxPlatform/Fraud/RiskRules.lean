import TxPlatform.Dotnet.DecimalArithmetic
import TxPlatform.Faults.Injector

/-! # The risk rules of FraudService (RiskRules.cs, EvaluationEndpoints.cs)

| here | there |
| --- | --- |
| `evaluate` | `RiskRules.Evaluate` (`RiskRules.cs:20-34`) |
| `score` | its `(int)Math.Min(79, …)`, with the exception of each operation |
| `evaluateAsync` | `EvaluateAsync` (`EvaluationEndpoints.cs:32-53`), which checks neither number |
| `PositiveLimits` | limits a deployment can mean: both positive |

Above its limits an order is rejected before anything is computed. Within them the score is defined
and between 0 and 79 as long as what it rounds off is above −1 (`evaluatesWell_iff`), which every
amount and count that is not negative gives (`sharesAboveMinusOne_of_nonneg`).
-/

namespace TxPlatform

structure RiskDecision where
  approved : Bool
  rule : String
  riskScore : I32
  deriving DecidableEq

structure RiskOptions where
  maxOrderAmount : Decimal := ⟨5000, 0, by decide, Decimal.whole_scaled⟩
  maxItemCount : I32 := 60

/-- Options with both limits positive. -/
structure PositiveLimits extends RiskOptions where
  amount_pos : 0 < maxOrderAmount.coefficient
  items_pos : 0 < maxItemCount.toInt

namespace RiskRules

/-- `(int)Math.Min(79, totalAmount / options.MaxOrderAmount * 70 + itemCount / (decimal)options.MaxItemCount * 9)`. -/
def score (totalAmount : Decimal) (itemCount : I32) (options : RiskOptions) : Except Exn I32 := do
  let amountShare ← totalAmount.div options.maxOrderAmount
  let amountPart ← Decimal.checked (amountShare.mulInt 70)
  let itemShare ← (Decimal.ofI32 itemCount).div (Decimal.ofI32 options.maxItemCount)
  let itemPart ← Decimal.checked (itemShare.mulInt 9)
  let sum ← Decimal.checked (amountPart.add itemPart)
  ((Decimal.ofI32 79).min sum).toI32

def evaluate (totalAmount : Decimal) (itemCount : I32) (options : RiskOptions) : Except Exn RiskDecision :=
  if options.maxOrderAmount.less totalAmount then .ok ⟨false, "amount_threshold", 90⟩
  else if options.maxItemCount.toInt < itemCount.toInt then .ok ⟨false, "quantity_threshold", 80⟩
  else do
    let score ← score totalAmount itemCount options
    return ⟨true, "within_limits", score⟩

end RiskRules

/-! ## The handler -/

structure EvaluateOrderRequest where
  orderId : Guid
  totalAmount : Decimal
  itemCount : I32

namespace EvaluationEndpoints

def evaluateOperation : String := "fraud.evaluate"

def evaluationBody (orderId : Guid) (decision : RiskDecision) : Json :=
  .obj [("orderId", .str orderId.formatD),
    ("decision", .str (if decision.approved then "approved" else "rejected")), ("rule", .str decision.rule),
    ("riskScore", .int decision.riskScore.toInt)]

/-- The decision after a fault decision that does not fail the request. -/
def decideRisk (fault : FaultDecision) (request : EvaluateOrderRequest) (options : RiskOptions) :
    Except Exn RiskDecision :=
  if fault.outcome = .reject then .ok ⟨false, "simulated_rejection", 99⟩
  else RiskRules.evaluate request.totalAmount request.itemCount options

variable {φ : Type}

/-- `EvaluateAsync`. -/
def evaluateAsync (apply : ApplyAsync φ) (request : EvaluateOrderRequest) (options : RiskOptions) (faults : φ) :
    Except Exn HttpResponse × φ :=
  match apply evaluateOperation .beforeEffect request.orderId.formatD faults with
  | (.error e, faults) => (.error e, faults)
  | (.ok fault, faults) =>
    if fault.outcome = .fail then (.ok (Results.injectedFault fault.statusCode), faults)
    else
      match decideRisk fault request options with
      | .error e => (.error e, faults)
      | .ok decision =>
        match apply evaluateOperation .afterEffect request.orderId.formatD faults with
        | (.error e, faults) => (.error e, faults)
        | (.ok _, faults) => (.ok (Results.ok (evaluationBody request.orderId decision)), faults)

end EvaluationEndpoints

/-! ## The score -/

namespace RiskRules

open Decimal

/-- Amount and count are within their limits. -/
def WithinLimits (request : EvaluateOrderRequest) (options : RiskOptions) : Prop :=
  request.totalAmount.value ≤ options.maxOrderAmount.value ∧
    request.itemCount.toInt ≤ options.maxItemCount.toInt

/-- What the rules owe a request: a decision, an approval exactly within the limits, and then a
score from 0 to 79. -/
def EvaluatesWell (request : EvaluateOrderRequest) (options : RiskOptions) : Prop :=
  ∃ decision, evaluate request.totalAmount request.itemCount options = .ok decision ∧
    (decision.approved = true ↔ WithinLimits request options) ∧
    (decision.approved = true → 0 ≤ decision.riskScore.toInt ∧ decision.riskScore.toInt ≤ 79)

/-- 70 shares of the amount limit and 9 of the count limit are more than −1, the shares and the
second product rounded as decimals are. -/
def SharesAboveMinusOne (request : EvaluateOrderRequest) (options : RiskOptions) : Prop :=
  -1 < 70 * nearest (request.totalAmount.value / options.maxOrderAmount.value) +
    nearest (9 * nearest (request.itemCount.toInt / options.maxItemCount.toInt))

section Score
variable {request : EvaluateOrderRequest} {limits : PositiveLimits}

theorem maxOrderAmount_pos (limits : PositiveLimits) : 0 < limits.maxOrderAmount.value :=
  div_pos (by exact_mod_cast limits.amount_pos) (by positivity)

theorem amountShare_le (h : WithinLimits request limits.toRiskOptions) :
    request.totalAmount.value / limits.maxOrderAmount.value ≤ (1 : Int) := by
  rw [div_le_iff₀ (maxOrderAmount_pos limits)]
  simpa using h.1

theorem itemShare_le (h : WithinLimits request limits.toRiskOptions) :
    (request.itemCount.toInt / limits.maxItemCount.toInt : ℚ) ≤ (1 : Int) := by
  have hpos : (0 : ℚ) < limits.maxItemCount.toInt := by exact_mod_cast limits.items_pos
  rw [div_le_iff₀ hpos]
  have hle : (request.itemCount.toInt : ℚ) ≤ limits.maxItemCount.toInt := by exact_mod_cast h.2
  simpa using hle

/-- A 32-bit count over a positive limit is not below the 32 bits. -/
theorem le_itemShare (request : EvaluateOrderRequest) (limits : PositiveLimits) :
    ((-2 ^ 31 : Int) : ℚ) ≤ request.itemCount.toInt / limits.maxItemCount.toInt := by
  have hpos : (0 : ℚ) < limits.maxItemCount.toInt := by exact_mod_cast limits.items_pos
  rw [le_div_iff₀ hpos]
  have hlow := (I32.toInt_bounds request.itemCount).1
  have hone : (1 : Int) ≤ limits.maxItemCount.toInt := limits.items_pos
  have hint : -2 ^ 31 * limits.maxItemCount.toInt ≤ request.itemCount.toInt := by
    simp only [I32.minValue] at hlow
    omega
  exact_mod_cast hint

theorem toInt_70 : (70 : I32).toInt = 70 := rfl
theorem toInt_9 : (9 : I32).toInt = 9 := rfl
theorem toInt_79 : (79 : I32).toInt = 79 := rfl

/-- A `do` block that succeeds has gone through its first operation. -/
theorem bind_eq_ok {α β : Type} {x : Except Exn α} {next : α → Except Exn β} {b : β}
    (h : (x >>= next) = .ok b) : ∃ a, x = .ok a ∧ next a = .ok b := by
  cases x with
  | error e => cases h
  | ok a => exact ⟨a, rfl, h⟩

theorem ofI32_maxItemCount_ne_zero (limits : PositiveLimits) : (ofI32 limits.maxItemCount).coefficient ≠ 0 :=
  limits.items_pos.ne'

/-- What is cut off at −1 is the two shares: the first product is exact there, and so is the sum. -/
theorem neg_one_lt_sum_iff (h : WithinLimits request limits.toRiskOptions) :
    -1 < nearest (nearest (nearest (request.totalAmount.value / limits.maxOrderAmount.value) * 70) +
        nearest (nearest (request.itemCount.toInt / limits.maxItemCount.toInt) * 9)) ↔
      SharesAboveMinusOne request limits.toRiskOptions := by
  rw [SharesAboveMinusOne, mul_comm 70, mul_comm 9]
  obtain ⟨a, ha⟩ := exists_nearest_mul (nearest (request.totalAmount.value / limits.maxOrderAmount.value) * 70)
  obtain ⟨b, hb⟩ := exists_nearest_mul (nearest (request.itemCount.toInt / limits.maxItemCount.toInt) * 9)
  rw [neg_one_lt_nearest (k := a + b) (by rw [add_mul, ha, hb, Int.cast_add])]
  have hamount := nearest_le (amountShare_le h)
  have hitems := nearest_le (itemShare_le h)
  have hitemPart := nearest_le (x := nearest (request.itemCount.toInt / limits.maxItemCount.toInt) * 9) (k := 9)
    (by push_cast at hitems ⊢; linarith)
  generalize nearest (nearest (request.itemCount.toInt / limits.maxItemCount.toInt) * 9) = itemPart at *
  obtain ⟨k, hk⟩ := exists_nearest_mul (request.totalAmount.value / limits.maxOrderAmount.value)
  generalize nearest (request.totalAmount.value / limits.maxOrderAmount.value) = amountShare at *
  push_cast at hamount hitemPart
  rcases le_or_gt (-1) amountShare with hlow | hneg
  · have hlow' : ((-10 ^ 28 : Int) : ℚ) ≤ k := by rw [← hk]; push_cast; linarith
    have hhigh' : (k : ℚ) ≤ (10 ^ 28 : Int) := by rw [← hk]; push_cast; linarith
    have hk1 : -10 ^ 28 ≤ k := by exact_mod_cast hlow'
    have hk2 : k ≤ 10 ^ 28 := by exact_mod_cast hhigh'
    have hplaces : amountShare * 70 * 10 ^ 27 = (7 * k : Int) := by push_cast; rw [← hk]; ring
    rw [nearest_of_places hplaces (by omega) (by omega)]
  · have hamountPart := nearest_le (x := amountShare * 70) (k := -70) (by push_cast; linarith)
    push_cast at hamountPart
    constructor <;> intro hlt <;> linarith

/-- A share between two integers, times its weight. -/
theorem part_ok {a b : Decimal} (hb : b.coefficient ≠ 0) (weight : I32) {low high : Int}
    (hweight : 0 ≤ weight.toInt ∧ weight.toInt ≤ 70) (hlow : low ≤ a.value / b.value)
    (hhigh : a.value / b.value ≤ high) (hbounds : -2 ^ 31 ≤ low ∧ high ≤ 1) :
    ∃ share part, checked (a.quotient b) = .ok share ∧ checked (share.mulInt weight) = .ok part ∧
      part.value = nearest (nearest (a.value / b.value) * weight.toInt) ∧
      low * weight.toInt ≤ part.value ∧ part.value ≤ high * weight.toInt := by
  have hweight0 : (0 : ℚ) ≤ weight.toInt := by exact_mod_cast hweight.1
  have hsmall : ((-2 ^ 31 : Int) : ℚ) ≤ low ∧ (high : ℚ) ≤ (1 : Int) := by exact_mod_cast hbounds
  have hparts : ((-2 ^ 31 * 70 : Int) : ℚ) ≤ (low * weight.toInt : Int) ∧
      ((high * weight.toInt : Int) : ℚ) ≤ (70 : Int) := by
    have h1 : -2 ^ 31 * 70 ≤ low * weight.toInt := by nlinarith
    have h2 : high * weight.toInt ≤ 70 := by nlinarith
    exact_mod_cast And.intro h1 h2
  push_cast at hsmall hparts
  obtain ⟨share, hshare, hsharev⟩ := (computes_quotient a hb).exists_ok (by linarith) (by linarith)
  have hnearLow : low * weight.toInt ≤ nearest (a.value / b.value) * weight.toInt :=
    mul_le_mul_of_nonneg_right (le_nearest hlow) hweight0
  have hnearHigh : nearest (a.value / b.value) * weight.toInt ≤ high * weight.toInt :=
    mul_le_mul_of_nonneg_right (nearest_le hhigh) hweight0
  obtain ⟨part, hpart, hpartv⟩ := (computes_mulInt share weight).exists_ok
    (by rw [hsharev]; linarith) (by rw [hsharev]; linarith)
  rw [hsharev] at hpartv
  refine ⟨share, part, hshare, hpart, hpartv, ?_, ?_⟩
  · rw [hpartv]
    exact_mod_cast le_nearest (k := low * weight.toInt) (by push_cast; exact hnearLow)
  · rw [hpartv]
    exact_mod_cast nearest_le (k := high * weight.toInt) (by push_cast; exact hnearHigh)

/-- An amount far below zero has no share above −1. -/
theorem neg_one_lt_amountShare (h : WithinLimits request limits.toRiskOptions)
    (hshares : SharesAboveMinusOne request limits.toRiskOptions) :
    -1 < request.totalAmount.value / limits.maxOrderAmount.value := by
  have hitemShare := nearest_le (itemShare_le h)
  have hitemPart := nearest_le (x := 9 * nearest (request.itemCount.toInt / limits.maxItemCount.toInt)) (k := 9)
    (by push_cast at hitemShare ⊢; linarith)
  rw [SharesAboveMinusOne] at hshares
  by_contra hle
  have hamountShare := nearest_le (k := -1) (x := request.totalAmount.value / limits.maxOrderAmount.value)
    (by push_cast; linarith)
  push_cast at hamountShare hitemPart
  linarith

/-- What is cut to an integer is between −1 and 79, without either end below. -/
theorem cut_ok {sum : Decimal} (h : -1 < sum.value) :
    ∃ n, ((ofI32 79).min sum).toI32 = .ok n ∧ 0 ≤ n.toInt ∧ n.toInt ≤ 79 := by
  have hlow := (truncated_nonneg_iff ((ofI32 79).min sum)).2 (by
    rw [value_min, value_ofI32]
    exact lt_min (by norm_num [toInt_79]) h)
  have hhigh := truncated_le (a := (ofI32 79).min sum) (k := 79) (by
    rw [value_min, value_ofI32, toInt_79]
    exact min_le_left _ _)
  refine ⟨BitVec.ofInt 32 (((ofI32 79).min sum).coefficient.tdiv (10 ^ ((ofI32 79).min sum).scale)), ?_⟩
  rw [toI32_eq_ok_iff, I32.toInt_ofInt (by simp only [I32.minValue, I32.maxValue]; omega)]
  exact ⟨rfl, hlow, hhigh⟩

/-- The shares allow a score: no operation overflows, and it is in range. -/
theorem score_ok (h : WithinLimits request limits.toRiskOptions)
    (hshares : SharesAboveMinusOne request limits.toRiskOptions) :
    ∃ n, score request.totalAmount request.itemCount limits.toRiskOptions = .ok n ∧ 0 ≤ n.toInt ∧
      n.toInt ≤ 79 := by
  have hsum := (neg_one_lt_sum_iff h).2 hshares
  have hlow : ((-1 : Int) : ℚ) ≤ request.totalAmount.value / limits.maxOrderAmount.value := by
    push_cast
    exact (neg_one_lt_amountShare h hshares).le
  obtain ⟨amountShare, amountPart, ha, hap, hapv, haLow, haHigh⟩ :=
    part_ok limits.amount_pos.ne' 70 (by decide) hlow (amountShare_le h) (by decide)
  obtain ⟨itemShare, itemPart, hi, hip, hipv, hiLow, hiHigh⟩ := part_ok (a := ofI32 request.itemCount)
    (ofI32_maxItemCount_ne_zero limits) 9 (by decide)
    (by rw [value_ofI32, value_ofI32]; exact le_itemShare request limits)
    (by rw [value_ofI32, value_ofI32]; exact itemShare_le h) (by decide)
  rw [toInt_70] at hapv haLow haHigh
  rw [value_ofI32, value_ofI32, toInt_9] at hipv
  rw [toInt_9] at hiLow hiHigh
  push_cast at hapv haLow haHigh hipv hiLow hiHigh
  obtain ⟨sum, hs, hsv⟩ := (computes_add amountPart itemPart).exists_ok (by linarith) (by linarith)
  rw [hapv, hipv] at hsv
  obtain ⟨n, hn, hbounds⟩ := cut_ok (show -1 < sum.value by rw [hsv]; exact hsum)
  refine ⟨n, ?_, hbounds⟩
  rw [score, div_eq_checked _ limits.amount_pos.ne', ha,
    div_eq_checked _ (ofI32_maxItemCount_ne_zero limits), hi]
  simp only [hap, hip, hs, bind, Except.bind]
  exact hn

theorem sharesAboveMinusOne_of_score (h : WithinLimits request limits.toRiskOptions) {n : I32}
    (hscore : score request.totalAmount request.itemCount limits.toRiskOptions = .ok n) (hn : 0 ≤ n.toInt) :
    SharesAboveMinusOne request limits.toRiskOptions := by
  rw [score, div_eq_checked _ limits.amount_pos.ne',
    div_eq_checked _ (ofI32_maxItemCount_ne_zero limits)] at hscore
  obtain ⟨amountShare, ha, hscore⟩ := bind_eq_ok hscore
  obtain ⟨amountPart, hap, hscore⟩ := bind_eq_ok hscore
  obtain ⟨itemShare, hi, hscore⟩ := bind_eq_ok hscore
  obtain ⟨itemPart, hip, hscore⟩ := bind_eq_ok hscore
  obtain ⟨sum, hs, hscore⟩ := bind_eq_ok hscore
  have hav := (computes_quotient _ limits.amount_pos.ne').value_of_ok ha
  have hapv := (computes_mulInt _ _).value_of_ok hap
  have hiv := (computes_quotient _ (ofI32_maxItemCount_ne_zero limits)).value_of_ok hi
  have hipv := (computes_mulInt _ _).value_of_ok hip
  have hsv := (computes_add _ _).value_of_ok hs
  rw [hav, toInt_70] at hapv
  rw [value_ofI32, value_ofI32] at hiv
  rw [hiv, toInt_9] at hipv
  rw [hapv, hipv] at hsv
  push_cast at hsv
  rw [← neg_one_lt_sum_iff h, ← hsv]
  have hvalue := (truncated_nonneg_iff ((ofI32 79).min sum)).1 (by rw [toI32_eq_ok_iff.1 hscore]; exact hn)
  rw [value_min] at hvalue
  exact lt_of_lt_of_le hvalue (min_le_right _ _)

/-- Nothing is below −1 when neither number is below zero. -/
theorem sharesAboveMinusOne_of_nonneg (hamount : 0 ≤ request.totalAmount.coefficient)
    (hitems : 0 ≤ request.itemCount.toInt) : SharesAboveMinusOne request limits.toRiskOptions := by
  have hamount' : ((0 : Int) : ℚ) ≤ request.totalAmount.value / limits.maxOrderAmount.value := by
    have htotal : 0 ≤ request.totalAmount.value := div_nonneg (by exact_mod_cast hamount) (by positivity)
    push_cast
    exact div_nonneg htotal (maxOrderAmount_pos limits).le
  have hitems' : ((0 : Int) : ℚ) ≤ request.itemCount.toInt / limits.maxItemCount.toInt := by
    have hlimit : (0 : ℚ) < limits.maxItemCount.toInt := by exact_mod_cast limits.items_pos
    push_cast
    exact div_nonneg (by exact_mod_cast hitems) hlimit.le
  have hshare := le_nearest hamount'
  have hpart := le_nearest (x := 9 * nearest (request.itemCount.toInt / limits.maxItemCount.toInt)) (k := 0)
    (by have hitemShare := le_nearest hitems'; push_cast at hitemShare ⊢; linarith)
  rw [SharesAboveMinusOne]
  push_cast at hshare hpart
  linarith

end Score

/-! ## Every request -/

/-- Above a limit nothing is computed. -/
theorem evaluate_above {request : EvaluateOrderRequest} {limits : PositiveLimits}
    (h : ¬ WithinLimits request limits.toRiskOptions) :
    ∃ decision, evaluate request.totalAmount request.itemCount limits.toRiskOptions = .ok decision ∧
      decision.approved = false := by
  rw [evaluate]
  split
  · exact ⟨_, rfl, rfl⟩
  · rename_i hamount
    split
    · exact ⟨_, rfl, rfl⟩
    · rename_i hitems
      exact absurd ⟨not_lt.1 fun hlt => hamount (less_iff.2 hlt), not_lt.1 hitems⟩ h

theorem evaluate_within {request : EvaluateOrderRequest} {limits : PositiveLimits}
    (h : WithinLimits request limits.toRiskOptions) :
    evaluate request.totalAmount request.itemCount limits.toRiskOptions =
      (score request.totalAmount request.itemCount limits.toRiskOptions).map (⟨true, "within_limits", ·⟩) := by
  rw [evaluate, if_neg fun hless => absurd (less_iff.1 hless) (not_lt.2 h.1), if_neg (not_lt.2 h.2)]
  cases score request.totalAmount request.itemCount limits.toRiskOptions <;> rfl

/-- A request is evaluated well exactly if it is above a limit or its shares are more than −1. -/
theorem evaluatesWell_iff (request : EvaluateOrderRequest) (limits : PositiveLimits) :
    EvaluatesWell request limits.toRiskOptions ↔
      (WithinLimits request limits.toRiskOptions → SharesAboveMinusOne request limits.toRiskOptions) := by
  constructor
  · rintro ⟨decision, hdecision, happroved, hscore⟩ hwithin
    have hrange := hscore (happroved.2 hwithin)
    rw [evaluate_within hwithin] at hdecision
    cases hn : score request.totalAmount request.itemCount limits.toRiskOptions with
    | error e => rw [hn] at hdecision; cases hdecision
    | ok n =>
      rw [hn] at hdecision
      cases hdecision
      exact sharesAboveMinusOne_of_score hwithin hn hrange.1
  · intro hshares
    by_cases hwithin : WithinLimits request limits.toRiskOptions
    · obtain ⟨n, hn, hrange⟩ := score_ok hwithin (hshares hwithin)
      exact ⟨_, by rw [evaluate_within hwithin, hn]; rfl, iff_of_true rfl hwithin, fun _ => hrange⟩
    · obtain ⟨decision, hdecision, hrejected⟩ := evaluate_above hwithin
      refine ⟨decision, hdecision, iff_of_false (by rw [hrejected]; exact Bool.false_ne_true) hwithin,
        fun happroved => ?_⟩
      rw [hrejected] at happroved
      cases happroved

/-- Five thousand below zero, and a million millions below zero. -/
def refund : EvaluateOrderRequest := ⟨Guid.empty, ⟨-5000, 0, by decide, Decimal.whole_scaled⟩, 1⟩
def largeRefund : EvaluateOrderRequest := ⟨Guid.empty, ⟨-1000000000000, 0, by decide, Decimal.whole_scaled⟩, 1⟩

def defaultLimits : PositiveLimits := ⟨{}, by decide, by decide⟩

/-- The default limits let both in: one is approved with the score −69, the other one overflows. -/
theorem refund_not_evaluated_well :
    evaluate refund.totalAmount refund.itemCount defaultLimits.toRiskOptions = .ok ⟨true, "within_limits", -69⟩ ∧
    evaluate largeRefund.totalAmount largeRefund.itemCount defaultLimits.toRiskOptions = .error .overflow ∧
    ¬ ∀ (request : EvaluateOrderRequest) (limits : PositiveLimits), EvaluatesWell request limits.toRiskOptions := by
  have hlarge : evaluate largeRefund.totalAmount largeRefund.itemCount defaultLimits.toRiskOptions =
      .error .overflow := by decide +kernel
  refine ⟨by decide +kernel, hlarge, fun hall => ?_⟩
  obtain ⟨decision, hdecision, -⟩ := hall largeRefund defaultLimits
  rw [hlarge] at hdecision
  cases hdecision

end RiskRules

/-! ## Every answer -/

namespace EvaluationEndpoints
variable {φ : Type}

/-- A request whose fault points let it through and that is evaluated well is answered with 200. -/
theorem evaluateAsync_ok {apply : ApplyAsync φ} {request : EvaluateOrderRequest} {limits : PositiveLimits}
    {faults faults' faults'' : φ} {after : FaultDecision}
    (hwell : RiskRules.EvaluatesWell request limits.toRiskOptions)
    (hbefore : apply evaluateOperation .beforeEffect request.orderId.formatD faults = (.ok .continue_, faults'))
    (hafter : apply evaluateOperation .afterEffect request.orderId.formatD faults' = (.ok after, faults'')) :
    ∃ decision, RiskRules.evaluate request.totalAmount request.itemCount limits.toRiskOptions = .ok decision ∧
      evaluateAsync apply request limits.toRiskOptions faults =
        (.ok (Results.ok (evaluationBody request.orderId decision)), faults'') := by
  obtain ⟨decision, hdecision, -⟩ := hwell
  refine ⟨decision, hdecision, ?_⟩
  have hdecide : decideRisk .continue_ request limits.toRiskOptions = .ok decision := hdecision
  simp only [evaluateAsync, hbefore, hdecide, hafter]
  rfl

/-- An exception of the rules is the handler's. -/
theorem evaluateAsync_error {apply : ApplyAsync φ} {request : EvaluateOrderRequest} {options : RiskOptions}
    {faults faults' : φ} {e : Exn}
    (herror : RiskRules.evaluate request.totalAmount request.itemCount options = .error e)
    (hbefore : apply evaluateOperation .beforeEffect request.orderId.formatD faults = (.ok .continue_, faults')) :
    evaluateAsync apply request options faults = (.error e, faults') := by
  have hdecide : decideRisk .continue_ request options = .error e := herror
  simp only [evaluateAsync, hbefore, hdecide]
  rfl

end EvaluationEndpoints

end TxPlatform
