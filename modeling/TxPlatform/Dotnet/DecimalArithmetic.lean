import Mathlib.Data.Rat.Lemmas
import Mathlib.Tactic.FieldSimp
import Mathlib.Tactic.Linarith
import Mathlib.Tactic.LinearCombination
import Mathlib.Tactic.Ring
import TxPlatform.Dotnet.Http

/-!
# Decimal arithmetic and the numbers behind it

Every operation on decimals computes the exact result and gives the closest decimal: the one with
as many places as fit, at most 28, halves to even. `nearest` is that decimal for any number, with
no limit on its size; an operation without a result (`none`) is the `OverflowException`.
`fit_spec` and `fitQuotient_spec` tie the two together: what an operation returns is `nearest` of the
exact result, and it returns something while the result is small.
-/

namespace TxPlatform

namespace Decimal

/-- The number a decimal stands for. -/
def value (a : Decimal) : ℚ := a.coefficient / 10 ^ a.scale

/-- `a < b`. -/
def less (a b : Decimal) : Bool := a.coefficient * 10 ^ b.scale < b.coefficient * 10 ^ a.scale

theorem toInt_bounded (n : I32) : n.toInt.natAbs < 2 ^ 96 := by
  have h := I32.toInt_bounds n
  simp only [I32.minValue, I32.maxValue] at h
  omega

theorem whole_scaled : 0 ≤ 28 := Nat.zero_le _

def ofI32 (n : I32) : Decimal := ⟨n.toInt, 0, toInt_bounded n, whole_scaled⟩

/-- `numerator / divisor` with `scale` places or the most that fit. Zeros behind the last place stay:
they change no value. -/
def fitQuotient (numerator : Int) (divisor : Nat) (scale : Nat) : Option Decimal :=
  let rounded := divideHalfEven (numerator * 10 ^ scale) divisor
  if h : rounded.natAbs < 2 ^ 96 ∧ scale ≤ 28 then some ⟨rounded, scale, h.1, h.2⟩
  else
    match scale with
    | 0 => none
    | scale + 1 => fitQuotient numerator divisor scale

/-- `a / b` for `b` other than zero. -/
def quotient (a b : Decimal) : Option Decimal :=
  fitQuotient (a.coefficient * b.coefficient.sign * 10 ^ b.scale) (b.coefficient.natAbs * 10 ^ a.scale) 28

def checked (result : Option Decimal) : Except Exn Decimal :=
  match result with
  | some result => .ok result
  | none => .error .overflow

/-- `a / b`. -/
def div (a b : Decimal) : Except Exn Decimal :=
  if b.coefficient = 0 then .error .divideByZero else checked (a.quotient b)

/-- `Math.Min(a, b)`. -/
def min (a b : Decimal) : Decimal := if b.less a then b else a

/-- `(int)a`: places are cut off. -/
def toI32 (a : Decimal) : Except Exn I32 :=
  let truncated := a.coefficient.tdiv (10 ^ a.scale)
  if I32.minValue ≤ truncated ∧ truncated ≤ I32.maxValue then .ok (BitVec.ofInt 32 truncated)
  else .error .overflow

/-! ## Rounding halves to even -/

/-- The closest integer, halves to the even one. -/
def roundHalfEven (x : ℚ) : Int := divideHalfEven x.num x.den

theorem divideHalfEven_mul (n : Int) (d : Nat) {k : Nat} (hk : 0 < k) :
    divideHalfEven (n * k) (d * k) = divideHalfEven n d := by
  have hquot : n.natAbs * k / (d * k) = n.natAbs / d := Nat.mul_div_mul_right _ _ hk
  have hrem : n.natAbs * k % (d * k) = n.natAbs % d * k := Nat.mul_mod_mul_right ..
  have hless : d * k < 2 * (n.natAbs % d * k) ↔ d < 2 * (n.natAbs % d) := by
    rw [← Nat.mul_assoc, Nat.mul_lt_mul_right hk]
  have heq : 2 * (n.natAbs % d * k) = d * k ↔ 2 * (n.natAbs % d) = d := by
    rw [← Nat.mul_assoc, Nat.mul_left_inj hk.ne']
  have hneg : n * k < 0 ↔ n < 0 := by
    rw [Int.mul_neg_iff]
    omega
  simp only [divideHalfEven, Int.natAbs_mul, Int.natAbs_natCast, hquot, hrem, hless, heq, hneg]

/-- Rounding a fraction depends on its value only. -/
theorem divideHalfEven_eq (n : Int) {d : Nat} (hd : 0 < d) : divideHalfEven n d = roundHalfEven (n / d) := by
  obtain ⟨c, hn, hden⟩ := Rat.num_den_mk (q := (n : ℚ) / d) (n := n) (d := d) (by omega)
    (by rw [Rat.divInt_eq_div]; norm_cast)
  have hdpos : 0 < (((n : ℚ) / d).den : Int) := by exact_mod_cast Rat.den_pos _
  have hc : 0 < c := by
    by_contra hc
    have hle : c * (((n : ℚ) / d).den : Int) ≤ 0 := Int.mul_nonpos_of_nonpos_of_nonneg (by omega) hdpos.le
    omega
  obtain ⟨k, rfl⟩ := Int.eq_ofNat_of_zero_le hc.le
  have hd' : d = ((n : ℚ) / d).den * k := by
    have hcast : (d : Int) = ((((n : ℚ) / d).den * k : Nat) : Int) := by rw [hden]; push_cast; ring
    exact_mod_cast hcast
  calc divideHalfEven n d = divideHalfEven (((n : ℚ) / d).num * k) (((n : ℚ) / d).den * k) := by
        rw [← hd', Int.mul_comm, ← hn]
    _ = roundHalfEven (n / d) := divideHalfEven_mul _ _ (by omega)

/-- The magnitude is rounded by itself, by at most half. -/
theorem exists_magnitude (n : Int) {d : Nat} (hd : 0 < d) :
    ∃ r : Nat, divideHalfEven n d = (if n < 0 then -(r : Int) else r) ∧
      2 * n.natAbs ≤ 2 * (r * d) + d ∧ 2 * (r * d) ≤ 2 * n.natAbs + d := by
  have hsplit : d * (n.natAbs / d) + n.natAbs % d = n.natAbs := Nat.div_add_mod ..
  have hmod : n.natAbs % d < d := Nat.mod_lt _ hd
  refine ⟨_, rfl, ?_⟩
  split
  · rw [Nat.mul_comm _ d, Nat.mul_add]
    omega
  · rw [Nat.mul_comm _ d]
    omega

theorem two_mul_divideHalfEven (n : Int) {d : Nat} (hd : 0 < d) :
    2 * n - d ≤ 2 * (divideHalfEven n d * d) ∧ 2 * (divideHalfEven n d * d) ≤ 2 * n + d := by
  obtain ⟨r, hr, hlow, hhigh⟩ := exists_magnitude n hd
  rw [hr]
  split
  · rw [Int.neg_mul]
    omega
  · omega

/-- Rounding moves a number by at most one half. -/
theorem abs_roundHalfEven_sub (x : ℚ) : x - 1 / 2 ≤ roundHalfEven x ∧ roundHalfEven x ≤ x + 1 / 2 := by
  have hden : (0 : ℚ) < x.den := by exact_mod_cast x.den_pos
  have hx : x * x.den = x.num := Rat.mul_den_eq_num x
  obtain ⟨hlow, hhigh⟩ := two_mul_divideHalfEven x.num x.den_pos
  have hlow' : 2 * (x * x.den) - x.den ≤ 2 * (roundHalfEven x * x.den) := by rw [hx]; exact_mod_cast hlow
  have hhigh' : 2 * (roundHalfEven x * x.den) ≤ 2 * (x * x.den) + x.den := by rw [hx]; exact_mod_cast hhigh
  constructor
  · refine le_of_mul_le_mul_right ?_ hden
    linarith
  · refine le_of_mul_le_mul_right ?_ hden
    linarith

theorem roundHalfEven_le {x : ℚ} {k : Int} (h : x ≤ k) : roundHalfEven x ≤ k := by
  have hhigh := (abs_roundHalfEven_sub x).2
  have hlt : (roundHalfEven x : ℚ) < (k + 1 : Int) := by push_cast; linarith
  exact Int.lt_add_one_iff.1 (by exact_mod_cast hlt)

theorem le_roundHalfEven {x : ℚ} {k : Int} (h : k ≤ x) : k ≤ roundHalfEven x := by
  have hlow := (abs_roundHalfEven_sub x).1
  have hlt : ((k - 1 : Int) : ℚ) < roundHalfEven x := by push_cast; linarith
  exact Int.sub_one_lt_iff.1 (by exact_mod_cast hlt)

@[simp] theorem roundHalfEven_intCast (k : Int) : roundHalfEven k = k :=
  le_antisymm (roundHalfEven_le le_rfl) (le_roundHalfEven le_rfl)

/-! ## The closest decimal -/

/-- The number with at most `places` places that is closest to `x`, of those whose digits fit 96 bits
if there is one. -/
def nearestFrom (x : ℚ) : Nat → ℚ
  | 0 => roundHalfEven x
  | places + 1 =>
    if (roundHalfEven (x * 10 ^ (places + 1))).natAbs < 2 ^ 96 then
      roundHalfEven (x * 10 ^ (places + 1)) / 10 ^ (places + 1)
    else nearestFrom x places

/-- The decimal closest to `x`. -/
def nearest (x : ℚ) : ℚ := nearestFrom x 28

theorem nearestFrom_le {x : ℚ} {k : Int} (h : x ≤ k) (places : Nat) : nearestFrom x places ≤ k := by
  induction places with
  | zero =>
    rw [nearestFrom]
    exact_mod_cast roundHalfEven_le h
  | succ places ih =>
    rw [nearestFrom]
    split
    · rw [div_le_iff₀ (by positivity)]
      have hscaled : x * 10 ^ (places + 1) ≤ (k * 10 ^ (places + 1) : Int) := by
        push_cast
        exact mul_le_mul_of_nonneg_right h (by positivity)
      exact_mod_cast roundHalfEven_le hscaled
    · exact ih

theorem le_nearestFrom {x : ℚ} {k : Int} (h : k ≤ x) (places : Nat) : k ≤ nearestFrom x places := by
  induction places with
  | zero =>
    rw [nearestFrom]
    exact_mod_cast le_roundHalfEven h
  | succ places ih =>
    rw [nearestFrom]
    split
    · rw [le_div_iff₀ (by positivity)]
      have hscaled : ((k * 10 ^ (places + 1) : Int) : ℚ) ≤ x * 10 ^ (places + 1) := by
        push_cast
        exact mul_le_mul_of_nonneg_right h (by positivity)
      exact_mod_cast le_roundHalfEven hscaled
    · exact ih

theorem nearest_le {x : ℚ} {k : Int} (h : x ≤ k) : nearest x ≤ k := nearestFrom_le h 28

theorem le_nearest {x : ℚ} {k : Int} (h : k ≤ x) : k ≤ nearest x := le_nearestFrom h 28

/-- A number that has these places is its own closest. -/
theorem nearestFrom_of_places {x : ℚ} {scale : Nat} {k : Int} (h : x * 10 ^ scale = k)
    (hfits : k.natAbs < 2 ^ 96) : nearestFrom x scale = x := by
  cases scale with
  | zero =>
    rw [pow_zero, mul_one] at h
    rw [nearestFrom, h, roundHalfEven_intCast]
  | succ scale =>
    rw [nearestFrom, h, roundHalfEven_intCast, if_pos hfits, ← h, mul_div_assoc, div_self (by positivity),
      mul_one]

/-- More places do not help a number that has no more. -/
theorem nearestFrom_add {x : ℚ} {scale : Nat} {k : Int} (h : x * 10 ^ scale = k) (more : Nat) :
    nearestFrom x (scale + more) = nearestFrom x scale := by
  have hexact : ∀ extra, x * 10 ^ (scale + extra) = ((k * 10 ^ extra : Int) : ℚ) := fun extra => by
    push_cast
    rw [pow_add, ← mul_assoc, h]
  induction more with
  | zero => rfl
  | succ more ih =>
    by_cases hfits : (k * 10 ^ (more + 1)).natAbs < 2 ^ 96
    · -- with fewer places the digits fit as well
      have hfewer : k.natAbs < 2 ^ 96 := by
        rw [Int.natAbs_mul] at hfits
        exact lt_of_le_of_lt (Nat.le_mul_of_pos_right _ (by positivity)) hfits
      rw [nearestFrom_of_places (hexact _) hfits, nearestFrom_of_places h hfewer]
    · rw [← ih, ← Nat.add_assoc, nearestFrom, Nat.add_assoc, hexact, roundHalfEven_intCast, if_neg hfits]

theorem nearestFrom_eq_nearest {x : ℚ} {scale : Nat} {k : Int} (h : x * 10 ^ scale = k) (hs : scale ≤ 28) :
    nearestFrom x scale = nearest x := by
  have hmore := nearestFrom_add h (28 - scale)
  rw [Nat.add_sub_cancel' hs] at hmore
  exact hmore.symm

theorem nearest_of_places {x : ℚ} {scale : Nat} {k : Int} (h : x * 10 ^ scale = k) (hs : scale ≤ 28)
    (hfits : k.natAbs < 2 ^ 96) : nearest x = x := by
  rw [← nearestFrom_eq_nearest h hs, nearestFrom_of_places h hfits]

/-- The closest decimal has at most 28 places. -/
theorem exists_nearest_mul (x : ℚ) : ∃ k : Int, nearest x * 10 ^ 28 = k := by
  have hfrom : ∀ places, ∃ k : Int, nearestFrom x places * 10 ^ places = k := by
    intro places
    induction places with
    | zero => exact ⟨roundHalfEven x, by rw [nearestFrom, pow_zero, mul_one]⟩
    | succ places ih =>
      rw [nearestFrom]
      split
      · exact ⟨_, div_mul_cancel₀ _ (by positivity)⟩
      · obtain ⟨k, hk⟩ := ih
        refine ⟨k * 10, ?_⟩
        rw [pow_succ, ← mul_assoc, hk]
        push_cast
        rfl
  exact hfrom 28

/-- Rounding does not reach −1 from above. -/
theorem neg_one_lt_nearest {x : ℚ} {k : Int} (h : x * 10 ^ 28 = k) : -1 < nearest x ↔ -1 < x := by
  constructor
  · intro hlt
    by_contra hle
    have hle' := nearest_le (x := x) (k := -1) (by push_cast; linarith)
    push_cast at hle'
    linarith
  · intro hlt
    rcases le_or_gt 0 x with hpos | hneg
    · have hle := le_nearest (x := x) (k := 0) (by push_cast; exact hpos)
      push_cast at hle
      linarith
    · have hlow : ((-10 ^ 28 : Int) : ℚ) < k := by rw [← h]; push_cast; linarith
      have hhigh : (k : ℚ) < (0 : Int) := by rw [← h]; push_cast; linarith
      have hlow' : -10 ^ 28 < k := by exact_mod_cast hlow
      have hhigh' : k < 0 := by exact_mod_cast hhigh
      rw [nearest_of_places h le_rfl (by omega)]
      exact hlt

/-- A number of few digits rounds to one whose digits fit. -/
theorem roundHalfEven_fits {x : ℚ} (hlow : -2 ^ 95 ≤ x) (hhigh : x ≤ 2 ^ 95) :
    (roundHalfEven x).natAbs < 2 ^ 96 := by
  have h1 : -2 ^ 95 ≤ roundHalfEven x := le_roundHalfEven (by push_cast; exact hlow)
  have h2 : roundHalfEven x ≤ 2 ^ 95 := roundHalfEven_le (by push_cast; exact hhigh)
  omega

/-! ## Operations -/

/-- An operation gives the closest decimal, and it does give one while the result is small. -/
structure Computes (result : Option Decimal) (x : ℚ) : Prop where
  value : ∀ a, result = some a → a.value = nearest x
  defined : -2 ^ 95 ≤ x → x ≤ 2 ^ 95 → result.isSome

/-- Without the exception: the closest decimal of a small result. -/
theorem Computes.exists_ok {result : Option Decimal} {x : ℚ} (h : Computes result x) (hlow : -2 ^ 95 ≤ x)
    (hhigh : x ≤ 2 ^ 95) : ∃ a, checked result = .ok a ∧ a.value = nearest x := by
  obtain ⟨a, ha⟩ := Option.isSome_iff_exists.1 (h.defined hlow hhigh)
  exact ⟨a, by rw [ha, checked], h.value a ha⟩

theorem Computes.value_of_ok {result : Option Decimal} {x : ℚ} (h : Computes result x) {a : Decimal}
    (ha : checked result = .ok a) : a.value = nearest x := by
  cases result with
  | none => cases ha
  | some b => exact h.value a (congrArg some (Except.ok.inj ha))

theorem fitQuotient_spec (numerator : Int) {divisor : Nat} (hd : 0 < divisor) {scale : Nat} (hs : scale ≤ 28) :
    (∀ a, fitQuotient numerator divisor scale = some a →
      a.value = nearestFrom (numerator / divisor) scale) ∧
    ((roundHalfEven (numerator / divisor)).natAbs < 2 ^ 96 →
      (fitQuotient numerator divisor scale).isSome) := by
  have hrounded : ∀ scale : Nat, divideHalfEven (numerator * 10 ^ scale) divisor =
      roundHalfEven (numerator / divisor * 10 ^ scale) := fun scale => by
    rw [divideHalfEven_eq _ hd]
    congr 1
    push_cast
    ring
  induction scale with
  | zero =>
    have hzero : divideHalfEven (numerator * 10 ^ 0) divisor = roundHalfEven (numerator / divisor) := by
      rw [hrounded, pow_zero, mul_one]
    simp only [fitQuotient, hzero, hs, and_true]
    split
    · refine ⟨fun a ha => ?_, fun _ => rfl⟩
      cases ha
      simp [value, nearestFrom]
    · rename_i hlarge
      refine ⟨fun a ha => ?_, fun hfits => absurd hfits hlarge⟩
      cases ha
  | succ scale ih =>
    rw [fitQuotient, nearestFrom]
    simp only [hrounded, hs, and_true]
    split
    · refine ⟨fun a ha => ?_, fun _ => rfl⟩
      cases ha
      rfl
    · exact ih (by omega)

theorem fit_spec (coefficient : Int) (dropped : Nat) {scale : Nat} (hs : scale ≤ 28) :
    (∀ a, fit coefficient dropped scale = some a →
      a.value = nearestFrom (coefficient / 10 ^ (dropped + scale)) scale) ∧
    ((roundHalfEven (coefficient / 10 ^ (dropped + scale))).natAbs < 2 ^ 96 →
      (fit coefficient dropped scale).isSome) := by
  have hrounded : ∀ dropped scale : Nat, divideHalfEven coefficient (10 ^ dropped) =
      roundHalfEven (coefficient / 10 ^ (dropped + scale) * 10 ^ scale) := fun dropped scale => by
    rw [divideHalfEven_eq _ (by positivity)]
    congr 1
    push_cast
    rw [pow_add, div_mul_eq_mul_div, mul_div_mul_right _ _ (by positivity)]
  induction scale generalizing dropped with
  | zero =>
    simp only [fit, hrounded dropped 0, hs, and_true, pow_zero, mul_one]
    split
    · refine ⟨fun a ha => ?_, fun _ => rfl⟩
      cases ha
      simp [value, nearestFrom]
    · rename_i hlarge
      refine ⟨fun a ha => ?_, fun hfits => absurd hfits hlarge⟩
      cases ha
  | succ scale ih =>
    rw [fit, nearestFrom]
    simp only [hrounded dropped (scale + 1), hs, and_true]
    split
    · refine ⟨fun a ha => ?_, fun _ => rfl⟩
      cases ha
      rfl
    · have hsum : dropped + (scale + 1) = dropped + 1 + scale := by omega
      rw [hsum]
      exact ih (dropped + 1) (by omega)

/-- An exact result with `scale` places. -/
theorem computes_fit {coefficient : Int} {scale : Nat} (hs : scale ≤ 28) {x : ℚ}
    (hx : coefficient / 10 ^ scale = x) : Computes (fit coefficient 0 scale) x := by
  subst hx
  obtain ⟨hvalue, hdefined⟩ := fit_spec coefficient 0 hs
  rw [Nat.zero_add] at hvalue hdefined
  refine ⟨fun a ha => ?_, fun hlow hhigh => hdefined (roundHalfEven_fits hlow hhigh)⟩
  rw [hvalue a ha]
  refine nearestFrom_eq_nearest (k := coefficient) ?_ hs
  rw [div_mul_cancel₀ _ (by positivity)]

theorem computes_mulInt (a : Decimal) (n : I32) : Computes (a.mulInt n) (a.value * n.toInt) := by
  refine computes_fit a.scaled ?_
  rw [value]
  push_cast
  ring

theorem computes_add (a b : Decimal) : Computes (a.add b) (a.value + b.value) := by
  have halign : ∀ (c : Int) {s t : Nat}, s ≤ t → ((c * 10 ^ (t - s) : Int) : ℚ) / 10 ^ t = c / 10 ^ s := by
    intro c s t hst
    obtain ⟨k, rfl⟩ := Nat.exists_eq_add_of_le hst
    push_cast
    rw [Nat.add_sub_cancel_left, pow_add, mul_div_mul_right _ _ (by positivity)]
  refine computes_fit (Nat.max_le.2 ⟨a.scaled, b.scaled⟩) ?_
  rw [Int.cast_add, add_div, halign _ (Nat.le_max_left ..), halign _ (Nat.le_max_right ..)]
  rfl

theorem computes_quotient (a : Decimal) {b : Decimal} (hb : b.coefficient ≠ 0) :
    Computes (a.quotient b) (a.value / b.value) := by
  have hpos : 0 < b.coefficient.natAbs * 10 ^ a.scale := Nat.mul_pos (Int.natAbs_pos.2 hb) (by positivity)
  have hx : ((a.coefficient * b.coefficient.sign * 10 ^ b.scale : Int) : ℚ) /
      (b.coefficient.natAbs * 10 ^ a.scale : Nat) = a.value / b.value := by
    have hsign : (b.coefficient : ℚ) = b.coefficient.sign * (b.coefficient.natAbs : ℚ) := by
      have hint : ((b.coefficient.sign * (b.coefficient.natAbs : Int) : Int) : ℚ) = b.coefficient := by
        rw [Int.sign_mul_natAbs]
      rw [Int.cast_mul, Int.cast_natCast] at hint
      exact hint.symm
    have hsq : (b.coefficient.sign : ℚ) * b.coefficient.sign = 1 := by
      rcases Int.lt_or_gt_of_ne hb with hneg | hgt
      · simp [Int.sign_eq_neg_one_of_neg hneg]
      · simp [Int.sign_eq_one_of_pos hgt]
    have hnat : (b.coefficient.natAbs : ℚ) ≠ 0 := by exact_mod_cast (Int.natAbs_pos.2 hb).ne'
    have hsgn : (b.coefficient.sign : ℚ) ≠ 0 := fun h => by simp [h] at hsq
    rw [value, value, hsign]
    push_cast
    field_simp
    linear_combination (a.coefficient : ℚ) * hsq
  obtain ⟨hvalue, hdefined⟩ := fitQuotient_spec (a.coefficient * b.coefficient.sign * 10 ^ b.scale) hpos
    (le_refl 28)
  rw [hx] at hvalue hdefined
  exact ⟨hvalue, fun hlow hhigh => hdefined (roundHalfEven_fits hlow hhigh)⟩

theorem div_eq_checked (a : Decimal) {b : Decimal} (hb : b.coefficient ≠ 0) : a.div b = checked (a.quotient b) :=
  if_neg hb

theorem less_iff {a b : Decimal} : a.less b = true ↔ a.value < b.value := by
  rw [less, decide_eq_true_eq, value, value, div_lt_div_iff₀ (by positivity) (by positivity)]
  exact_mod_cast Iff.rfl

/-- `(int)a` cuts towards zero: the result is negative from −1 on down. -/
theorem truncated_nonneg_iff (a : Decimal) : 0 ≤ a.coefficient.tdiv (10 ^ a.scale) ↔ -1 < a.value := by
  have hpow : (0 : Int) < 10 ^ a.scale := by positivity
  rw [value, lt_div_iff₀ (by positivity)]
  have hcast : (-1 * 10 ^ a.scale : ℚ) < a.coefficient ↔ -(10 ^ a.scale) < a.coefficient := by
    rw [neg_one_mul]
    exact_mod_cast Iff.rfl
  rw [hcast]
  rcases le_or_gt 0 a.coefficient with hpos | hneg
  · exact ⟨fun _ => by omega, fun _ => Int.tdiv_nonneg hpos hpow.le⟩
  · obtain ⟨k, hk⟩ : ∃ k, a.coefficient = -k := ⟨-a.coefficient, by omega⟩
    rw [hk, Int.neg_tdiv, Int.tdiv_eq_ediv_of_nonneg (by omega), neg_nonneg, neg_lt_neg_iff]
    constructor
    · intro hdiv
      by_contra hle
      have hone : 1 ≤ k / 10 ^ a.scale := (Int.le_ediv_iff_mul_le hpow).2 (by omega)
      omega
    · intro hlt
      rw [Int.ediv_eq_zero_of_lt (by omega) hlt]

theorem truncated_le {a : Decimal} {k : Nat} (h : a.value ≤ k) : a.coefficient.tdiv (10 ^ a.scale) ≤ k := by
  have hpow : (0 : Int) < 10 ^ a.scale := by positivity
  rw [value, div_le_iff₀ (by positivity)] at h
  have hint : a.coefficient ≤ k * 10 ^ a.scale := by exact_mod_cast h
  rcases le_or_gt 0 a.coefficient with hpos | hneg
  · rw [Int.tdiv_eq_ediv_of_nonneg hpos]
    exact Int.ediv_le_of_le_mul hpow hint
  · obtain ⟨m, hm⟩ : ∃ m, a.coefficient = -m := ⟨-a.coefficient, by omega⟩
    have hnonneg : 0 ≤ m.tdiv (10 ^ a.scale) := Int.tdiv_nonneg (by omega) hpow.le
    rw [hm, Int.neg_tdiv]
    omega

/-- What `(int)a` gives is `a` without its places, and it gives something inside the 32 bits. -/
theorem toI32_eq_ok_iff {a : Decimal} {n : I32} :
    a.toI32 = .ok n ↔ a.coefficient.tdiv (10 ^ a.scale) = n.toInt := by
  rw [toI32]
  constructor
  · intro h
    split at h
    · rename_i hrange
      cases h
      exact (I32.toInt_ofInt hrange).symm
    · cases h
  · intro h
    have hbounds := I32.toInt_bounds n
    rw [h, if_pos hbounds, BitVec.ofInt_toInt]

theorem value_min (a b : Decimal) : (a.min b).value = Min.min a.value b.value := by
  rw [min]
  split
  · rename_i hless
    rw [min_eq_right (less_iff.1 hless).le]
  · rename_i hless
    rw [min_eq_left (not_lt.1 fun h => hless (less_iff.2 h))]

@[simp] theorem value_ofI32 (n : I32) : (ofI32 n).value = n.toInt := by simp [value, ofI32]

end Decimal

end TxPlatform
