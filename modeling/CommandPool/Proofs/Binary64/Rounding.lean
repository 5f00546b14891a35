import CommandPool.Binary64.Basic
import Mathlib.Algebra.Order.Field.Power
import Mathlib.Data.Rat.Cast.Order
import Mathlib.Tactic.Positivity
import Mathlib.Tactic.GCongr
import Mathlib.Tactic.Ring

/-!
# Rounding keeps its side

The value of a finite number is `magnitude m e`.  Rounding is read off `rounded`, which is the
nearest number as if there were no greatest one; from `2 ^ 1024` on the number is infinite
instead (`atLeast_round_iff`).  All that is used of rounding is that it never crosses a number
that `Fits`, one with 53 binary digits and none below `2 ^ -1074`: what lies on one side of it is
rounded to that side, or to the number itself (`le_rounded`, `rounded_le`).  So a number that
fits is rounded to itself, and rounding keeps the order.
-/

namespace CommandPool.Binary64

variable {m n k j : Nat} {e f : Int} {q : ℚ} {negative : Bool}

/-! ## Magnitudes -/

/-- The number `m * 2 ^ e`. -/
def magnitude (m : Nat) (e : Int) : ℚ := m * 2 ^ e

/-- The value of a finite number. -/
def value? : Binary64 → Option ℚ
  | .finite negative m e => some (if negative then -magnitude m e else magnitude m e)
  | _ => none

theorem magnitude_nonneg (m : Nat) (e : Int) : 0 ≤ magnitude m e := by
  unfold magnitude
  positivity

theorem magnitude_pos_iff : 0 < magnitude m e ↔ 0 < m := by
  have unit : (0 : ℚ) < 2 ^ e := by positivity
  rw [magnitude, mul_pos_iff_of_pos_right unit, Nat.cast_pos]

theorem magnitude_natCast (m k : Nat) : magnitude m k = (m * 2 ^ k : Nat) := by
  simp [magnitude]

theorem magnitude_whole (m : Nat) : magnitude m 0 = m := by simp [magnitude]

theorem magnitude_le_iff : magnitude m e ≤ magnitude n e ↔ m ≤ n := by
  have unit : (0 : ℚ) < 2 ^ e := by positivity
  rw [magnitude, magnitude, mul_le_mul_iff_left₀ unit, Nat.cast_le]

theorem magnitude_lt_iff : magnitude m e < magnitude n e ↔ m < n := by
  rw [← not_le, magnitude_le_iff, not_le]

/-- A factor of two goes over to the exponent. -/
theorem magnitude_shift (m k : Nat) (e : Int) : magnitude (m * 2 ^ k) e = magnitude m (e + k) := by
  rw [magnitude, magnitude, zpow_add₀ two_ne_zero, zpow_natCast]
  push_cast
  ring

theorem magnitude_mul (m n : Nat) (e f : Int) :
    magnitude (m * n) (e + f) = magnitude m e * magnitude n f := by
  rw [magnitude, magnitude, magnitude, zpow_add₀ two_ne_zero]
  push_cast
  ring

/-- A magnitude in a smaller unit. -/
theorem magnitude_eq_of_le (le : f ≤ e) : magnitude m e = magnitude (m * 2 ^ (e - f).toNat) f := by
  rw [magnitude_shift, Int.toNat_of_nonneg (by omega)]
  congr 1
  omega

/-! ## Digits -/

theorem two_pow_le_of_bitLength (positive : 0 < m) : 2 ^ (bitLength m - 1) ≤ m := by
  rw [bitLength, if_neg positive.ne', Nat.add_sub_cancel]
  exact Nat.log2_self_le positive.ne'

theorem lt_two_pow_bitLength (m : Nat) : m < 2 ^ bitLength m := by
  unfold bitLength
  split
  next zero => simp [zero]
  next => exact Nat.lt_log2_self

theorem bitLength_le_iff : bitLength m ≤ k ↔ m < 2 ^ k := by
  constructor
  · intro short
    exact (lt_two_pow_bitLength m).trans_le (Nat.pow_le_pow_right two_pos short)
  · intro less
    by_cases positive : 0 < m
    · have between := (two_pow_le_of_bitLength positive).trans_lt less
      have := (Nat.pow_lt_pow_iff_right one_lt_two).mp between
      omega
    · obtain rfl : m = 0 := by omega
      exact Nat.zero_le k

/-- The digits and the exponent say between which powers of two a magnitude is. -/
theorem bitLength_add_le_iff (positive : 0 < m) (top : Int) :
    (bitLength m : Int) + e ≤ top ↔ magnitude m e < 2 ^ top := by
  have low : (2 : ℚ) ^ ((bitLength m : Int) - 1 + e) ≤ magnitude m e := by
    have digits : 1 ≤ bitLength m := by
      rw [bitLength, if_neg positive.ne']
      omega
    rw [zpow_add₀ two_ne_zero, magnitude]
    gcongr
    have : ((bitLength m : Int) - 1) = ((bitLength m - 1 : Nat) : Int) := by omega
    rw [this, zpow_natCast]
    exact_mod_cast two_pow_le_of_bitLength positive
  have high : magnitude m e < (2 : ℚ) ^ ((bitLength m : Int) + e) := by
    rw [zpow_add₀ two_ne_zero, magnitude, zpow_natCast]
    gcongr
    exact_mod_cast lt_two_pow_bitLength m
  constructor
  · intro short
    exact high.trans_le (zpow_le_zpow_right₀ one_le_two short)
  · intro less
    have := (zpow_lt_zpow_iff_right₀ one_lt_two).mp (low.trans_lt less)
    omega

/-! ## Comparing and cutting -/

theorem scaledLt_iff : scaledLt m e n f = true ↔ magnitude m e < magnitude n f := by
  rw [magnitude_eq_of_le (min_le_left e f), magnitude_eq_of_le (min_le_right e f),
    magnitude_lt_iff, scaledLt, decide_eq_true_iff]
  rfl

/-- Cutting a number to a whole one below `top` keeps the whole numbers that are below it. -/
theorem le_floorBelow_iff {top : Nat} :
    j ≤ floorBelow top (.finite false m e) ↔ j ≤ top ∧ (j : ℚ) ≤ magnitude m e := by
  rw [floorBelow, ← magnitude_whole j]
  show j ≤ Min.min top _ ↔ _
  rw [le_min_iff]
  refine and_congr_right fun _ => ?_
  split
  next positive =>
    obtain ⟨k, rfl⟩ := Int.eq_ofNat_of_zero_le positive
    rw [magnitude_natCast, magnitude_whole, Nat.cast_le]
    rfl
  next negative =>
    have below : e ≤ 0 := by omega
    rw [magnitude_eq_of_le below, magnitude_le_iff, zero_sub]
    exact Nat.le_div_iff_mul_le (Nat.pow_pos two_pos)

/-! ## Rounding -/

theorem le_roundShift (le : j * 2 ^ k ≤ n) : j ≤ roundShift n k := by
  have quotient : j ≤ n / 2 ^ k := (Nat.le_div_iff_mul_le (by positivity)).mpr le
  unfold roundShift
  show j ≤ if _ then n / 2 ^ k + 1 else n / 2 ^ k
  split
  next => exact quotient.trans (Nat.le_succ _)
  next => exact quotient

theorem roundShift_le (le : n ≤ j * 2 ^ k) : roundShift n k ≤ j := by
  have unit : 0 < 2 ^ k := by positivity
  have quotient : n / 2 ^ k ≤ j := Nat.div_le_of_le_mul (by rwa [Nat.mul_comm])
  have whole := Nat.div_add_mod n (2 ^ k)
  unfold roundShift
  show (if (_ || _) = true then n / 2 ^ k + 1 else n / 2 ^ k) ≤ j
  split
  next up =>
    -- There is something to round up, so the quotient is not `j`.
    have rest : 0 < n % 2 ^ k := by
      by_contra none
      have zero : n % Nat.pow 2 k = 0 := Nat.eq_zero_of_not_pos none
      rw [zero] at up
      simp [unit.ne] at up
    refine Nat.lt_of_le_of_ne quotient fun same => ?_
    rw [same, Nat.mul_comm] at whole
    omega
  next => exact quotient

theorem roundShift_mono (le : m ≤ n) (k : Nat) : roundShift m k ≤ roundShift n k := by
  have quotients : m / 2 ^ k ≤ n / 2 ^ k := Nat.div_le_div_right le
  have first := Nat.div_add_mod m (2 ^ k)
  have second := Nat.div_add_mod n (2 ^ k)
  rcases quotients.lt_or_eq with less | same
  · calc roundShift m k ≤ m / 2 ^ k + 1 :=
          roundShift_le (by rw [Nat.mul_comm]; exact (Nat.lt_mul_div_succ m (by positivity)).le)
      _ ≤ n / 2 ^ k := less
      _ ≤ roundShift n k := le_roundShift (Nat.div_mul_le_self n (2 ^ k))
  · have rests : m % 2 ^ k ≤ n % 2 ^ k := by
      rw [same] at first
      omega
    simp only [roundShift, Nat.pow_eq, same, Bool.or_eq_true, Bool.and_eq_true, decide_eq_true_eq,
      beq_iff_eq]
    split
    next up =>
      rw [if_pos]
      omega
    next => split <;> omega

/-- The number nearest to `m * 2 ^ e`, as if there were no greatest one. -/
def rounded (m : Nat) (e : Int) : ℚ := magnitude (roundShift m (excess m e)) (e + excess m e)

/-- A number with 53 binary digits, none of them below `2 ^ -1074`. -/
def Fits (q : ℚ) : Prop := ∃ m e, m ≤ 2 ^ 53 ∧ -1074 ≤ e ∧ q = magnitude m e

theorem fits_natCast (small : n ≤ 2 ^ 53) : Fits n :=
  ⟨n, 0, small, by omega, (magnitude_whole n).symm⟩

theorem fits_one : Fits 1 := by simpa using fits_natCast (n := 1) Nat.one_le_two_pow

theorem fits_two_pow (k : Nat) : Fits (2 ^ k) :=
  ⟨1, k, Nat.one_le_two_pow, by omega, by simp [magnitude]⟩

theorem fits_rounded (m : Nat) (e : Int) : Fits (rounded m e) := by
  refine ⟨_, _, roundShift_le ?_, ?_, rfl⟩
  · have enough : bitLength m ≤ 53 + excess m e := by
      unfold excess
      omega
    rw [← pow_add]
    exact (bitLength_le_iff.mp enough).le
  · unfold excess
    omega

/-- A number that fits is a multiple of the unit to which `m * 2 ^ e` is rounded, or nothing is
rounded, or it is at most the least number with 53 digits in that unit and `m * 2 ^ e` is no
less. -/
theorem Fits.cases (fits : Fits q) (m : Nat) (e : Int) :
    (∃ j, q = magnitude j (e + excess m e)) ∨ excess m e = 0 ∨
      q ≤ magnitude (2 ^ 52) (e + excess m e) ∧ 2 ^ 52 * 2 ^ excess m e ≤ m := by
  obtain ⟨n, f, digits, above, rfl⟩ := fits
  by_cases coarse : e + excess m e ≤ f
  · exact Or.inl ⟨_, magnitude_eq_of_le coarse⟩
  · refine Or.inr (Classical.or_iff_not_imp_left.mpr fun shifts => ?_)
    have long : excess m e = bitLength m - 53 := by
      unfold excess at coarse shifts ⊢
      omega
    constructor
    · rw [magnitude_eq_of_le (not_le.mp coarse).le, magnitude_le_iff]
      calc n ≤ 2 ^ 52 * 2 ^ 1 := digits
        _ ≤ 2 ^ 52 * 2 ^ (e + excess m e - f).toNat :=
          Nat.mul_le_mul_left _ (Nat.pow_le_pow_right two_pos (by omega))
    · rw [← pow_add, long]
      have positive : 0 < m := by
        by_contra none
        obtain rfl : m = 0 := by omega
        exact shifts (long.trans rfl)
      exact (Nat.pow_le_pow_right two_pos (by omega)).trans (two_pow_le_of_bitLength positive)

theorem rounded_of_excess (exact : excess m e = 0) : rounded m e = magnitude m e := by
  have same : roundShift m 0 = m :=
    le_antisymm (roundShift_le (by simp)) (le_roundShift (by simp))
  rw [rounded, exact, same]
  simp

/-- What is at least a number that fits is rounded to at least that. -/
theorem le_rounded (fits : Fits q) (le : q ≤ magnitude m e) : q ≤ rounded m e := by
  rcases fits.cases m e with ⟨j, rfl⟩ | exact | ⟨small, long⟩
  · rw [← magnitude_shift, magnitude_le_iff] at le
    exact magnitude_le_iff.mpr (le_roundShift le)
  · rwa [rounded_of_excess exact]
  · exact small.trans (magnitude_le_iff.mpr (le_roundShift long))

/-- What is at most a number that fits is rounded to at most that. -/
theorem rounded_le (fits : Fits q) (le : magnitude m e ≤ q) : rounded m e ≤ q := by
  rcases fits.cases m e with ⟨j, rfl⟩ | exact | ⟨small, long⟩
  · rw [← magnitude_shift, magnitude_le_iff] at le
    exact magnitude_le_iff.mpr (roundShift_le le)
  · rwa [rounded_of_excess exact]
  · -- All three numbers are the least one with 53 digits.
    have least : magnitude (2 ^ 52) (e + excess m e) ≤ magnitude m e := by
      rw [← magnitude_shift]
      exact magnitude_le_iff.mpr long
    have most : m ≤ 2 ^ 52 * 2 ^ excess m e := by
      rw [← magnitude_le_iff (e := e), magnitude_shift]
      exact le.trans small
    exact (magnitude_le_iff.mpr (roundShift_le most)).trans (least.trans le)

/-- A number that fits is rounded to itself. -/
theorem rounded_eq (fits : Fits (magnitude m e)) : rounded m e = magnitude m e :=
  le_antisymm (rounded_le fits le_rfl) (le_rounded fits le_rfl)

/-- Rounding whole numbers keeps their order. -/
theorem rounded_mono (le : m ≤ n) : rounded m 0 ≤ rounded n 0 := by
  have shift : ∀ m, excess m 0 = bitLength m - 53 := by
    intro m
    unfold excess
    omega
  by_cases same : excess m 0 = excess n 0
  · rw [rounded, rounded, same]
    exact magnitude_le_iff.mpr (roundShift_mono le _)
  · -- A power of two lies between them.
    have shorter : bitLength m ≤ bitLength n - 1 := by
      have digits := bitLength_le_iff.mpr (le.trans_lt (lt_two_pow_bitLength n))
      rw [shift, shift] at same
      omega
    have positive : 0 < n := by
      by_contra none
      obtain rfl : n = 0 := by omega
      obtain rfl : m = 0 := by omega
      exact same rfl
    have between : (2 ^ (bitLength n - 1) : ℚ) = magnitude (2 ^ (bitLength n - 1)) 0 := by
      rw [magnitude_whole, Nat.cast_pow, Nat.cast_ofNat]
    have fits := fits_two_pow (bitLength n - 1)
    refine le_trans (rounded_le fits ?_) (le_rounded fits ?_)
    · rw [between, magnitude_le_iff]
      exact (bitLength_le_iff.mp shorter).le
    · rw [between, magnitude_le_iff]
      exact two_pow_le_of_bitLength positive

/-! ## The rounded number -/

/-- A number from one on is rounded to a finite number if it is less than `2 ^ 1024` by then, and
otherwise to an infinite one. -/
theorem round_cases (large : 1 ≤ magnitude m e) (negative : Bool) :
    (rounded m e < 2 ^ 1024 ∧ ∃ n f, round negative m e = .finite negative n f ∧
      magnitude n f = rounded m e) ∨
    2 ^ 1024 ≤ rounded m e ∧ round negative m e = .infinite negative := by
  have nearest : 0 < roundShift m (excess m e) :=
    magnitude_pos_iff.mp (zero_lt_one.trans_le (le_rounded fits_one large))
  have digits := bitLength_add_le_iff (e := e + excess m e) nearest 1024
  rw [← rounded] at digits
  unfold round
  simp only
  split
  next long =>
    refine Or.inr ⟨not_lt.mp fun less => ?_, rfl⟩
    exact absurd (digits.mpr (by exact_mod_cast less)) (by omega)
  next short =>
    refine Or.inl ⟨?_, _, _, rfl, rfl⟩
    exact_mod_cast digits.mp (by omega)

/-- A number that fits is not rounded. -/
theorem round_exact (fits : Fits (magnitude m e)) (large : 1 ≤ magnitude m e)
    (less : magnitude m e < 2 ^ 1024) (negative : Bool) :
    ∃ n f, round negative m e = .finite negative n f ∧ magnitude n f = magnitude m e := by
  rcases round_cases large negative with ⟨_, n, f, finite, value⟩ | ⟨more, _⟩
  · exact ⟨n, f, finite, value.trans (rounded_eq fits)⟩
  · rw [rounded_eq fits] at more
    exact absurd less more.not_gt

/-- A number is infinite, or it is finite and at least `q`, and it has no sign. -/
inductive AtLeast (q : ℚ) : Binary64 → Prop where
  | infinite : AtLeast q (.infinite false)
  | finite {m : Nat} {e : Int} : q ≤ magnitude m e → AtLeast q (.finite false m e)

theorem atLeast_round_iff (large : 1 ≤ magnitude m e) :
    AtLeast q (round false m e) ↔ q ≤ rounded m e ∨ 2 ^ 1024 ≤ rounded m e := by
  rcases round_cases large false with ⟨less, n, f, finite, value⟩ | ⟨more, infinite⟩
  · rw [finite, ← value]
    refine ⟨fun least => ?_, fun either => .finite (either.resolve_right ?_)⟩
    · cases least with
      | finite le => exact Or.inl le
    · rw [value]
      exact not_le.mpr less
  · rw [infinite]
    exact iff_of_true .infinite (Or.inr more)

theorem ne_zero_of_le (large : 1 ≤ q) (le : q ≤ magnitude m e) : m ≠ 0 :=
  (magnitude_pos_iff.mp (zero_lt_one.trans_le (large.trans le))).ne'

/-- A product of numbers that are at least one. -/
theorem AtLeast.mul {x y : Binary64} {p : ℚ} (left : AtLeast p x) (right : AtLeast q y)
    (large : 1 ≤ p) (large' : 1 ≤ q) (fits : Fits (p * q)) :
    AtLeast (p * q) (Binary64.mul x y) := by
  cases left with
  | infinite =>
    cases right with
    | infinite => exact .infinite
    | finite le =>
      rw [Binary64.mul, if_neg (ne_zero_of_le large' le)]
      exact .infinite
  | finite le =>
    cases right with
    | infinite =>
      rw [Binary64.mul, if_neg (ne_zero_of_le large le)]
      exact .infinite
    | @finite n f le' =>
      have product : p * q ≤ magnitude _ _ * magnitude n f :=
        mul_le_mul le le' (zero_le_one.trans large') (magnitude_nonneg _ _)
      rw [← magnitude_mul] at product
      have beyond : 1 ≤ p * q := one_le_mul_of_one_le_of_one_le large large'
      exact (atLeast_round_iff (beyond.trans product)).mpr (Or.inl (le_rounded fits product))

end CommandPool.Binary64
