import CommandPool.Backoff
import CommandPool.Proofs.Binary64.Rounding
import Mathlib.Tactic.NormNum

/-!
# Delays with a whole multiplier

The delays are computed in binary64.  As long as its operands are whole numbers a product is
exact up to `2 ^ 53`, and from there on it stays at least that, or becomes infinite (`Follows`).
The cap is less than `2 ^ 53`, so it hides whatever rounding has done.  The exponent stops to
grow at `2 ^ 31 - 1`, and by then every power other than one is beyond the cap.
-/

namespace CommandPool.Binary64

variable {x y : Binary64} {m n u v k fuel top : Nat} {e : Int}

/-! ## Whole numbers -/

/-- The number is this whole number, or both are at least `2 ^ 53`. -/
inductive Follows : Binary64 → Nat → Prop where
  | exact {m v : Nat} {e : Int} : magnitude m e = v → Follows (.finite false m e) v
  | beyond {x : Binary64} {v : Nat} : 2 ^ 53 ≤ v → AtLeast (2 ^ 53) x → Follows x v

theorem lt_two_pow_1024 (small : v ≤ 2 ^ 53) : (v : ℚ) < 2 ^ 1024 := by
  have le : (v : ℚ) ≤ 2 ^ 53 := by exact_mod_cast small
  exact le.trans_lt (pow_lt_pow_right₀ one_lt_two (by omega))

/-- A whole number is rounded to a number that follows it. -/
theorem follows_round (whole : magnitude m e = v) (positive : 1 ≤ v) :
    Follows (round false m e) v := by
  have large : (1 : ℚ) ≤ magnitude m e := by
    rw [whole]
    exact_mod_cast positive
  by_cases small : v ≤ 2 ^ 53
  · have less : magnitude m e < 2 ^ 1024 := whole ▸ lt_two_pow_1024 small
    obtain ⟨n, f, finite, same⟩ := round_exact (whole ▸ fits_natCast small) large less false
    rw [finite]
    exact .exact (same.trans whole)
  · refine .beyond (not_le.mp small).le ((atLeast_round_iff large).mpr (Or.inl ?_))
    refine le_rounded (fits_two_pow 53) ?_
    rw [whole]
    exact_mod_cast (not_le.mp small).le

theorem follows_ofNat (positive : 1 ≤ v) : Follows (ofNat v) v :=
  follows_round (magnitude_whole v) positive

theorem follows_of_value? (value : x.value? = some (v : ℚ)) (positive : 1 ≤ v) : Follows x v := by
  cases x with
  | nan => cases value
  | infinite => cases value
  | finite negative m e =>
    have value : (if negative then -magnitude m e else magnitude m e) = (v : ℚ) :=
      Option.some.inj value
    cases negative with
    | false => exact .exact value
    | true =>
      have below := magnitude_nonneg m e
      have above : (1 : ℚ) ≤ v := by exact_mod_cast positive
      rw [← value, if_pos rfl] at above
      exact absurd (zero_lt_one.trans_le above) (neg_nonpos.mpr below).not_gt

theorem Follows.atLeast (follows : Follows x v) (positive : 1 ≤ v) : AtLeast 1 x := by
  cases follows with
  | exact whole =>
    refine .finite ?_
    rw [whole]
    exact_mod_cast positive
  | beyond _ least =>
    cases least with
    | infinite => exact .infinite
    | finite le => exact .finite (le_trans (by norm_num) le)

theorem Follows.mul (left : Follows x u) (right : Follows y v) (positive : 1 ≤ u)
    (positive' : 1 ≤ v) : Follows (Binary64.mul x y) (u * v) := by
  have one_le : (1 : ℚ) ≤ 2 ^ 53 := by norm_num
  have fits := fits_two_pow 53
  cases left with
  | beyond large least =>
    refine .beyond (le_trans large (Nat.le_mul_of_pos_right u positive')) ?_
    have product := least.mul (right.atLeast positive') one_le le_rfl (by simpa using fits)
    rwa [mul_one] at product
  | exact whole =>
    cases right with
    | beyond large least =>
      refine .beyond (le_trans large (Nat.le_mul_of_pos_left v positive)) ?_
      have first := (Follows.exact whole).atLeast positive
      have product := first.mul least le_rfl one_le (by simpa using fits)
      rwa [one_mul] at product
    | exact whole' =>
      refine follows_round ?_ (Nat.mul_pos positive positive')
      rw [magnitude_mul, whole, whole']
      exact_mod_cast rfl

/-! ## Powers -/

theorem follows_powLoop {r a : Binary64} (begun : Follows r u) (base : Follows a v)
    (positive : 1 ≤ u) (positive' : 1 ≤ v) (enough : n < 2 ^ fuel) :
    Follows (powLoop fuel r a n) (u * v ^ n) := by
  induction fuel generalizing r a u v n with
  | zero =>
    obtain rfl : n = 0 := by simpa using enough
    simpa [powLoop] using begun
  | succ fuel ih =>
    have next : Follows (if n % 2 = 1 then Binary64.mul r a else r) (u * v ^ (n % 2)) := by
      split
      next odd =>
        rw [odd, pow_one]
        exact begun.mul base positive positive'
      next even =>
        rw [show n % 2 = 0 by omega, pow_zero, mul_one]
        exact begun
    rw [powLoop]
    split
    next last =>
      have digit : v ^ (n % 2) = v ^ n := by rw [Nat.mod_eq_of_lt (by omega)]
      rwa [digit] at next
    next =>
      have rest := ih next (base.mul base positive' positive')
        (Nat.mul_pos positive (Nat.pow_pos positive')) (Nat.mul_pos positive' positive')
        (n := n / 2) (by omega)
      have digits : v ^ (n % 2) * (v * v) ^ (n / 2) = v ^ n := by
        rw [← pow_two, ← pow_mul, ← pow_add, Nat.mod_add_div]
      rwa [mul_assoc, digits] at rest

theorem follows_pow (base : Follows x v) (positive : 1 ≤ v) (n : Nat) :
    Follows (pow x n) (v ^ n) := by
  have enough : n < 2 ^ (bitLength n + 1) :=
    (lt_two_pow_bitLength n).trans (Nat.pow_lt_pow_succ one_lt_two)
  have power := follows_powLoop (.exact (by simp [magnitude])) base le_rfl positive enough
    (r := one) (u := 1)
  rwa [one_mul] at power

/-! ## The cap -/

theorem min_finite (m n : Nat) (e f : Int) :
    min (.finite false m e) (.finite false n f) =
      if magnitude n f < magnitude m e then .finite false n f else .finite false m e := by
  simp only [min, lt, scaledLt_iff]

theorem floorBelow_eq (whole : magnitude m e = v) :
    floorBelow top (.finite false m e) = Min.min top v := by
  refine eq_of_forall_le_iff fun j => ?_
  rw [le_floorBelow_iff, whole, Nat.cast_le, le_min_iff]

/-- The lesser of two numbers that follow whole numbers, the second of them less than
`2 ^ 53`. -/
theorem floorBelow_min_eq (follows : Follows x u) (cap : Follows y v) (small : v < 2 ^ 53)
    (room : 2 ^ 53 ≤ top) : floorBelow top (min x y) = Min.min u v := by
  cases cap with
  | beyond large => omega
  | @exact n _ f whole' =>
    cases follows with
    | @exact m _ e whole =>
      rw [min_finite]
      split
      next less =>
        rw [whole, whole', Nat.cast_lt] at less
        rw [floorBelow_eq whole']
        omega
      next more =>
        rw [whole, whole', Nat.cast_lt] at more
        rw [floorBelow_eq whole]
        omega
    | beyond large least =>
      -- The first number is hidden by the second.
      have picks : min x (.finite false n f) = .finite false n f := by
        cases least with
        | infinite => rfl
        | finite le =>
          rw [min_finite, if_pos]
          rw [whole']
          exact lt_of_lt_of_le (by exact_mod_cast small) le
      rw [picks, floorBelow_eq whole']
      omega

end CommandPool.Binary64

namespace CommandPool.Backoff.Policy

open Binary64

variable {p : Policy} {i m k n : Nat}

/-- The cap hides what is left out of the exponent. -/
theorem min_growth (positive : 1 ≤ i) (grows : 1 ≤ k) (small : m < 2 ^ 53) (n : Nat) :
    min (i * k ^ min n steepest) m = min (i * k ^ n) m := by
  by_cases flat : n ≤ steepest
  · rw [min_eq_left flat]
  rcases grows.lt_or_eq with more | rfl
  · have beyond : ∀ n, 53 ≤ n → m ≤ i * k ^ n := by
      intro n long
      calc m ≤ 2 ^ 53 := small.le
        _ ≤ 2 ^ n := Nat.pow_le_pow_right two_pos long
        _ ≤ k ^ n := Nat.pow_le_pow_left more n
        _ ≤ i * k ^ n := Nat.le_mul_of_pos_left _ positive
    have long : 53 ≤ steepest := by decide
    rw [min_eq_right (beyond _ (by omega)), min_eq_right (beyond _ (by omega))]
  · simp

theorem delayMillis_eq (whole : p.multiplier.value? = some (k : ℚ)) (grows : 1 ≤ k)
    (positive : 1 ≤ p.initial.millis) (ordered : p.initial.millis ≤ p.max.millis)
    (small : p.max.millis < 2 ^ 53) (n : Nat) :
    p.delayMillis n = wholeDelay p.initial.millis p.max.millis k n := by
  rw [delayMillis, wholeDelay]
  split
  next => rfl
  next =>
    have growth := follows_pow (follows_of_value? whole grows) grows (min (n - 1) steepest)
    have wanted := (follows_ofNat positive).mul growth positive (Nat.pow_pos grows)
    have cap := follows_ofNat (positive.trans ordered)
    exact (floorBelow_min_eq wanted cap small (by decide)).trans
      (min_growth positive grows small (n - 1))

theorem wholeDelay_le (i m k n : Nat) : wholeDelay i m k n ≤ m := by
  unfold wholeDelay
  split
  next => exact Nat.zero_le m
  next => exact min_le_right _ _

theorem wholeDelay_mono (grows : 1 ≤ k) : Monotone (wholeDelay i m k) := by
  intro n n' le
  unfold wholeDelay
  split
  next => exact Nat.zero_le _
  next =>
    rw [if_neg (by omega)]
    exact min_le_min_right m (Nat.mul_le_mul_left i (Nat.pow_le_pow_right grows (by omega)))

/-- The multiplier is a whole number, the initial interval has a whole millisecond and the
greatest one is less than `2 ^ 53` milliseconds.  Then every delay is what unbounded arithmetic on
whole milliseconds gives.  So the delays never fall and never exceed the greatest interval. -/
theorem delays_are_whole (whole : p.multiplier.value? = some (k : ℚ)) (grows : 1 ≤ k)
    (positive : 1 ≤ p.initial.millis) (ordered : p.initial.millis ≤ p.max.millis)
    (small : p.max.millis < 2 ^ 53) :
    (∀ n, p.delay n = .ofMillis (wholeDelay p.initial.millis p.max.millis k n)) ∧
      (∀ n n', n ≤ n' → (p.delay n).nanos ≤ (p.delay n').nanos) ∧
      ∀ n, (p.delay n).nanos ≤ p.max.nanos := by
  have all : ∀ n, p.delay n = .ofMillis (wholeDelay p.initial.millis p.max.millis k n) :=
    fun n => congrArg Duration.ofMillis (delayMillis_eq whole grows positive ordered small n)
  refine ⟨all, fun n n' le => ?_, fun n => ?_⟩
  · have ordered := wholeDelay_mono (i := p.initial.millis) (m := p.max.millis) grows le
    simp only [all, Duration.ofMillis]
    omega
  · have capped := wholeDelay_le p.initial.millis p.max.millis k n
    simp only [all, Duration.ofMillis, Duration.millis] at capped ⊢
    omega

/-- Ten and a half milliseconds, trebled each time, at most ten seconds. -/
def trebling : Policy := ⟨⟨10500000⟩, .ofSecs 10, .ofBits 0x4008000000000000⟩

theorem delays_are_whole_trebling :
    trebling.multiplier.value? = some 3 ∧ trebling.delay 4 = .ofMillis 270 ∧
      trebling.delay 4294967295 = .ofMillis 10000 := by
  have three : trebling.multiplier.value? = some ((3 : Nat) : ℚ) := by
    have bits : trebling.multiplier = .finite false (3 * 2 ^ 51) (-51) := by decide +kernel
    rw [bits]
    show some (magnitude (3 * 2 ^ 51) (-51)) = _
    rw [magnitude_shift]
    simp [magnitude]
  have delays := (delays_are_whole three (by decide) (by decide) (by decide) (by decide)).1
  have beyond : ∀ n, 10000 < n → wholeDelay 10 10000 3 n = 10000 := by
    intro n late
    have power : n - 1 < 3 ^ (n - 1) := Nat.lt_pow_self (by decide)
    rw [wholeDelay, if_neg (by omega)]
    exact min_eq_right (by simp only [Nat.pow_eq]; omega)
  refine ⟨three, (delays 4).trans (by decide), (delays 4294967295).trans ?_⟩
  exact congrArg Duration.ofMillis (beyond 4294967295 (by decide))

end CommandPool.Backoff.Policy
