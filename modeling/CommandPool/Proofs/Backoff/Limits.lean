import CommandPool.Proofs.Backoff.WholeDelays

/-!
# The limits of a delay

A policy is checked in nanoseconds, and its delays are computed from whole milliseconds in
binary64.  So a delay does not lie between the intervals of the policy but between what is
`counted` of them: the whole milliseconds, rounded to binary64, up to the longest delay.  Less
than all is counted of an interval with a part of a millisecond, and from `2 ^ 53` milliseconds on
an interval may count for more than it is.  `delays_keep_limits_iff` says exactly when the delays
of an accepted policy keep within its intervals all the same.
-/

namespace CommandPool.Binary64

variable {x y : Binary64} {i m n j k fuel top : Nat} {e : Int} {q : ℚ}

/-! ## Cutting the lesser of two numbers -/

theorem AtLeast.trans {p : ℚ} (least : AtLeast q x) (le : p ≤ q) : AtLeast p x := by
  cases least with
  | infinite => exact .infinite
  | finite le' => exact .finite (le.trans le')

theorem floorBelow_mono {n : Nat} {f : Int} (le : magnitude m e ≤ magnitude n f) (top : Nat) :
    floorBelow top (.finite false m e) ≤ floorBelow top (.finite false n f) := by
  obtain ⟨room, below⟩ := le_floorBelow_iff.mp (le_refl (floorBelow top (.finite false m e)))
  exact le_floorBelow_iff.mpr ⟨room, below.trans le⟩

theorem floorBelow_le_top (least : AtLeast 0 x) (top : Nat) : floorBelow top x ≤ top := by
  cases least with
  | infinite => exact le_rfl
  | finite => exact (le_floorBelow_iff.mp le_rfl).1

theorem le_floorBelow (least : AtLeast q x) (room : j ≤ top) (le : (j : ℚ) ≤ q) :
    j ≤ floorBelow top x := by
  cases least with
  | infinite => exact room
  | finite le' => exact le_floorBelow_iff.mpr ⟨room, le.trans le'⟩

theorem floorBelow_min (left : AtLeast 0 x) (right : AtLeast 0 y) (top : Nat) :
    floorBelow top (min x y) = Min.min (floorBelow top x) (floorBelow top y) := by
  have less := floorBelow_le_top left top
  have less' := floorBelow_le_top right top
  cases left with
  | infinite =>
    cases right with
    | infinite => exact (min_self _).symm
    | finite => exact (min_eq_right less').symm
  | @finite m e =>
    cases right with
    | infinite => exact (min_eq_left less).symm
    | @finite n f =>
      rw [min_finite]
      split
      next below => exact (min_eq_right (floorBelow_mono below.le top)).symm
      next above => exact (min_eq_left (floorBelow_mono (not_lt.mp above) top)).symm

/-- What is not a number gives way to the other, and what is negative is cut to nothing. -/
theorem floorBelow_min_le (cap : AtLeast 0 y) (x : Binary64) (top : Nat) :
    floorBelow top (min x y) ≤ floorBelow top y := by
  have plain : AtLeast 0 x → floorBelow top (min x y) ≤ floorBelow top y := by
    intro least
    rw [floorBelow_min least cap]
    exact min_le_right _ _
  have negative : min x y = x → floorBelow top x = 0 →
      floorBelow top (min x y) ≤ floorBelow top y := by
    intro same none
    rw [same, none]
    exact Nat.zero_le _
  cases x with
  | nan => exact le_rfl
  | infinite s =>
    cases s with
    | false => exact plain .infinite
    | true => exact negative (by cases cap <;> rfl) rfl
  | finite s m e =>
    cases s with
    | false => exact plain (.finite (magnitude_nonneg m e))
    | true => exact negative (by cases cap <;> rfl) rfl

/-! ## Growing -/

theorem AtLeast.mul_one_le (left : AtLeast q x) (right : AtLeast 1 y) (large : 1 ≤ q)
    (fits : Fits q) : AtLeast q (Binary64.mul x y) := by
  have product := left.mul right large le_rfl (by rwa [mul_one])
  rwa [mul_one] at product

theorem atLeast_one : AtLeast 1 one := .finite (by simp [magnitude])

theorem atLeast_powLoop {r a : Binary64} (begun : AtLeast 1 r) (base : AtLeast 1 a) :
    AtLeast 1 (powLoop fuel r a n) := by
  induction fuel generalizing r a n with
  | zero => exact begun
  | succ fuel ih =>
    have next : AtLeast 1 (if n % 2 = 1 then Binary64.mul r a else r) := by
      split
      next => exact begun.mul_one_le base le_rfl fits_one
      next => exact begun
    rw [powLoop]
    split
    next => exact next
    next => exact ih next (base.mul_one_le base le_rfl fits_one)

theorem atLeast_pow (base : AtLeast 1 x) (n : Nat) : AtLeast 1 (pow x n) :=
  atLeast_powLoop atLeast_one base

/-! ## Whole numbers -/

theorem one_le_magnitude (positive : 1 ≤ m) : 1 ≤ magnitude m 0 := by
  rw [magnitude_whole]
  exact_mod_cast positive

theorem ofNat_zero : ofNat 0 = .finite false 0 0 := by decide

theorem atLeast_ofNat_iff (positive : 1 ≤ m) :
    AtLeast q (ofNat m) ↔ q ≤ rounded m 0 ∨ 2 ^ 1024 ≤ rounded m 0 :=
  atLeast_round_iff (one_le_magnitude positive)

theorem atLeast_ofNat_mono (positive : 1 ≤ i) (le : i ≤ m) (least : AtLeast q (ofNat i)) :
    AtLeast q (ofNat m) := by
  rw [atLeast_ofNat_iff positive] at least
  exact (atLeast_ofNat_iff (positive.trans le)).mpr
    (least.imp (·.trans (rounded_mono le)) (·.trans (rounded_mono le)))

theorem one_atLeast_ofNat (positive : 1 ≤ m) : AtLeast 1 (ofNat m) :=
  (atLeast_ofNat_iff positive).mpr (Or.inl (le_rounded fits_one (one_le_magnitude positive)))

theorem zero_atLeast_ofNat (m : Nat) : AtLeast 0 (ofNat m) := by
  rcases m.eq_zero_or_pos with rfl | positive
  · rw [ofNat_zero]
    exact .finite (magnitude_nonneg 0 0)
  · exact (one_atLeast_ofNat positive).trans zero_le_one

/-- A whole number is cut to no more than another number that is at least what it is rounded to. -/
theorem floorBelow_ofNat_le (positive : 1 ≤ i) (room : top ≤ 2 ^ 64)
    (least : ∀ q, 1 ≤ q → Fits q → AtLeast q (ofNat i) → AtLeast q x) :
    floorBelow top (ofNat i) ≤ floorBelow top x := by
  have large := one_le_magnitude positive
  rcases round_cases large false with ⟨_, n, f, finite, value⟩ | ⟨_, infinite⟩
  · have itself : AtLeast (rounded i 0) (ofNat i) := by
      rw [ofNat, finite, ← value]
      exact .finite le_rfl
    have more := least _ (le_rounded fits_one large) (fits_rounded i 0) itself
    rw [ofNat, finite]
    obtain ⟨fits, below⟩ := le_floorBelow_iff.mp (le_refl (floorBelow top (.finite false n f)))
    exact le_floorBelow more fits (value ▸ below)
  · have one_le : (1 : ℚ) ≤ 2 ^ 64 := by norm_num
    have itself : AtLeast (2 ^ 64) (ofNat i) := by
      rw [ofNat, infinite]
      exact .infinite
    rw [ofNat, infinite]
    exact le_floorBelow (least _ one_le (fits_two_pow 64) itself) le_rfl (by exact_mod_cast room)

/-- A whole number up to `2 ^ 53` is itself when it is cut. -/
theorem floorBelow_ofNat (small : m ≤ 2 ^ 53) (room : 2 ^ 53 ≤ top) :
    floorBelow top (ofNat m) = m := by
  rcases m.eq_zero_or_pos with rfl | positive
  · rw [ofNat_zero, floorBelow_eq (magnitude_whole 0)]
    exact min_eq_right (Nat.zero_le top)
  · have whole := magnitude_whole m
    obtain ⟨n, f, finite, same⟩ := round_exact (whole ▸ fits_natCast small)
      (one_le_magnitude positive) (whole ▸ lt_two_pow_1024 small) false
    rw [ofNat, finite, floorBelow_eq (same.trans whole)]
    exact min_eq_right (small.trans room)

/-- What fits and is at least a whole number is at least what that is rounded to. -/
theorem floorBelow_ofNat_le_of_fits {n : Nat} {f : Int} (fits : Fits (magnitude n f))
    (less : magnitude n f < 2 ^ 1024) (le : (m : ℚ) ≤ magnitude n f) (top : Nat) :
    floorBelow top (ofNat m) ≤ floorBelow top (.finite false n f) := by
  rcases m.eq_zero_or_pos with rfl | positive
  · rw [ofNat_zero]
    exact floorBelow_mono (by rwa [magnitude_whole]) top
  · have nearest : rounded m 0 ≤ magnitude n f := rounded_le fits (by rwa [magnitude_whole])
    rcases round_cases (one_le_magnitude positive) false with
      ⟨_, n', f', finite, value⟩ | ⟨more, _⟩
    · rw [ofNat, finite]
      exact floorBelow_mono (value ▸ nearest) top
    · exact absurd less (more.trans nearest).not_gt

/-- A product of numbers that are at least one is infinite, or it fits. -/
theorem mul_cases (left : AtLeast 1 x) (right : AtLeast 1 y) :
    Binary64.mul x y = .infinite false ∨ ∃ n f, Binary64.mul x y = .finite false n f ∧
      Fits (magnitude n f) ∧ magnitude n f < 2 ^ 1024 := by
  cases left with
  | infinite =>
    cases right with
    | infinite => exact Or.inl rfl
    | finite le => exact Or.inl (if_neg (ne_zero_of_le le_rfl le))
  | @finite m e le =>
    cases right with
    | infinite => exact Or.inl (if_neg (ne_zero_of_le le_rfl le))
    | @finite n f le' =>
      have product : 1 ≤ magnitude (m * n) (e + f) := by
        rw [magnitude_mul]
        exact one_le_mul_of_one_le_of_one_le le le'
      rcases round_cases product false with ⟨less, n', f', finite, value⟩ | ⟨_, infinite⟩
      · exact Or.inr ⟨n', f', finite, value ▸ fits_rounded _ _, value ▸ less⟩
      · exact Or.inl infinite

/-- A whole number times one. -/
theorem floorBelow_mul_one (i top : Nat) :
    floorBelow top (Binary64.mul (ofNat i) one) = floorBelow top (ofNat i) := by
  rcases i.eq_zero_or_pos with rfl | positive
  · have zero : Binary64.mul (ofNat 0) one = ofNat 0 := by decide
    rw [zero]
  · rcases round_cases (one_le_magnitude positive) false with
      ⟨less, n, f, finite, value⟩ | ⟨_, infinite⟩
    · have large : 1 ≤ magnitude n f := value ▸ le_rounded fits_one (one_le_magnitude positive)
      obtain ⟨n', f', finite', same⟩ := round_exact (value ▸ fits_rounded i 0) large (value ▸ less)
        false
      have product : Binary64.mul (.finite false n f) one = .finite false n' f' := by
        rw [← finite', one, Binary64.mul, mul_one, add_zero]
        rfl
      rw [ofNat, finite, product]
      exact le_antisymm (floorBelow_mono same.le top) (floorBelow_mono same.ge top)
    · rw [ofNat, infinite]
      rfl

/-! ## A product and a cap -/

variable {g : Binary64}

/-- What is cut of the lesser of a product and a cap is not less than the whole number of the
product, if the cap is not. -/
theorem floorBelow_ofNat_le_min_mul (growth : AtLeast 1 g) (ordered : i ≤ m)
    (room : top ≤ 2 ^ 64) : floorBelow top (ofNat i) ≤
      floorBelow top (min (Binary64.mul (ofNat i) g) (ofNat m)) := by
  rcases i.eq_zero_or_pos with rfl | positive
  · rw [ofNat_zero, floorBelow_eq (magnitude_whole 0)]
    exact (min_le_right _ _).trans (Nat.zero_le _)
  · have wanted := (one_atLeast_ofNat positive).mul_one_le growth le_rfl fits_one
    rw [floorBelow_min (wanted.trans zero_le_one) (zero_atLeast_ofNat m)]
    refine le_min ?_ ?_
    · exact floorBelow_ofNat_le positive room fun q large fits least =>
        least.mul_one_le growth large fits
    · exact floorBelow_ofNat_le positive room fun q _ _ least =>
        atLeast_ofNat_mono positive ordered least

/-- If it exceeds the whole number of the cap, it is all of the cap. -/
theorem floorBelow_min_mul_eq (growth : AtLeast 1 g) (positive : 1 ≤ i)
    (beyond : m < floorBelow top (min (Binary64.mul (ofNat i) g) (ofNat m))) :
    floorBelow top (min (Binary64.mul (ofNat i) g) (ofNat m)) = floorBelow top (ofNat m) := by
  have wanted := (one_atLeast_ofNat positive).mul_one_le growth le_rfl fits_one
  have cap := zero_atLeast_ofNat m
  rw [floorBelow_min (wanted.trans zero_le_one) cap] at beyond ⊢
  refine min_eq_right ?_
  rcases mul_cases (one_atLeast_ofNat positive) growth with infinite | ⟨n, f, finite, fits, less⟩
  · rw [infinite]
    exact floorBelow_le_top cap top
  · rw [finite] at beyond ⊢
    obtain ⟨_, below⟩ := le_floorBelow_iff.mp (beyond.trans_le (min_le_left _ _))
    refine floorBelow_ofNat_le_of_fits fits less (le_trans ?_ below) top
    exact_mod_cast Nat.le_succ m

end CommandPool.Binary64

namespace CommandPool.Backoff.Policy

open Binary64

variable {p : Policy} {n : Nat}

/-- What a delay counts of an interval: its whole milliseconds, rounded to binary64, up to the
longest delay. -/
def counted (d : Duration) : Duration := .ofMillis ((Binary64.ofNat d.millis).floorBelow longest)

/-- Every delay lies between the intervals of the policy. -/
def KeepsLimits (p : Policy) : Prop :=
  ∀ n, 1 ≤ n → p.initial.nanos ≤ (p.delay n).nanos ∧ (p.delay n).nanos ≤ p.max.nanos

/-- What is checked of a policy. -/
theorem of_validate (accepted : p.validate = .ok ()) :
    1 ≤ p.initial.nanos ∧ p.initial.nanos ≤ p.max.nanos ∧ AtLeast 1 p.multiplier := by
  unfold validate at accepted
  split at accepted
  next => cases accepted
  next given =>
    split at accepted
    next => cases accepted
    next ordered =>
      split at accepted
      next => cases accepted
      next grows =>
        refine ⟨by omega, by omega, ?_⟩
        cases multiplier : p.multiplier with
        | nan => simp [multiplier, isFinite] at grows
        | infinite => simp [multiplier, isFinite] at grows
        | finite s m e =>
          rw [multiplier, isFinite, Bool.not_true, Bool.false_or] at grows
          cases s with
          | true => simp [one, lt] at grows
          | false =>
            refine .finite ?_
            rwa [one, lt, scaledLt_iff, magnitude_whole, not_lt, Nat.cast_one] at grows

theorem delay_of_pos (positive : 1 ≤ n) : p.delay n = .ofMillis (floorBelow longest
    (Binary64.min (Binary64.mul (.ofNat p.initial.millis)
      (p.multiplier.pow (min (n - 1) steepest))) (.ofNat p.max.millis))) := by
  rw [delay, delayMillis, if_neg (by omega)]

theorem millis_mono {d d' : Duration} (le : d.nanos ≤ d'.nanos) : d.millis ≤ d'.millis :=
  Nat.div_le_div_right le

theorem nanos_ofMillis (ms : Nat) : (Duration.ofMillis ms).nanos = ms * 1000000 := rfl

/-- A delay is at least what is counted of the initial interval. -/
theorem counted_le_delay (accepted : p.validate = .ok ()) (positive : 1 ≤ n) :
    (counted p.initial).nanos ≤ (p.delay n).nanos := by
  obtain ⟨_, ordered, grows⟩ := of_validate accepted
  rw [delay_of_pos positive, counted, nanos_ofMillis, nanos_ofMillis]
  exact Nat.mul_le_mul_right _ (floorBelow_ofNat_le_min_mul (atLeast_pow grows _)
    (millis_mono ordered) (by decide))

/-- A delay is at most what is counted of the greatest interval. -/
theorem delay_le_counted (positive : 1 ≤ n) : (p.delay n).nanos ≤ (counted p.max).nanos := by
  rw [delay_of_pos positive, counted, nanos_ofMillis, nanos_ofMillis]
  exact Nat.mul_le_mul_right _ (floorBelow_min_le (zero_atLeast_ofNat _) _ _)

/-- The first delay is what is counted of the initial interval. -/
theorem delay_one (accepted : p.validate = .ok ()) : p.delay 1 = counted p.initial := by
  obtain ⟨_, ordered, grows⟩ := of_validate accepted
  have least : AtLeast 0 (Binary64.mul (.ofNat p.initial.millis) .one) := by
    rcases p.initial.millis.eq_zero_or_pos with none | some
    · rw [none]
      exact .finite (magnitude_nonneg 0 0)
    · exact ((one_atLeast_ofNat some).mul_one_le atLeast_one le_rfl fits_one).trans zero_le_one
  rw [delay_of_pos le_rfl, counted]
  refine congrArg Duration.ofMillis (le_antisymm ?_ ?_)
  · show floorBelow longest (Binary64.min (Binary64.mul _ one) _) ≤ _
    rw [floorBelow_min least (zero_atLeast_ofNat _), floorBelow_mul_one]
    exact min_le_left _ _
  · exact floorBelow_ofNat_le_min_mul (atLeast_pow grows _) (millis_mono ordered) (by decide)

/-- A delay beyond the greatest interval is all that is counted of that. -/
theorem delay_eq_counted (accepted : p.validate = .ok ()) (positive : 1 ≤ n)
    (some : 1 ≤ p.initial.millis) (beyond : p.max.nanos < (p.delay n).nanos) :
    p.delay n = counted p.max := by
  obtain ⟨_, _, grows⟩ := of_validate accepted
  rw [delay_of_pos positive] at beyond ⊢
  refine congrArg Duration.ofMillis (floorBelow_min_mul_eq (atLeast_pow grows _) some ?_)
  exact Nat.div_lt_of_lt_mul (by rwa [nanos_ofMillis, Nat.mul_comm] at beyond)

/-- Something is counted of an interval with a whole millisecond, and only of such a one. -/
theorem counted_pos_iff {d : Duration} : 0 < (counted d).nanos ↔ 1 ≤ d.millis := by
  rw [counted, nanos_ofMillis]
  constructor
  · intro some
    by_contra none
    rw [show d.millis = 0 by omega, ofNat_zero, floorBelow_eq (magnitude_whole 0)] at some
    omega
  · intro some
    have one_le : 1 ≤ floorBelow longest (ofNat d.millis) :=
      le_floorBelow (one_atLeast_ofNat some) (by decide) (by norm_num)
    omega

/-- Up to `2 ^ 53` milliseconds all whole milliseconds are counted. -/
theorem counted_of_le {d : Duration} (small : d.millis ≤ 2 ^ 53) :
    counted d = .ofMillis d.millis := by
  rw [counted, floorBelow_ofNat small (by decide)]

/-- An accepted policy keeps its limits if all of its initial interval is counted, and either no
more is counted of its greatest one than it is or no delay is that long. -/
theorem keepsLimits_iff (accepted : p.validate = .ok ()) :
    p.KeepsLimits ↔ p.initial.nanos ≤ (counted p.initial).nanos ∧
      ((counted p.max).nanos ≤ p.max.nanos ∨ ∀ n, 1 ≤ n → p.delay n ≠ counted p.max) := by
  constructor
  · intro keeps
    refine ⟨delay_one accepted ▸ (keeps 1 le_rfl).1, ?_⟩
    refine Classical.or_iff_not_imp_left.mpr fun more n positive same => more ?_
    rw [← same]
    exact (keeps n positive).2
  · rintro ⟨whole, capped⟩ n positive
    refine ⟨whole.trans (counted_le_delay accepted positive), ?_⟩
    rcases capped with less | missed
    · exact (delay_le_counted positive).trans less
    · have some := counted_pos_iff.mp ((of_validate accepted).1.trans whole)
      exact not_lt.mp fun beyond =>
        missed n positive (delay_eq_counted accepted positive some beyond)

/-- The delays of an accepted policy lie between its intervals exactly if all of the initial
interval is counted, and of the greatest one no more than it is, unless no delay is that long.
If the greatest interval has at most `2 ^ 53` milliseconds, this means that the initial one is
without a part of a millisecond.  And it is waited before every retry exactly if the initial
interval has a whole millisecond. -/
theorem delays_keep_limits_iff (accepted : p.validate = .ok ()) :
    (p.KeepsLimits ↔ p.initial.nanos ≤ (counted p.initial).nanos ∧
      ((counted p.max).nanos ≤ p.max.nanos ∨ ∀ n, 1 ≤ n → p.delay n ≠ counted p.max)) ∧
      (p.max.millis ≤ 2 ^ 53 → (p.KeepsLimits ↔ 1000000 ∣ p.initial.nanos)) ∧
      ((∀ n, 1 ≤ n → 0 < (p.delay n).nanos) ↔ 1 ≤ p.initial.millis) := by
  obtain ⟨_, ordered, _⟩ := of_validate accepted
  refine ⟨keepsLimits_iff accepted, fun small => ?_, fun waits => ?_, fun some n positive => ?_⟩
  · rw [keepsLimits_iff accepted, counted_of_le small,
      counted_of_le ((millis_mono ordered).trans small), nanos_ofMillis, nanos_ofMillis]
    constructor
    · rintro ⟨whole, _⟩
      rw [Duration.millis] at whole
      omega
    · intro whole
      simp only [Duration.millis]
      exact ⟨by omega, Or.inl (by omega)⟩
  · rw [← counted_pos_iff, ← delay_one accepted]
    exact waits 1 le_rfl
  · exact (counted_pos_iff.mpr some).trans_le (counted_le_delay accepted positive)

/-- Half a millisecond, doubled each time, at most a second. -/
def hasty : Policy := ⟨⟨500000⟩, .ofSecs 1, .two⟩

theorem delays_keep_limits_iff_hasty :
    hasty.validate = .ok () ∧ ¬ hasty.KeepsLimits ∧
      ¬ ∀ n, 1 ≤ n → 0 < (hasty.delay n).nanos := by
  have accepted : hasty.validate = .ok () := by decide +kernel
  obtain ⟨_, ordinary, waits⟩ := delays_keep_limits_iff accepted
  have small : hasty.max.millis ≤ 2 ^ 53 := by decide
  exact ⟨accepted, fun keeps => absurd ((ordinary small).mp keeps) (by decide),
    fun all => absurd (waits.mp all) (by decide)⟩

/-- Slightly more than `2 ^ 53` milliseconds, both at first and at most. -/
def vast : Policy := ⟨.ofMillis (2 ^ 53 + 3), .ofMillis (2 ^ 53 + 3), .two⟩

/-- A delay of an accepted policy may be shorter than its initial interval, even no time at all,
and may be longer than its greatest one. -/
theorem accepted_delays_leave_limits :
    (¬ ∀ (p : Policy) (n : Nat), p.validate = .ok () → 1 ≤ n →
      p.initial.nanos ≤ (p.delay n).nanos) ∧
    (¬ ∀ (p : Policy) (n : Nat), p.validate = .ok () → 1 ≤ n → 0 < (p.delay n).nanos) ∧
    ¬ ∀ (p : Policy) (n : Nat), p.validate = .ok () → 1 ≤ n →
      (p.delay n).nanos ≤ p.max.nanos := by
  have hasty_accepted : hasty.validate = .ok () := by decide +kernel
  have vast_accepted : vast.validate = .ok () := by decide +kernel
  refine ⟨fun long => ?_, fun waits => ?_, fun short => ?_⟩
  · exact absurd (long hasty 1 hasty_accepted le_rfl) (by decide +kernel)
  · exact absurd (waits hasty 1 hasty_accepted le_rfl) (by decide +kernel)
  · exact absurd (short vast 1 vast_accepted le_rfl) (by decide +kernel)

end CommandPool.Backoff.Policy
