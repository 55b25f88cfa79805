import ExampleTests.Json.Number
import ExampleTests.Proofs.Decimal.Arithmetic
import ExampleTests.Proofs.Json.Closeness

/-! Decimals scaled by floats. The digits and the power of ten are rounded before the
operation whose result is rounded in turn, and a power of ten that is out of range takes
two divisions. What the last of them rounds is close to the decimal. -/

namespace ExampleTests.Json

open Binary64 (Canonical Rounded Unpacks exists_canonical rounded_of_eq)

section LargestPower

/-- The significand of the float nearest to `10 ^ 308`. -/
def largestSignificand : Nat := 5010420900022432

theorem largestSignificand_cast : (largestSignificand : ℚ) = 5010420900022432 := by
  rw [largestSignificand, Nat.cast_ofNat]

theorem largestPower_bounds :
    10 ^ 308 ≤ largestSignificand * 2 ^ 971 ∧
      10 * 2 ^ 53 * (largestSignificand * 2 ^ 971) ≤ (10 * 2 ^ 53 + 1) * 10 ^ 308 ∧
      2 * largestSignificand * 2 ^ 971 < (2 * 10 ^ 308) + 2 ^ 971 := by
  decide +kernel

theorem largestPower_near :
    (10 : ℚ) ^ 308 ≤ largestSignificand * 2 ^ (971 : Int) ∧
      largestSignificand * 2 ^ (971 : Int) ≤ (10 : ℚ) ^ 308 * (1 + 1 / (10 * 2 ^ 53)) := by
  obtain ⟨hlow, hhigh, -⟩ := largestPower_bounds
  have hl : (10 : ℚ) ^ 308 ≤ largestSignificand * 2 ^ 971 := by exact_mod_cast hlow
  have hh : 10 * 2 ^ 53 * ((largestSignificand : ℚ) * 2 ^ 971) ≤ (10 * 2 ^ 53 + 1) * 10 ^ 308 := by
    exact_mod_cast hhigh
  have hz : (2 : ℚ) ^ (971 : Int) = 2 ^ 971 := zpow_natCast 2 971
  rw [hz]
  generalize (2 : ℚ) ^ 971 = unit at hl hh
  generalize (10 : ℚ) ^ 308 = power at hl hh
  exact ⟨hl, by linarith⟩

theorem rounded_largestPower : Rounded (10 ^ 308) largestSignificand 971 := by
  obtain ⟨hlow, -, hhigh⟩ := largestPower_bounds
  have hl : (10 : ℚ) ^ 308 ≤ largestSignificand * 2 ^ 971 := by exact_mod_cast hlow
  have hh : 2 * (largestSignificand : ℚ) * 2 ^ 971 < 2 * 10 ^ 308 + 2 ^ 971 := by
    exact_mod_cast hhigh
  have hz : (2 : ℚ) ^ (971 : Int) = 2 ^ 971 := zpow_natCast 2 971
  have hpos : (0 : ℚ) < 2 ^ 971 := pow_pos (by norm_num) _
  have hcanonical : Canonical largestSignificand 971 :=
    ⟨by decide, by decide, by decide, .inl (by decide), by decide⟩
  refine ⟨hcanonical, Binary64.contains_of_nearest hcanonical.pos ?_ fun h => absurd h (by decide)⟩
  rw [hz]
  generalize (2 : ℚ) ^ 971 = unit at hl hh hpos
  generalize (10 : ℚ) ^ 308 = power at hl hh
  have hle : power / unit ≤ largestSignificand := (div_le_iff₀ hpos).mpr hl
  have hlt : 2 * largestSignificand - 1 < 2 * (power / unit) := by
    rw [mul_div_assoc', lt_div_iff₀ hpos]
    linarith
  exact ⟨hlt.le, by linarith, fun _ => ⟨hlt, by linarith⟩⟩

end LargestPower

section Routes

variable {x y : Float} {m m₁ m₂ n s k rounds : Nat} {q q₁ q₂ e : Int} {v : ℚ}

theorem lt_overflow (h : n ≤ (2 ^ 53 - 1) * 2 ^ 971) : (n : ℚ) < (2 ^ 53 - 1 / 2) * 2 ^ (971 : Int) := by
  have hr : (n : ℚ) ≤ ((2 ^ 53 - 1 : Nat) : ℚ) * 2 ^ 971 := by exact_mod_cast h
  have hz : (2 : ℚ) ^ (971 : Int) = 2 ^ 971 := zpow_natCast 2 971
  have hpos : (0 : ℚ) < 2 ^ 971 := pow_pos (by norm_num) _
  rw [hz]
  generalize (2 : ℚ) ^ 971 = unit at hr hpos
  norm_num at hr ⊢
  linarith

theorem tiny_lt_one : (2 : ℚ) ^ (-1074 : Int) / 2 < 1 ∧ (2 : ℚ) ^ (-1022 : Int) ≤ 1 := by
  have hle : ∀ n : Int, n ≤ 0 → (2 : ℚ) ^ n ≤ 1 := fun n hn =>
    zpow_le_one_of_nonpos₀ (by norm_num) hn
  have h := hle (-1074) (by decide)
  exact ⟨by linarith, hle _ (by decide)⟩

/-- A natural number that is no larger than a float has a float next to it. -/
theorem exists_rounded_nat (hn : 0 < n) (h : n ≤ (2 ^ 53 - 1) * 2 ^ 971) :
    ∃ m q, Rounded (n : ℚ) m q :=
  Binary64.exists_rounded (tiny_lt_one.1.trans_le (by exact_mod_cast hn)) (lt_overflow h)

theorem rounded_nat_bounds (hn : 0 < n) (h : Rounded (n : ℚ) m q) :
    2 ^ 52 ≤ m ∧ |(n : ℚ) - m * 2 ^ q| ≤ n / 2 ^ 53 := by
  have hone : (1 : ℚ) ≤ n := by exact_mod_cast hn
  have hnormal := tiny_lt_one.2.trans hone
  exact ⟨h.normal hnormal, h.relative hnormal⟩

/-- Digits of 53 bits are a float, others are rounded to one. -/
theorem exists_significand (hs : 0 < s) (hlt : s < 2 ^ 64) :
    ∃ m q, Rounded (s : ℚ) m q ∧ Unpacks (UInt64.ofNat s).toFloat m q ∧
      (s < 2 ^ 53 → (m : ℚ) * 2 ^ q = s) := by
  by_cases hexact : s < 2 ^ 53
  · obtain ⟨m, q, hx, hv⟩ := Binary64.exists_unpacks_ofNat hs hexact
    exact ⟨m, q, rounded_of_eq hx.canonical hv, hx, fun _ => hv⟩
  · have hle : 2 ^ 64 ≤ (2 ^ 53 - 1) * 2 ^ 971 := by decide +kernel
    obtain ⟨m, q, hr⟩ := exists_rounded_nat hs (hlt.le.trans hle)
    exact ⟨m, q, hr, Binary64.unpacks_ofNat hs hlt hr, fun h => absurd h hexact⟩

theorem exists_power (hk : k ≤ 308) :
    ∃ (m : Nat) (q : Int), 2 ^ 52 ≤ m ∧ |(10 : ℚ) ^ k - m * 2 ^ q| ≤ 10 ^ k / 2 ^ 53 ∧
      |(10 : ℚ) ^ k - m * 2 ^ q| ≤ m * 2 ^ q / 2 ^ 53 ∧ Unpacks (powerOfTen k) m q := by
  have hpos : 0 < 10 ^ k := Nat.pow_pos (by decide)
  have hle : 10 ^ k ≤ (2 ^ 53 - 1) * 2 ^ 971 :=
    (Nat.pow_le_pow_right (by decide) hk).trans (by decide +kernel)
  obtain ⟨m, q, hr⟩ := exists_rounded_nat hpos hle
  obtain ⟨hm, herr⟩ := rounded_nat_bounds hpos hr
  rw [Nat.cast_pow, Nat.cast_ofNat] at hr herr
  exact ⟨m, q, hm, herr, hr.relative_float hm, Binary64.unpacks_powerOfTen hk hr⟩

/-- Up to `10 ^ 22` the powers of ten are floats. -/
theorem exists_exact_power (hk : k ≤ 22) :
    ∃ (m : Nat) (q : Int), (m : ℚ) * 2 ^ q = 10 ^ k ∧ Unpacks (powerOfTen k) m q := by
  have hlt : 5 ^ k < 2 ^ 53 :=
    Nat.lt_of_le_of_lt (Nat.pow_le_pow_right (by decide) hk) (by decide)
  obtain ⟨m, q, hc, hv⟩ := exists_canonical (Nat.pow_pos (by decide)) hlt (show k ≤ 900 by omega)
  have hten : (m : ℚ) * 2 ^ q = 10 ^ k := by
    rw [hv, Nat.cast_pow, ← mul_pow]
    norm_num
  exact ⟨m, q, hten, Binary64.unpacks_powerOfTen (by omega) (rounded_of_eq hc hten)⟩

theorem scaleFloat_up (hk : k ≤ 308) (h : Unpacks (x * powerOfTen k) m q) :
    scaleFloat (rounds + 1) x k = some (x * powerOfTen k) := by
  have hnat : (k : Int).natAbs = k := rfl
  have hk' : k ≤ largestPower := hk
  simp only [scaleFloat, hnat, hk', if_true, Int.natCast_nonneg, h.isInf_eq, Bool.false_eq_true, if_false]

theorem scaleFloat_down (hpos : 0 < k) (hk : k ≤ 308) (h : Unpacks (x / powerOfTen k) m q) :
    scaleFloat (rounds + 1) x (-k) = some (x / powerOfTen k) := by
  have hnat : (-(k : Int)).natAbs = k := by omega
  have hneg : ¬ (0 : Int) ≤ -k := by omega
  have hk' : k ≤ largestPower := hk
  simp only [scaleFloat, hnat, hk', if_true, hneg, h.isInf_eq, Bool.false_eq_true, if_false]

theorem scaleFloat_far (hx : Unpacks x m q) (hk : 308 < k) :
    scaleFloat (rounds + 1) x (-k) =
      scaleFloat rounds (x / powerOfTen largestPower) (-(k - 308 : Nat)) := by
  have hnat : (-(k : Int)).natAbs = k := by omega
  have hk' : ¬ k ≤ largestPower := Nat.not_le.mpr hk
  have hneg : ¬ (0 : Int) < -k := by omega
  have he : -(k : Int) + (largestPower : Nat) = -(k - 308 : Nat) := by
    have hl : largestPower = 308 := rfl
    omega
  simp only [scaleFloat, hnat, hk', hx.beq_zero, hneg, he, Bool.false_eq_true, if_false]

end Routes

section Far

variable {s m n : Nat} {q p : Int}

theorem quotient_bounds (s : Nat) :
    (s : ℚ) / (largestSignificand * 2 ^ (971 : Int)) ≤ s / 10 ^ 308 ∧
      (s : ℚ) / 10 ^ 308 ≤ s / (largestSignificand * 2 ^ (971 : Int)) * (1 + 1 / (10 * 2 ^ 53)) := by
  obtain ⟨hlow, hhigh⟩ := largestPower_near
  have hten : (0 : ℚ) < 10 ^ 308 := pow_pos (by norm_num) _
  have hs : (0 : ℚ) ≤ s := Nat.cast_nonneg s
  generalize (largestSignificand : ℚ) * 2 ^ (971 : Int) = float at hlow hhigh ⊢
  generalize (10 : ℚ) ^ 308 = power at hlow hhigh hten ⊢
  refine ⟨div_le_div_of_nonneg_left hs hten hlow, ?_⟩
  rw [div_mul_eq_mul_div, div_le_div_iff₀ hten (hten.trans_le hlow)]
  nlinarith

theorem exponent_nonneg (hs : 2 ^ 53 ≤ s) (hr : Rounded s m q) : 0 ≤ q := by
  by_contra hneg
  have hs' : (2 : ℚ) ^ 53 ≤ s := by exact_mod_cast hs
  have hm : (m : ℚ) + 1 ≤ 2 ^ 53 := by exact_mod_cast hr.canonical.lt
  have hpos : (0 : ℚ) < 2 ^ q := zpow_pos (by norm_num) q
  have hone : (2 : ℚ) ^ q ≤ 1 := zpow_le_one_of_nonpos₀ (by norm_num) (by omega)
  obtain ⟨-, hhalf⟩ := abs_le.mp hr.half
  nlinarith

/-- A significand under that of the power loses a bit by the division, and its quotient has
the finer unit of the two. -/
theorem quotient_error {unit : ℚ} {t : Int} (hunit : largestSignificand * unit = 2 ^ t) (ht : -1000 ≤ t)
    (hm : m < 2 ^ 53) (hq : Rounded (m * unit) n p) :
    |m * unit - n * 2 ^ p| ≤ 2 ^ t / 2 ^ 54 ∨
      largestSignificand ≤ m ∧ |m * unit - n * 2 ^ p| ≤ 2 ^ t / 2 ^ 53 := by
  have htwo : (2 : ℚ) ≠ 0 := by norm_num
  have hpos : (0 : ℚ) < 2 ^ t := zpow_pos (by norm_num) t
  have hw : 0 < unit := (mul_pos_iff_of_pos_left (by rw [largestSignificand_cast]; norm_num)).mp (hunit ▸ hpos)
  by_cases hcase : m < largestSignificand
  · have hunder : (m : ℚ) * unit < 2 ^ (t - 53 + 53) := by
      rw [sub_add_cancel, ← hunit]
      exact mul_lt_mul_of_pos_right (by exact_mod_cast hcase) hw
    have herr := hq.error_le (by omega) hunder
    have hscale : (2 : ℚ) ^ (t - 53) / 2 = 2 ^ t / 2 ^ 54 := by
      rw [zpow_sub₀ htwo, div_div]
      norm_num
    exact .inl (hscale ▸ herr)
  · have hm' : (m : ℚ) < 2 ^ 53 := by exact_mod_cast hm
    have hunder : (m : ℚ) * unit < 2 ^ (t - 52 + 53) := by
      rw [show t - 52 + 53 = t + 1 by omega, zpow_add_one₀ htwo, ← hunit, largestSignificand_cast]
      nlinarith
    have herr := hq.error_le (by omega) hunder
    have hscale : (2 : ℚ) ^ (t - 52) / 2 = 2 ^ t / 2 ^ 53 := by
      rw [zpow_sub₀ htwo, div_div]
      norm_num
    exact .inr ⟨Nat.not_lt.mp hcase, hscale ▸ herr⟩

/-- The quotient of digits that were rounded themselves. That the significand of the power
is about `0.556 * 2 ^ 53` leaves room for the three errors. -/
theorem far_large (hs : 2 ^ 53 ≤ s) (hr : Rounded s m q)
    (hq : Rounded (m * 2 ^ q / (largestSignificand * 2 ^ (971 : Int))) n p) :
    |(n : ℚ) * 2 ^ p - s / 10 ^ 308| ≤ (s : ℚ) / 10 ^ 308 * (2 / 2 ^ 53) := by
  have hq0 := exponent_nonneg hs hr
  have hm52 : (2 : ℚ) ^ 52 ≤ m := by exact_mod_cast hr.canonical.normal.resolve_right (by omega)
  have hfloat : (0 : ℚ) < largestSignificand * 2 ^ (971 : Int) :=
    (pow_pos (by norm_num) _).trans_le largestPower_near.1
  -- Everything is counted in the unit that the rounded digits have as a part of the power.
  obtain ⟨unit, hunit⟩ : ∃ unit : ℚ, unit = 2 ^ q / (largestSignificand * 2 ^ (971 : Int)) := ⟨_, rfl⟩
  have hw : 0 < unit := hunit ▸ div_pos (zpow_pos (by norm_num) q) hfloat
  have hpower : largestSignificand * unit = (2 : ℚ) ^ (q - 971) := by
    rw [hunit, zpow_sub₀ (by norm_num), mul_div_assoc',
      mul_div_mul_left _ _ (left_ne_zero_of_mul hfloat.ne')]
  have hdigits : |s / (largestSignificand * 2 ^ (971 : Int)) - m * unit| ≤ unit / 2 := by
    rw [hunit, mul_div_assoc', ← sub_div, abs_div, abs_of_pos hfloat, div_right_comm]
    exact div_le_div_of_nonneg_right hr.half hfloat.le
  rw [mul_div_assoc, ← hunit] at hq
  have herr := quotient_error hpower (by omega) hr.canonical.lt hq
  rw [← hpower, largestSignificand_cast] at herr
  obtain ⟨hbelow, habove⟩ := quotient_bounds s
  generalize (s : ℚ) / (largestSignificand * 2 ^ (971 : Int)) = b at hdigits hbelow habove
  generalize (s : ℚ) / 10 ^ 308 = d at hbelow habove ⊢
  obtain ⟨hdigits₁, hdigits₂⟩ := abs_le.mp hdigits
  rcases herr with herr | ⟨hcase, herr⟩
  · have hm := mul_le_mul_of_nonneg_right hm52 hw.le
    obtain ⟨herr₁, herr₂⟩ := abs_le.mp herr
    norm_num at herr₁ herr₂ hm
    refine abs_le.mpr ⟨?_, ?_⟩ <;> linarith
  · have hcase' : (largestSignificand : ℚ) ≤ m := by exact_mod_cast hcase
    have hm := mul_le_mul_of_nonneg_right (largestSignificand_cast ▸ hcase') hw.le
    obtain ⟨herr₁, herr₂⟩ := abs_le.mp herr
    norm_num at herr₁ herr₂
    refine abs_le.mpr ⟨?_, ?_⟩ <;> linarith

/-- Digits that are a float leave two errors, or one that the least float bounds. -/
theorem far_small (hexact : (m : ℚ) * 2 ^ q = s)
    (hq : Rounded (m * 2 ^ q / (largestSignificand * 2 ^ (971 : Int))) n p) :
    |(n : ℚ) * 2 ^ p - s / 10 ^ 308| ≤ (s : ℚ) / 10 ^ 308 * (2 / 2 ^ 53) ∨
      |(n : ℚ) * 2 ^ p - s / 10 ^ 308| ≤ 2 ^ (-1074 : Int) := by
  obtain ⟨hbelow, habove⟩ := quotient_bounds s
  have hpos : (0 : ℚ) ≤ s / 10 ^ 308 := by positivity
  rw [hexact] at hq
  generalize (s : ℚ) / (largestSignificand * 2 ^ (971 : Int)) = v at hq hbelow habove
  generalize (s : ℚ) / 10 ^ 308 = d at hbelow habove hpos ⊢
  by_cases hnormal : 2 ^ (-1022 : Int) ≤ v
  · obtain ⟨h₁, h₂⟩ := abs_le.mp (hq.relative hnormal)
    refine .inl (abs_le.mpr ⟨?_, ?_⟩) <;> linarith
  · have hscale : (2 : ℚ) ^ (-1022 : Int) = 2 ^ 52 * 2 ^ (-1074 : Int) := by
      rw [show (-1022 : Int) = (52 : Nat) + -1074 from rfl, zpow_add₀ (by norm_num), zpow_natCast]
    have hsub : v < 2 ^ ((-1074 : Int) + 53) := (not_le.mp hnormal).trans
      (zpow_lt_zpow_right₀ (by norm_num) (by decide))
    obtain ⟨h₁, h₂⟩ := abs_le.mp (hq.error_le (by decide) hsub)
    rw [hscale] at hnormal
    generalize (2 : ℚ) ^ (-1074 : Int) = unit at hnormal h₁ h₂ ⊢
    refine .inr (abs_le.mpr ⟨?_, ?_⟩) <;> linarith

/-- The first of two divisions stays among the floats. -/
theorem exists_far (hs : 0 < s) (hlt : s < 2 ^ 64) (hr : Rounded s m q) :
    ∃ n p, Rounded (m * 2 ^ q / (largestSignificand * 2 ^ (971 : Int))) n p := by
  obtain ⟨hlow, -⟩ := largestPower_near
  have hs1 : (1 : ℚ) ≤ s := by exact_mod_cast hs
  have hs64 : (s : ℚ) < 2 ^ 64 := by exact_mod_cast hlt
  have hten : (1 : ℚ) ≤ 10 ^ 308 := one_le_pow₀ (by norm_num)
  have hfloat := hten.trans hlow
  obtain ⟨h₁, h₂⟩ := abs_le.mp (rounded_nat_bounds hs hr).2
  have hsmall : (m : ℚ) * 2 ^ q < 2 ^ 65 := by linarith
  have hlarge : 1 / 2 < (m : ℚ) * 2 ^ q := by linarith
  refine Binary64.exists_rounded ?_ ?_
  · have hunit : (2 : ℚ) ^ (-1074 : Int) * 2 ^ (971 : Int) = 2 ^ (-103 : Int) := by
      rw [← zpow_add₀ (by norm_num)]
      rfl
    rw [lt_div_iff₀ (one_pos.trans_le hfloat), div_mul_eq_mul_div, mul_left_comm, hunit, largestSignificand_cast]
    norm_num
    linarith
  · have hle := div_le_self (by linarith : (0 : ℚ) ≤ m * 2 ^ q) hfloat
    have hover : ((2 ^ 65 : Nat) : ℚ) < _ := lt_overflow (n := 2 ^ 65) (by decide +kernel)
    refine (hle.trans_lt hsmall).trans ?_
    exact_mod_cast hover

end Far

section Scaled

variable {s k : Nat}

/-- The digits scaled by a power of ten are the float that a close number rounds to. -/
def ScalesClose (s : Nat) (e : Int) : Prop :=
  ∃ v, Close (s * 10 ^ e) v ∧ ∀ m q, Rounded v m q →
    ∃ x, scaleFloat 3 (UInt64.ofNat s).toFloat e = some x ∧ Unpacks x m q

theorem scalesClose_up (hs : 0 < s) (hlt : s < 2 ^ 64) (hk : k ≤ 308) : ScalesClose s k := by
  obtain ⟨m₁, q₁, hr, hx, -⟩ := exists_significand hs hlt
  obtain ⟨hnormal, herr⟩ := rounded_nat_bounds hs hr
  obtain ⟨m₂, q₂, -, herr', -, hy⟩ := exists_power hk
  refine ⟨m₁ * 2 ^ q₁ * (m₂ * 2 ^ q₂), .inl ?_, fun m q hv => ?_⟩
  · rw [zpow_natCast]
    exact mul_close (by exact_mod_cast hs) (by positivity) herr herr'
  · have hbits : 2 ^ 52 ≤ m₁ * m₂ := hnormal.trans (Nat.le_mul_of_pos_right _ hy.canonical.pos)
    have hu := hx.mul hy hbits hv
    exact ⟨_, scaleFloat_up hk hu, hu⟩

theorem scalesClose_down (hs : 0 < s) (hlt : s < 2 ^ 64) (hpos : 0 < k) (hk : k ≤ 308) :
    ScalesClose s (-k) := by
  obtain ⟨m₁, q₁, hr, hx, -⟩ := exists_significand hs hlt
  obtain ⟨-, herr⟩ := rounded_nat_bounds hs hr
  obtain ⟨m₂, q₂, hnormal, -, herr', hy⟩ := exists_power hk
  refine ⟨m₁ * 2 ^ q₁ / (m₂ * 2 ^ q₂), .inl ?_, fun m q hv => ?_⟩
  · have hfloat : (0 : ℚ) < m₂ * 2 ^ q₂ :=
      mul_pos (by exact_mod_cast hy.canonical.pos) (zpow_pos (by norm_num) _)
    rw [zpow_neg, zpow_natCast, ← div_eq_mul_inv]
    exact div_close (by exact_mod_cast hs) (by positivity) hfloat herr herr'
  · have hu := hx.div hy hv
    exact ⟨_, scaleFloat_down hpos hk hu, hu⟩

theorem scalesClose_far (hs : 0 < s) (hlt : s < 2 ^ 64) (hk : 308 < k) (hk' : k ≤ 330) :
    ScalesClose s (-k) := by
  obtain ⟨m₁, q₁, hr, hx, hexact⟩ := exists_significand hs hlt
  obtain ⟨n, p, hq⟩ := exists_far hs hlt hr
  obtain ⟨m₂, q₂, hten, hy⟩ := exists_exact_power (show k - 308 ≤ 22 by omega)
  have hlargest : Unpacks (powerOfTen largestPower) largestSignificand 971 :=
    Binary64.unpacks_powerOfTen (Nat.le_refl _) rounded_largestPower
  have hu := hx.div hlargest hq
  have hsplit : (s : ℚ) * 10 ^ (-(k : Int)) = s / 10 ^ 308 / 10 ^ (k - 308) := by
    have hadd : k = 308 + (k - 308) := by omega
    rw [zpow_neg, zpow_natCast, ← div_eq_mul_inv, div_div, ← pow_add, ← hadd]
  have hdiv : (10 : ℚ) ≤ 10 ^ (k - 308) := by
    have hle : (10 : ℚ) ^ 1 ≤ 10 ^ (k - 308) := pow_le_pow_right₀ (by norm_num) (by omega)
    rwa [pow_one] at hle
  have hd : (0 : ℚ) ≤ s / 10 ^ 308 := by positivity
  have herr := (em (s < 2 ^ 53)).elim (fun h => far_small (hexact h) hq)
    fun h => .inl (far_large (Nat.not_lt.mp h) hr hq)
  refine ⟨n * 2 ^ p / 10 ^ (k - 308), ?_, fun m q hv => ?_⟩
  · rw [hsplit, Close, ← sub_div, abs_div]
    generalize (s : ℚ) / 10 ^ 308 = d at herr hd ⊢
    generalize (10 : ℚ) ^ (k - 308) = power at hdiv ⊢
    have hpower : 0 < power := by linarith
    rw [abs_of_pos hpower, div_mul_eq_mul_div, div_le_div_iff_of_pos_right hpower,
      div_le_iff₀ hpower]
    have hunit : (0 : ℚ) < 2 ^ (-1074 : Int) := zpow_pos (by norm_num) _
    refine herr.imp (fun h => h.trans ?_) (fun h => h.trans ?_)
    · exact mul_le_mul_of_nonneg_left (by norm_num) hd
    · nlinarith [hunit]
  · rw [← hten] at hv
    have hw := hu.div hy hv
    refine ⟨_, ?_, hw⟩
    rw [scaleFloat_far hx hk]
    exact scaleFloat_down (by omega) (by omega) hw

theorem scalesClose {e : Int} (hs : 0 < s) (hlt : s < 2 ^ 64) (hlow : -330 ≤ e) (hhigh : e ≤ 308) :
    ScalesClose s e := by
  by_cases he : 0 ≤ e
  · obtain ⟨k, rfl⟩ := Int.eq_ofNat_of_zero_le he
    exact scalesClose_up hs hlt (by omega)
  · obtain ⟨k, rfl⟩ : ∃ k : Nat, e = -(k : Int) := ⟨(-e).toNat, by omega⟩
    by_cases hk : k ≤ 308
    · exact scalesClose_down hs hlt (by omega) hk
    · exact scalesClose_far hs hlt (by omega) (by omega)

/-- Digits and a power of ten that are floats themselves leave one rounding only. -/
theorem scaleFloat_exact {n j m : Nat} {q : Int} (hn : 0 < n) (hn53 : n < 2 ^ 53) (hj : j ≤ 900)
    (hlt : n * 2 ^ j < 2 ^ 64) (hpos : 0 < k) (hk : k ≤ 22)
    (hr : Rounded ((n * 2 ^ j : Nat) * 10 ^ (-(k : Int))) m q) :
    ∃ x, scaleFloat 3 (UInt64.ofNat (n * 2 ^ j)).toFloat (-k) = some x ∧ Unpacks x m q := by
  obtain ⟨m₁, q₁, hc, hv⟩ := exists_canonical hn hn53 hj
  have hdigits : (m₁ : ℚ) * 2 ^ q₁ = (n * 2 ^ j : Nat) := by
    rw [hv]
    push_cast
    rfl
  have hx := Binary64.unpacks_ofNat (Nat.mul_pos hn (Nat.pow_pos (by decide))) hlt
    (rounded_of_eq hc hdigits)
  obtain ⟨m₂, q₂, hten, hy⟩ := exists_exact_power hk
  rw [zpow_neg, zpow_natCast, ← div_eq_mul_inv, ← hdigits, ← hten] at hr
  have hu := hx.div hy hr
  exact ⟨_, scaleFloat_down hpos (by omega) hu, hu⟩

end Scaled

end ExampleTests.Json
