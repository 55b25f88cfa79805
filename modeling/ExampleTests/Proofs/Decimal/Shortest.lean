import ExampleTests.Proofs.Decimal.Layout
import Mathlib.Tactic.FieldSimp
import Mathlib.Tactic.Linarith
import Mathlib.Tactic.Positivity

/-! The digits that are found for a binary number round to it. Of seventeen grids the
last is finer than the numbers that round to it lie apart, so one of them is taken. -/

namespace ExampleTests.Decimal

theorem pow_length_toDigits {n : Nat} (hn : 0 < n) :
    10 ^ ((Nat.toDigits 10 n).length - 1) ≤ n ∧ n < 10 ^ (Nat.toDigits 10 n).length := by
  have hpos := Nat.length_toDigits_pos (b := 10) (n := n)
  refine ⟨?_, (Nat.length_toDigits_le_iff (by decide) hpos).mp (Nat.le_refl _)⟩
  by_cases hl : (Nat.toDigits 10 n).length = 1
  · rw [hl]
    exact hn
  · have hlt := mt (Nat.length_toDigits_le_iff (b := 10) (n := n) (by decide)
      (k := (Nat.toDigits 10 n).length - 1) (by omega)).mpr (by omega)
    omega

namespace Neighbourhood

/-- Comparison with an end, which is among the numbers if the ends are. -/
def Reaches (closed : Bool) (x y : ℚ) : Prop := if closed then x ≤ y else x < y

variable {closed : Bool} {x y : ℚ}

theorem Reaches.le (h : Reaches closed x y) : x ≤ y := by
  cases closed with
  | true => exact h
  | false => exact le_of_lt h

theorem reaches_of_lt (h : x < y) : Reaches closed x y := by
  cases closed with
  | true => exact le_of_lt h
  | false => exact h

theorem not_reaches (h : ¬ Reaches closed x y) : y ≤ x := by
  by_contra hlt
  exact h (reaches_of_lt (not_le.mp hlt))

theorem reaches_mul_iff {k : ℚ} (hk : 0 < k) : Reaches closed (x * k) (y * k) ↔ Reaches closed x y := by
  cases closed with
  | true => exact mul_le_mul_iff_left₀ hk
  | false => exact mul_lt_mul_iff_left₀ hk

/-- The ends are compared as natural numbers, which are multiples of the rational ones. -/
theorem reaches_cast_iff (a b : Nat) :
    (if closed then decide (a ≤ b) else decide (a < b)) = true ↔ Reaches closed a b := by
  unfold Reaches
  split <;> simp only [decide_eq_true_eq, Nat.cast_le, Nat.cast_lt]

def Contains (r : Neighbourhood) (x : ℚ) : Prop :=
  Reaches r.closed r.low (x * r.unit) ∧ Reaches r.closed (x * r.unit) r.high

variable {r : Neighbourhood} {tie : Tie} {place : Int}

/-- A power of an integer exponent as a quotient of natural ones. -/
theorem zpow_mul_pow {b : ℚ} (hb : b ≠ 0) (n : Int) : b ^ n * b ^ (-n).toNat = b ^ n.toNat := by
  rw [← zpow_natCast, ← zpow_natCast, ← zpow_add₀ hb]
  congr 1
  omega

section Grid

variable (r place)

def below : Nat :=
  r.value * Nat.pow 10 (-place).toNat / (r.unit * Nat.pow 10 place.toNat)

theorem grid_cast (c : Nat) :
    ((c * (r.unit * Nat.pow 10 place.toNat) : Nat) : ℚ) =
      c * 10 ^ place * r.unit * 10 ^ (-place).toNat := by
  have hp : ((Nat.pow 10 place.toNat : Nat) : ℚ) = 10 ^ place * 10 ^ (-place).toNat := by
    rw [zpow_mul_pow (by norm_num)]
    exact Nat.cast_pow 10 _
  push_cast [hp]
  ring

theorem scaled_cast (n : Nat) :
    ((n * Nat.pow 10 (-place).toNat : Nat) : ℚ) = n * 10 ^ (-place).toNat := by
  rw [Nat.cast_mul]
  exact congrArg _ (Nat.cast_pow 10 _)

theorem low_reaches_iff (c : Nat) :
    (if r.closed then decide (r.low * Nat.pow 10 (-place).toNat ≤ c * (r.unit * Nat.pow 10 place.toNat))
      else decide (r.low * Nat.pow 10 (-place).toNat < c * (r.unit * Nat.pow 10 place.toNat))) = true ↔
      Reaches r.closed r.low (c * 10 ^ place * r.unit) := by
  rw [reaches_cast_iff, grid_cast, scaled_cast, reaches_mul_iff (by positivity)]

theorem reaches_high_iff (c : Nat) :
    (if r.closed then decide (c * (r.unit * Nat.pow 10 place.toNat) ≤ r.high * Nat.pow 10 (-place).toNat)
      else decide (c * (r.unit * Nat.pow 10 place.toNat) < r.high * Nat.pow 10 (-place).toNat)) = true ↔
      Reaches r.closed (c * 10 ^ place * r.unit) r.high := by
  rw [reaches_cast_iff, grid_cast, scaled_cast, reaches_mul_iff (by positivity)]

variable {r place}

theorem onGrid_cases {c : Nat} (h : r.onGrid tie place = some c) :
    (c = r.below place ∧ Reaches r.closed r.low (c * 10 ^ place * r.unit)) ∨
      (c = r.below place + 1 ∧ Reaches r.closed (c * 10 ^ place * r.unit) r.high) := by
  unfold onGrid at h
  simp only at h
  split at h
  · cases h
  · rename_i hl _
    cases h
    exact .inl ⟨rfl, (r.low_reaches_iff place _).mp hl⟩
  · rename_i hh
    cases h
    exact .inr ⟨rfl, (r.reaches_high_iff place _).mp hh⟩
  · -- Of two neighbours in reach either one may be taken.
    rename_i hl hh
    have hlow := (r.low_reaches_iff place _).mp hl
    have hhigh := (r.reaches_high_iff place _).mp hh
    have hc : c = r.below place ∨ c = r.below place + 1 := by
      split at h
      · exact .inl (Option.some.inj h).symm
      · split at h
        · exact .inr (Option.some.inj h).symm
        · cases tie with
          | up => exact .inr (Option.some.inj h).symm
          | toEven =>
            have hp := (Option.some.inj h).symm
            split at hp
            · exact .inl hp
            · exact .inr hp
    rcases hc with rfl | rfl
    · exact .inl ⟨rfl, hlow⟩
    · exact .inr ⟨rfl, hhigh⟩

/-- A grid without a number in the neighbourhood is coarser than it. -/
theorem le_of_onGrid_eq_none (h : r.onGrid tie place = none) :
    (r.high : ℚ) - r.low ≤ 10 ^ place * r.unit := by
  have hnot : ¬ Reaches r.closed r.low (r.below place * 10 ^ place * r.unit) ∧
      ¬ Reaches r.closed ((r.below place + 1 : Nat) * 10 ^ place * r.unit) r.high := by
    unfold onGrid at h
    simp only at h
    split at h
    · rename_i hl hh
      rw [← low_reaches_iff, ← reaches_high_iff]
      exact ⟨Bool.eq_false_iff.mp hl, Bool.eq_false_iff.mp hh⟩
    · cases h
    · cases h
    · split at h
      · cases h
      · split at h
        · cases h
        · cases tie <;> cases h
  have hlow := not_reaches hnot.1
  have hhigh := not_reaches hnot.2
  push_cast at hhigh
  linarith

end Grid

/-- A value strictly between its ends. -/
structure Proper (r : Neighbourhood) : Prop where
  unit_pos : 0 < r.unit
  low_pos : 0 < r.low
  low_lt : r.low < r.value
  lt_high : r.value < r.high

theorem Proper.below_le (h : r.Proper) (place : Int) :
    (r.below place : ℚ) * 10 ^ place * r.unit ≤ r.value ∧
      r.value < ((r.below place + 1 : Nat) : ℚ) * 10 ^ place * r.unit := by
  have hpos : (0 : ℚ) < 10 ^ (-place).toNat := by positivity
  have hstep : 0 < r.unit * Nat.pow 10 place.toNat :=
    Nat.mul_pos h.unit_pos (Nat.pow_pos (by decide))
  constructor
  · rw [← mul_le_mul_iff_left₀ hpos, ← grid_cast, ← scaled_cast, Nat.cast_le]
    exact Nat.div_mul_le_self _ _
  · rw [← mul_lt_mul_iff_left₀ hpos, ← grid_cast, ← scaled_cast, Nat.cast_lt]
    exact (Nat.lt_mul_div_succ _ hstep).trans_eq (Nat.mul_comm _ _)

theorem Proper.contains_onGrid (h : r.Proper) {c : Nat} (hc : r.onGrid tie place = some c) :
    r.Contains (c * 10 ^ place) := by
  obtain ⟨hbelow, habove⟩ := h.below_le place
  have hlow : (r.low : ℚ) < r.value := by exact_mod_cast h.low_lt
  have hhigh : (r.value : ℚ) < r.high := by exact_mod_cast h.lt_high
  rcases onGrid_cases hc with ⟨rfl, hr⟩ | ⟨rfl, hr⟩
  · exact ⟨hr, reaches_of_lt (by linarith)⟩
  · exact ⟨reaches_of_lt (by linarith), hr⟩

theorem firstGrid_eq_none {grids : Nat} (h : r.firstGrid tie grids place = none) :
    ∀ k < grids, r.onGrid tie (place - k) = none := by
  induction grids generalizing place with
  | zero => intro k hk; omega
  | succ grids ih =>
    intro k hk
    rw [firstGrid] at h
    split at h
    · cases h
    · rename_i hn
      by_cases h0 : k = 0
      · rw [h0, Nat.cast_zero, sub_zero]
        exact hn
      · have hi := ih h (k - 1) (by omega)
        have he : place - 1 - ((k - 1 : Nat) : Int) = place - k := by omega
        rwa [he] at hi

theorem firstGrid_eq_some {grids c : Nat} {p : Int} (h : r.firstGrid tie grids place = some (c, p)) :
    r.onGrid tie p = some c := by
  induction grids generalizing place with
  | zero => cases h
  | succ grids ih =>
    rw [firstGrid] at h
    split at h
    · rename_i hs
      cases h
      exact hs
    · exact ih h

/-- The grid that is taken is the first, or the one above it has no number in the
neighbourhood. -/
theorem firstGrid_first {grids c : Nat} {p : Int} (h : r.firstGrid tie grids place = some (c, p)) :
    place - grids < p ∧ (p = place ∨ r.onGrid tie (p + 1) = none) := by
  induction grids generalizing place with
  | zero => cases h
  | succ grids ih =>
    rw [firstGrid] at h
    split at h
    · cases h
      exact ⟨by omega, .inl rfl⟩
    · rename_i hn
      obtain ⟨hlast, hfirst⟩ := ih h
      refine ⟨by omega, .inr (hfirst.elim (fun hp => ?_) id)⟩
      rw [hp, sub_add_cancel]
      exact hn

theorem Proper.magnitude_le (h : r.Proper) : (10 : ℚ) ^ (r.magnitude - 1) * r.unit ≤ r.value := by
  have hvalue : 0 < r.value := Nat.lt_trans h.low_pos h.low_lt
  by_cases hu : r.unit ≤ r.value
  · obtain ⟨hle, -⟩ := pow_length_toDigits (Nat.div_pos hu h.unit_pos)
    have hlen := Nat.length_toDigits_pos (b := 10) (n := r.value / r.unit)
    have he : r.magnitude - 1 = (((Nat.toDigits 10 (r.value / r.unit)).length - 1 : Nat) : Int) := by
      rw [magnitude, if_pos hu]
      omega
    rw [he, zpow_natCast]
    exact_mod_cast (Nat.mul_le_mul_right _ hle).trans (Nat.div_mul_le_self _ _)
  · obtain ⟨-, hlt⟩ := pow_length_toDigits (Nat.div_pos (Nat.le_of_not_le hu) hvalue)
    have he : r.magnitude - 1 = -((Nat.toDigits 10 (r.unit / r.value)).length : Int) := by
      rw [magnitude, if_neg hu]
      omega
    have hunit : r.unit ≤ r.value * 10 ^ (Nat.toDigits 10 (r.unit / r.value)).length :=
      (Nat.le_of_lt (Nat.lt_mul_div_succ _ hvalue)).trans (Nat.mul_le_mul_left _ hlt)
    rw [he, zpow_neg, zpow_natCast, inv_mul_le_iff₀ (by positivity), mul_comm]
    exact_mod_cast hunit

theorem Proper.le_magnitude (h : r.Proper) : (r.value : ℚ) ≤ 10 ^ r.magnitude * r.unit := by
  have hvalue : 0 < r.value := Nat.lt_trans h.low_pos h.low_lt
  by_cases hu : r.unit ≤ r.value
  · obtain ⟨-, hlt⟩ := pow_length_toDigits (Nat.div_pos hu h.unit_pos)
    rw [magnitude, if_pos hu, zpow_natCast]
    exact_mod_cast ((Nat.div_lt_iff_lt_mul h.unit_pos).mp hlt).le
  · obtain ⟨hle, -⟩ := pow_length_toDigits (Nat.div_pos (Nat.le_of_not_le hu) hvalue)
    have hlen := Nat.length_toDigits_pos (b := 10) (n := r.unit / r.value)
    have he : r.magnitude = -(((Nat.toDigits 10 (r.unit / r.value)).length - 1 : Nat) : Int) := by
      rw [magnitude, if_neg hu]
      omega
    rw [he, zpow_neg, zpow_natCast, le_inv_mul_iff₀ (by positivity)]
    exact_mod_cast (Nat.le_div_iff_mul_le hvalue).mp hle

theorem Proper.onGrid_le (h : r.Proper) {c : Nat} (hc : r.onGrid tie place = some c)
    (hp : r.magnitude - 17 ≤ place) : c ≤ 10 ^ 17 + 1 := by
  have hunit : (0 : ℚ) < r.unit := by exact_mod_cast h.unit_pos
  have hbelow : (r.below place : ℚ) * 10 ^ place ≤ 10 ^ r.magnitude :=
    le_of_mul_le_mul_right ((h.below_le place).1.trans h.le_magnitude) hunit
  have hpow : (10 : ℚ) ^ r.magnitude ≤ ((10 ^ 17 : Nat) : ℚ) * 10 ^ place := by
    rw [Nat.cast_pow, Nat.cast_ofNat, ← zpow_natCast, ← zpow_add₀ (by norm_num)]
    exact zpow_le_zpow_right₀ (by norm_num) (by omega)
  have hle : (r.below place : ℚ) ≤ (10 ^ 17 : Nat) :=
    le_of_mul_le_mul_right (hbelow.trans hpow) (zpow_pos (by norm_num) place)
  have hle := Nat.cast_le.mp hle
  rcases onGrid_cases hc with ⟨rfl, -⟩ | ⟨rfl, -⟩ <;> omega

/-- The last of seventeen grids is fine enough for a neighbourhood that is wider than
the value at that place. -/
theorem Proper.exists_firstGrid (h : r.Proper) (tie : Tie)
    (hw : (r.value : ℚ) < (r.high - r.low) * 10 ^ 16) :
    ∃ c place, r.firstGrid tie maxDigits (r.magnitude - 1) = some (c, place) := by
  cases hf : r.firstGrid tie maxDigits (r.magnitude - 1) with
  | some found => exact ⟨found.1, found.2, rfl⟩
  | none =>
    have hlast := le_of_onGrid_eq_none (firstGrid_eq_none hf 16 (by decide))
    have hm := h.magnitude_le
    have he : (10 : ℚ) ^ (r.magnitude - 1) = 10 ^ (r.magnitude - 1 - (16 : Nat)) * 10 ^ 16 := by
      rw [← zpow_natCast, ← zpow_add₀ (by norm_num), sub_add_cancel]
    rw [he] at hm
    linarith

section Binary

variable {m : Nat} {q : Int}

/-- How far, in quarters of the last bit, the numbers below may be. -/
def lowGap (m : Nat) (q : Int) : Nat :=
  if m = Binary64.leastNormal ∧ Binary64.minExponent < q then 1 else 2

theorem lowGap_le (m : Nat) (q : Int) : (lowGap m q : ℚ) ≤ 2 := by
  unfold lowGap
  split <;> norm_num

theorem ofBinary_proper (hm : 0 < m) : (ofBinary m q).Proper := by
  have hscale : 0 < 1 <<< (q - 2).toNat := Nat.shiftLeft_pos_iff.mpr Nat.one_pos
  refine ⟨Nat.shiftLeft_pos_iff.mpr Nat.one_pos, Nat.mul_pos ?_ hscale,
    Nat.mul_lt_mul_of_pos_right ?_ hscale, Nat.mul_lt_mul_of_pos_right ?_ hscale⟩
  · split <;> omega
  · split <;> omega
  · omega

theorem shiftLeft_cast (n : Nat) : ((1 <<< n : Nat) : ℚ) = 2 ^ n := by
  rw [Nat.one_shiftLeft, Nat.cast_pow, Nat.cast_ofNat]

theorem ofBinary_cast (hm : 0 < m) (q : Int) :
    ((ofBinary m q).low : ℚ) = (4 * m - lowGap m q) * 2 ^ (q - 2).toNat ∧
      ((ofBinary m q).high : ℚ) = (4 * m + 2) * 2 ^ (q - 2).toNat := by
  have hgap : lowGap m q ≤ 4 * m := by
    unfold lowGap
    split <;> omega
  constructor
  · have hlow : (ofBinary m q).low = (4 * m - lowGap m q) * (1 <<< (q - 2).toNat) := rfl
    rw [hlow, Nat.cast_mul, Nat.cast_sub hgap, shiftLeft_cast]
    push_cast
    rfl
  · have hhigh : (ofBinary m q).high = (4 * m + 2) * (1 <<< (q - 2).toNat) := rfl
    rw [hhigh, Nat.cast_mul, shiftLeft_cast]
    push_cast
    rfl

theorem contains_ofBinary_iff (hm : 0 < m) :
    (ofBinary m q).Contains x ↔
      Reaches (decide (m % 2 = 0)) (4 * m - lowGap m q) (4 * (x / 2 ^ q)) ∧
        Reaches (decide (m % 2 = 0)) (4 * (x / 2 ^ q)) (4 * m + 2) := by
  have hunit : x * ((ofBinary m q).unit : ℚ) = 4 * (x / 2 ^ q) * 2 ^ (q - 2).toNat := by
    have hu : (ofBinary m q).unit = 1 <<< (-(q - 2)).toNat := by
      rw [neg_sub]
      rfl
    rw [hu, shiftLeft_cast, ← zpow_mul_pow (by norm_num) (q - 2), zpow_sub₀ (by norm_num)]
    have hq : (2 : ℚ) ^ q ≠ 0 := zpow_ne_zero q (by norm_num)
    field_simp
    norm_num
  obtain ⟨hlow, hhigh⟩ := ofBinary_cast hm q
  have hpos : (0 : ℚ) < 2 ^ (q - 2).toNat := by positivity
  rw [Contains, hunit, hlow, hhigh, reaches_mul_iff hpos, reaches_mul_iff hpos]
  rfl

theorem ofBinary_value (m : Nat) (q : Int) :
    ((ofBinary m q).value : ℚ) = 4 * m * 2 ^ (q - 2).toNat := by
  have hv : (ofBinary m q).value = 4 * m * (1 <<< (q - 2).toNat) := rfl
  rw [hv, Nat.cast_mul, shiftLeft_cast]
  push_cast
  rfl

theorem ofBinary_wide (hm : 0 < m) (hlt : m < 2 ^ 53) :
    ((ofBinary m q).value : ℚ) < ((ofBinary m q).high - (ofBinary m q).low) * 10 ^ 16 := by
  obtain ⟨hlow, hhigh⟩ := ofBinary_cast hm q
  have hvalue := ofBinary_value m q
  have hgap : 4 * m < (2 + lowGap m q) * 10 ^ 16 := by
    unfold lowGap
    split
    · rename_i hn
      rw [hn.1]
      decide
    · omega
  have hq : (4 * m : ℚ) < (2 + lowGap m q) * 10 ^ 16 := by exact_mod_cast hgap
  have hpos : (0 : ℚ) < 2 ^ (q - 2).toNat := by positivity
  rw [hlow, hhigh, hvalue]
  nlinarith

/-- The least float counts against the value and against the width. -/
theorem least_le (hm : 0 < m) (hq : Binary64.minExponent ≤ q) :
    (2 : ℚ) ^ (-1074 : Int) * (ofBinary m q).unit ≤ (ofBinary m q).value ∧
      (2 : ℚ) ^ (-1074 : Int) * (ofBinary m q).unit ≤ (ofBinary m q).high - (ofBinary m q).low := by
  obtain ⟨hlow, hhigh⟩ := ofBinary_cast hm q
  have hvalue := ofBinary_value m q
  have hu : ((ofBinary m q).unit : ℚ) = 2 ^ (-(q - 2)).toNat := by
    rw [neg_sub, ← shiftLeft_cast]
    rfl
  have hquarter : (2 : ℚ) ^ q = 4 * 2 ^ (q - 2) := by
    rw [zpow_sub₀ (by norm_num)]
    norm_num
    ring
  have hone : (1 : ℚ) ≤ m := by exact_mod_cast hm
  have hunit : (0 : ℚ) < 2 ^ (-(q - 2)).toNat := by positivity
  have hpos : (0 : ℚ) < 2 ^ (q - 2) := zpow_pos (by norm_num) _
  have hmono : ∀ e : Int, Binary64.minExponent ≤ e → (2 : ℚ) ^ (-1074 : Int) ≤ 2 ^ e := fun _ =>
    zpow_le_zpow_right₀ (by norm_num)
  have hscale : (2 : ℚ) ^ (q - 2).toNat = 2 ^ (q - 2) * 2 ^ (-(q - 2)).toNat :=
    (zpow_mul_pow (by norm_num) _).symm
  rw [hlow, hhigh, hvalue, hu, hscale]
  generalize (2 : ℚ) ^ (-1074 : Int) = least at hmono
  have hq := hmono q hq
  have hgap : least ≤ (2 + lowGap m q) * 2 ^ (q - 2) := by
    unfold lowGap
    split
    · rename_i hp
      have hq₁ := hmono (q - 1) (Int.le_sub_one_of_lt hp.2)
      have hhalf : (2 : ℚ) ^ (q - 1) = 2 * 2 ^ (q - 2) := by
        rw [mul_comm, ← zpow_add_one₀ (by norm_num)]
        congr 1
        omega
      push_cast
      linarith
    · push_cast
      linarith
  have hvalue' : 2 ^ q ≤ 4 * m * (2 : ℚ) ^ (q - 2) := by nlinarith
  constructor
  · rw [← mul_assoc]
    exact mul_le_mul_of_nonneg_right (hq.trans hvalue') hunit.le
  · rw [← sub_mul, ← mul_assoc]
    refine mul_le_mul_of_nonneg_right ?_ hunit.le
    linarith

/-- The least float lies between four and five at its place. -/
theorem least_place :
    4 * (10 : ℚ) ^ (-324 : Int) < 2 ^ (-1074 : Int) ∧ (2 : ℚ) ^ (-1074 : Int) < 5 * 10 ^ (-324 : Int) := by
  have hnat : 4 * 2 ^ 1074 < 10 ^ 324 ∧ 10 ^ 324 < 5 * 2 ^ 1074 := by decide +kernel
  have hlow := (Nat.cast_lt (α := ℚ)).mpr hnat.1
  have hhigh := (Nat.cast_lt (α := ℚ)).mpr hnat.2
  rw [Nat.cast_mul, Nat.cast_pow, Nat.cast_pow, Nat.cast_ofNat, Nat.cast_ofNat, Nat.cast_ofNat]
    at hlow hhigh
  have htwo : (0 : ℚ) < 2 ^ 1074 := pow_pos two_pos _
  have hten : (0 : ℚ) < 10 ^ 324 := pow_pos (by norm_num) _
  rw [zpow_neg, zpow_neg, zpow_ofNat, zpow_ofNat]
  generalize (2 : ℚ) ^ 1074 = two at *
  generalize (10 : ℚ) ^ 324 = ten at *
  constructor
  · rw [← div_eq_mul_inv, inv_eq_one_div, div_lt_div_iff₀ hten htwo, one_mul]
    exact hlow
  · rw [← div_eq_mul_inv, inv_eq_one_div, div_lt_div_iff₀ htwo hten, one_mul]
    exact hhigh

end Binary

end Neighbourhood

/-- The digits of a binary number are those of a decimal that rounds to it. There are
about seventeen of them, and none is behind the place of the least float. -/
theorem exists_shortest (tie : Tie) {m : Nat} {q : Int} (hm : 0 < m) (hlt : m < 2 ^ 53)
    (hq : Binary64.minExponent ≤ q) :
    ∃ c place, 0 < c ∧ shortest tie m q = Digits.ofNat c place ∧
      (Neighbourhood.ofBinary m q).Contains (c * 10 ^ place) ∧ c ≤ 10 ^ 17 + 1 ∧ -324 ≤ place := by
  have hproper := Neighbourhood.ofBinary_proper (q := q) hm
  obtain ⟨c, place, hf⟩ := hproper.exists_firstGrid tie (Neighbourhood.ofBinary_wide hm hlt)
  have hgrid := Neighbourhood.firstGrid_eq_some hf
  obtain ⟨hlast, hfirst⟩ := Neighbourhood.firstGrid_first hf
  have hc := hproper.contains_onGrid hgrid
  refine ⟨c, place, ?_, ?_, hc, hproper.onGrid_le hgrid ?_, ?_⟩
  · rw [Nat.pos_iff_ne_zero]
    rintro rfl
    have hle := hc.1.le
    have hlow : (0 : ℚ) < (Neighbourhood.ofBinary m q).low := by exact_mod_cast hproper.low_pos
    simp only [Nat.cast_zero, zero_mul] at hle
    exact absurd hle (not_le.mpr hlow)
  · rw [shortest, hf]
  · have hdigits : (maxDigits : Int) = 17 := rfl
    omega
  · obtain ⟨hvalue, hwidth⟩ := Neighbourhood.least_le hm hq
    have hunit : (0 : ℚ) < (Neighbourhood.ofBinary m q).unit := by exact_mod_cast hproper.unit_pos
    have hplace : (2 : ℚ) ^ (-1074 : Int) ≤ 10 ^ (place + 1) := by
      refine le_of_mul_le_mul_right ?_ hunit
      rcases hfirst with hp | hn
      · rw [hp, sub_add_cancel]
        exact hvalue.trans hproper.le_magnitude
      · exact hwidth.trans (Neighbourhood.le_of_onGrid_eq_none hn)
    have hten : (10 : ℚ) ^ (-324 : Int) < 10 ^ (place + 1) := by
      have hpos : (0 : ℚ) < 10 ^ (-324 : Int) := zpow_pos (by norm_num) _
      have hleast := Neighbourhood.least_place.1.trans_le hplace
      linarith
    have hlt := (zpow_lt_zpow_iff_right₀ (by norm_num : (1 : ℚ) < 10)).mp hten
    omega

end ExampleTests.Decimal
