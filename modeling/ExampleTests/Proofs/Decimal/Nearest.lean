import ExampleTests.Proofs.Decimal.Rounding

/-! The float that a positive number is rounded to. Every number in the range of floats
has one, and it is half a unit in the last place of the number away at most, even if it
is the power of two above the number. -/

namespace ExampleTests.Binary64

open Decimal (Neighbourhood)

/-- The number rounds to the float with this significand and exponent. -/
structure Rounded (v : ℚ) (m : Nat) (q : Int) : Prop where
  canonical : Canonical m q
  contains : (Neighbourhood.ofBinary m q).Contains v

variable {v w : ℚ} {m n : Nat} {q t : Int}

theorem exists_nearest (h : 0 ≤ w) : ∃ n, Nearest w n := by
  have hlo := Nat.floor_le h
  have hhi := Nat.lt_floor_add_one w
  generalize ⌊w⌋₊ = n at hlo hhi
  rcases lt_trichotomy (2 * w) (2 * n + 1) with hlt | heq | hgt
  · exact ⟨n, by linarith, by linarith, fun _ => ⟨by linarith, hlt⟩⟩
  · by_cases heven : n % 2 = 0
    · exact ⟨n, by linarith, by linarith, fun hodd => absurd hodd (by omega)⟩
    · refine ⟨n + 1, ?_, ?_, fun hodd => absurd hodd (by omega)⟩ <;> push_cast <;> linarith
  · refine ⟨n + 1, ?_, ?_, fun _ => ⟨?_, ?_⟩⟩ <;> push_cast <;> linarith

/-- What is nearest on the grid above a power of two is so under it as well, if it is not
too far away for the grid there. -/
theorem contains_of_nearest (hm : 0 < m) (h : Nearest (v / 2 ^ q) m)
    (hunder : m = 2 ^ 52 → -1074 < q → 4 * 2 ^ 52 - 1 ≤ 4 * (v / 2 ^ q)) :
    (Neighbourhood.ofBinary m q).Contains v := by
  obtain ⟨hlo, hhi, hodd⟩ := h
  have hgap : (4 * m : ℚ) - Neighbourhood.lowGap m q ≤ 4 * (v / 2 ^ q) := by
    unfold Neighbourhood.lowGap
    split
    · rename_i hp
      have hu := hunder hp.1 hp.2
      rw [hp.1]
      push_cast
      exact hu
    · push_cast
      linarith
  rw [Neighbourhood.contains_ofBinary_iff hm]
  by_cases heven : m % 2 = 0
  · rw [decide_eq_true heven]
    exact ⟨hgap, (by linarith : 4 * (v / 2 ^ q) ≤ 4 * m + 2)⟩
  · obtain ⟨hlo, hhi⟩ := hodd (by omega)
    have hwide : Neighbourhood.lowGap m q = 2 := if_neg fun hp => heven (by rw [hp.1]; decide)
    rw [decide_eq_false heven, hwide]
    exact ⟨(by push_cast; linarith : (4 * m : ℚ) - (2 : Nat) < 4 * (v / 2 ^ q)),
      (by linarith : 4 * (v / 2 ^ q) < 4 * m + 2)⟩

/-- The unit of a number: the one with which it has 53 bits, or the least. -/
theorem exists_unit (hv : 0 < v) :
    ∃ t : Int, -1074 ≤ t ∧ v / 2 ^ t < 2 ^ 53 ∧ (t = -1074 ∨ 2 ^ 52 ≤ v / 2 ^ t) := by
  have hle : (2 : ℚ) ^ Int.log 2 v ≤ v := by exact_mod_cast Int.zpow_log_le_self (by decide) hv
  have hlt : v < (2 : ℚ) ^ (Int.log 2 v + 1) := by
    exact_mod_cast Int.lt_zpow_succ_log_self (b := 2) (by decide) v
  generalize Int.log 2 v = e at hle hlt
  refine ⟨max (e - 52) (-1074), le_max_right _ _, ?_, ?_⟩
  · exact (lt_zpow_add_iff 53).mp (hlt.trans_le (zpow_le_zpow_right₀ (by norm_num) (by omega)))
  · by_cases hs : max (e - 52) (-1074) = -1074
    · exact .inl hs
    · have he : max (e - 52) (-1074) + (52 : Nat) = e := by omega
      exact .inr ((zpow_add_le_iff 52).mp (by rwa [he]))

theorem zpow_double_le {p q : Int} (h : p < q) : (2 : ℚ) ^ p * 2 ≤ 2 ^ q := by
  rw [← zpow_add_one₀ (by norm_num)]
  exact zpow_le_zpow_right₀ (by norm_num) (by omega)

theorem unit_le (hhigh : v < (2 ^ 53 - 1 / 2) * 2 ^ (971 : Int)) (h : t = -1074 ∨ 2 ^ 52 ≤ v / 2 ^ t) :
    t ≤ 971 := by
  by_contra hbig
  have hpos : ∀ n : Int, (0 : ℚ) < 2 ^ n := zpow_pos (by norm_num)
  have hmono := zpow_double_le (not_le.mp hbig)
  have hover := (le_div_iff₀ (hpos t)).mp (h.resolve_left (by omega))
  have hunit := hpos 971
  generalize (2 : ℚ) ^ (971 : Int) = unit at hhigh hmono hunit
  linarith

/-- More than half of the least float is not rounded to zero. -/
theorem nearest_pos (hlow : 2 ^ (-1074 : Int) / 2 < v) (h : t = -1074 ∨ 2 ^ 52 ≤ v / 2 ^ t)
    (hn : Nearest (v / 2 ^ t) n) : 0 < n := by
  obtain ⟨-, hhi, -⟩ := hn
  refine Nat.pos_of_ne_zero fun h0 => ?_
  rw [h0, Nat.cast_zero] at hhi
  rcases h with rfl | hs
  · have hhalf : v / 2 ^ (-1074 : Int) ≤ 1 / 2 := by linarith
    rw [div_le_iff₀ (zpow_pos (by norm_num) _)] at hhalf
    linarith
  · linarith

/-- A number next to the power of two with which the next exponent begins. -/
theorem rounded_carry (hleast : -1074 ≤ t) (hfits : t < 971) (hunder : v / 2 ^ t < 2 ^ 53)
    (hn : Nearest (v / 2 ^ t) (2 ^ 53)) : Rounded v (2 ^ 52) (t + 1) := by
  obtain ⟨hlo, -, -⟩ := hn
  push_cast at hlo
  have hhalf : v / 2 ^ (t + 1) = v / 2 ^ t / 2 := by
    rw [zpow_add_one₀ (by norm_num), div_div]
  refine ⟨⟨by decide, by decide, by omega, .inl (Nat.le_refl _), by omega⟩,
    contains_of_nearest (by decide) ⟨?_, ?_, fun hodd => absurd hodd (by decide)⟩ fun _ _ => ?_⟩
  all_goals
    rw [hhalf]
    push_cast
    linarith

theorem exists_rounded (hlow : 2 ^ (-1074 : Int) / 2 < v)
    (hhigh : v < (2 ^ 53 - 1 / 2) * 2 ^ (971 : Int)) : ∃ m q, Rounded v m q := by
  have hpos : ∀ n : Int, (0 : ℚ) < 2 ^ n := zpow_pos (by norm_num)
  have hv : 0 < v := (half_pos (hpos _)).trans hlow
  obtain ⟨t, hleast, hunder, hnormal⟩ := exists_unit hv
  have ht := unit_le hhigh hnormal
  obtain ⟨n, hn⟩ := exists_nearest (div_pos hv (hpos t)).le
  have hn0 := nearest_pos hlow hnormal hn
  obtain ⟨hlo, hhi, -⟩ := id hn
  have hn53 : n < 2 ^ 53 + 1 := by
    have hr : (n : ℚ) < (2 ^ 53 + 1 : Nat) := by
      push_cast
      linarith
    exact Nat.cast_lt.mp hr
  by_cases hcarry : n = 2 ^ 53
  · rw [hcarry] at hlo
    push_cast at hlo
    have hfits : t ≠ 971 := by
      rintro rfl
      have hover := (div_lt_iff₀ (hpos 971)).mpr hhigh
      linarith
    exact ⟨_, _, rounded_carry hleast (by omega) hunder (hcarry ▸ hn)⟩
  · refine ⟨n, t, ⟨hn0, by omega, hleast, ?_, ht⟩, contains_of_nearest hn0 hn fun _ hs => ?_⟩
    · refine hnormal.symm.imp_left fun hs => ?_
      have hr : ((2 ^ 52 - 1 : Nat) : ℚ) < n := by
        push_cast
        linarith
      have hlt := Nat.cast_lt.mp hr
      omega
    · have hs := hnormal.resolve_left (by omega)
      linarith

section Exact

theorem canonical_shift {n : Nat} (hn : 0 < n) (hlt : n < 2 ^ 53) :
    Canonical (n <<< (52 - n.log2)) ((n.log2 : Int) - 52) := by
  have hlog : n.log2 < 53 := (Nat.log2_lt (Nat.ne_of_gt hn)).mpr hlt
  have hlow : 2 ^ 52 ≤ n * 2 ^ (52 - n.log2) := by
    calc 2 ^ 52 = 2 ^ n.log2 * 2 ^ (52 - n.log2) := by rw [← Nat.pow_add]; congr 1; omega
      _ ≤ n * 2 ^ (52 - n.log2) := Nat.mul_le_mul_right _ (Nat.log2_self_le (Nat.ne_of_gt hn))
  have hhigh : n * 2 ^ (52 - n.log2) < 2 ^ 53 := by
    calc n * 2 ^ (52 - n.log2)
        < 2 ^ (n.log2 + 1) * 2 ^ (52 - n.log2) :=
          Nat.mul_lt_mul_of_pos_right Nat.lt_log2_self (Nat.pow_pos (by decide))
      _ = 2 ^ 53 := by rw [← Nat.pow_add]; congr 1; omega
  rw [Nat.shiftLeft_eq]
  exact ⟨by omega, hhigh, by omega, .inl hlow, by omega⟩

/-- A number of 53 bits, shifted, is a float. -/
theorem exists_canonical (hn : 0 < n) (hlt : n < 2 ^ 53) {j : Nat} (hj : j ≤ 900) :
    ∃ m q, Canonical m q ∧ (m : ℚ) * 2 ^ q = n * 2 ^ j := by
  obtain ⟨hpos, hlt', hle, hnormal, hfits⟩ := canonical_shift hn hlt
  have hlog : n.log2 < 53 := (Nat.log2_lt (Nat.ne_of_gt hn)).mpr hlt
  refine ⟨n <<< (52 - n.log2), (n.log2 : Int) - 52 + j,
    ⟨hpos, hlt', by omega, hnormal.imp_right fun h => by omega, by omega⟩, ?_⟩
  have hq : (n.log2 : Int) - 52 = -((52 - n.log2 : Nat) : Int) := by omega
  rw [Nat.shiftLeft_eq, hq, zpow_add₀ (by norm_num), zpow_neg, zpow_natCast, zpow_natCast]
  push_cast
  field_simp

theorem rounded_self (hc : Canonical m q) : Rounded (m * 2 ^ q) m q := by
  have hq : (2 : ℚ) ^ q ≠ 0 := zpow_ne_zero q (by norm_num)
  refine ⟨hc, contains_of_nearest hc.pos ?_ fun hm _ => ?_⟩
  · rw [mul_div_cancel_right₀ _ hq]
    exact ⟨by linarith, by linarith, fun _ => ⟨by linarith, by linarith⟩⟩
  · rw [mul_div_cancel_right₀ _ hq, hm]
    norm_num

theorem rounded_of_eq (hc : Canonical m q) (h : m * 2 ^ q = v) : Rounded v m q := h ▸ rounded_self hc

end Exact

section Error

theorem Rounded.half (h : Rounded v m q) : |v - m * 2 ^ q| ≤ 2 ^ q / 2 := by
  obtain ⟨hlo, hhi, -⟩ := nearest_of_contains h.canonical.pos h.contains
  have hq : (0 : ℚ) < 2 ^ q := zpow_pos (by norm_num) q
  have hv : v = v / 2 ^ q * 2 ^ q := (div_mul_cancel₀ v (ne_of_gt hq)).symm
  rw [abs_le]
  constructor <;> nlinarith

/-- The error is counted in the unit of the number, not in that of the float. -/
theorem Rounded.error_le (h : Rounded v m q) (ht : -1074 ≤ t) (hv : v < 2 ^ (t + 53)) :
    |v - m * 2 ^ q| ≤ 2 ^ t / 2 := by
  have hq : (0 : ℚ) < 2 ^ q := zpow_pos (by norm_num) q
  by_cases hqt : q ≤ t
  · have hmono : (2 : ℚ) ^ q ≤ 2 ^ t := zpow_le_zpow_right₀ (by norm_num) hqt
    have hh := h.half
    linarith
  · -- The float is the power of two above the number, which is near to it on the finer grid.
    have hnormal := h.canonical.normal.resolve_right (by omega)
    obtain ⟨hlow, -⟩ := (Neighbourhood.contains_ofBinary_iff h.canonical.pos).mp h.contains
    have hlo := hlow.le
    have hunder : v / 2 ^ q < 2 ^ 52 := (lt_zpow_add_iff 52).mp
      (hv.trans_le (zpow_le_zpow_right₀ (by norm_num) (by omega)))
    have hm : m = 2 ^ 52 := by
      have hgap := Neighbourhood.lowGap_le m q
      have hr : (m : ℚ) < (2 ^ 52 + 1 : Nat) := by
        push_cast
        linarith
      have hlt := Nat.cast_lt.mp hr
      omega
    subst hm
    have hleast : minExponent < q := lt_of_le_of_lt ht (by omega)
    have hgap : Neighbourhood.lowGap (2 ^ 52) q = 1 := if_pos ⟨rfl, hleast⟩
    rw [hgap] at hlo
    push_cast at hlo ⊢
    have hq1 : q = t + 1 := by
      by_contra hne
      have hfar : v / 2 ^ q < 2 ^ 51 := (lt_zpow_add_iff 51).mp
        (hv.trans_le (zpow_le_zpow_right₀ (by norm_num) (by omega)))
      linarith
    have hdouble : (2 : ℚ) ^ q = 2 ^ t * 2 := by rw [hq1, zpow_add_one₀ (by norm_num)]
    have hv' : v = v / 2 ^ q * 2 ^ q := (div_mul_cancel₀ v (ne_of_gt hq)).symm
    rw [abs_le]
    constructor <;> nlinarith

/-- Rounding changes a number by `2 ^ -53` of it at most, unless the number is subnormal. -/
theorem Rounded.relative (h : Rounded v m q) (hv : 2 ^ (-1022 : Int) ≤ v) :
    |v - m * 2 ^ q| ≤ v / 2 ^ 53 := by
  have hpos : 0 < v := (zpow_pos (by norm_num) _).trans_le hv
  obtain ⟨t, hleast, hunder, hnormal⟩ := exists_unit hpos
  have hunit : 2 ^ 52 ≤ v / 2 ^ t := by
    rcases hnormal with rfl | hs
    · exact (zpow_add_le_iff 52).mp hv
    · exact hs
  have herr := h.error_le hleast ((lt_zpow_add_iff 53).mpr hunder)
  rw [le_div_iff₀ (zpow_pos (by norm_num) t)] at hunit
  rw [le_div_iff₀ (by norm_num)]
  linarith

/-- The same as a part of the float. -/
theorem Rounded.relative_float (h : Rounded v m q) (hm : 2 ^ 52 ≤ m) :
    |v - m * 2 ^ q| ≤ m * 2 ^ q / 2 ^ 53 := by
  have hq : (0 : ℚ) < 2 ^ q := zpow_pos (by norm_num) q
  have hmq : (2 ^ 52 : ℚ) ≤ m := by exact_mod_cast hm
  have hh := h.half
  rw [le_div_iff₀ (by norm_num)]
  nlinarith

theorem Rounded.normal (h : Rounded v m q) (hv : 2 ^ (-1022 : Int) ≤ v) : 2 ^ 52 ≤ m := by
  rcases h.canonical.normal with hm | rfl
  · exact hm
  · obtain ⟨-, hhi, -⟩ := nearest_of_contains h.canonical.pos h.contains
    have hunit : 2 ^ 52 ≤ v / 2 ^ (-1074 : Int) := (zpow_add_le_iff 52).mp hv
    have hr : ((2 ^ 52 - 1 : Nat) : ℚ) < m := by
      push_cast
      linarith
    have hlt := Nat.cast_lt.mp hr
    omega

end Error

end ExampleTests.Binary64
