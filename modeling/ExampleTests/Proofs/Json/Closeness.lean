import ExampleTests.Proofs.Decimal.Nearest

/-! Numbers close to a decimal. Two factors that are rounded leave less than two units in
the last place, so the float that the product rounds to is near to that of the decimal. -/

namespace ExampleTests.Json

open Binary64 (Rounded)

/-- `v` is `d` but for the rounding of two factors, or for a part of the least unit. -/
def Close (d v : ℚ) : Prop :=
  |v - d| ≤ d * ((1 + 1 / 2 ^ 53) ^ 2 - 1) ∨ |v - d| ≤ 2 ^ (-1074 : Int) / 10

section Errors

variable {s f a g : ℚ}

theorem mul_close (hs : 0 < s) (ha : 0 < a) (hf : |s - f| ≤ s / 2 ^ 53) (hg : |a - g| ≤ a / 2 ^ 53) :
    |f * g - s * a| ≤ s * a * ((1 + 1 / 2 ^ 53) ^ 2 - 1) := by
  obtain ⟨hf₁, hf₂⟩ := abs_le.mp hf
  obtain ⟨hg₁, hg₂⟩ := abs_le.mp hg
  have hsf : s * (1 - 1 / 2 ^ 53) ≤ f ∧ f ≤ s * (1 + 1 / 2 ^ 53) := by constructor <;> linarith
  have hag : a * (1 - 1 / 2 ^ 53) ≤ g ∧ g ≤ a * (1 + 1 / 2 ^ 53) := by constructor <;> linarith
  have hs0 : 0 ≤ s * (1 - 1 / 2 ^ 53) := mul_nonneg hs.le (by norm_num)
  have ha0 : 0 ≤ a * (1 - 1 / 2 ^ 53) := mul_nonneg ha.le (by norm_num)
  have hhigh := mul_le_mul hsf.2 hag.2 (ha0.trans hag.1) (by positivity)
  have hlow := mul_le_mul hsf.1 hag.1 ha0 (hs0.trans hsf.1)
  have hsa : 0 < s * a := mul_pos hs ha
  rw [abs_le]
  constructor <;> nlinarith

theorem div_close (hs : 0 < s) (ha : 0 < a) (hg : 0 < g) (hf : |s - f| ≤ s / 2 ^ 53)
    (hag : |a - g| ≤ g / 2 ^ 53) : |f / g - s / a| ≤ s / a * ((1 + 1 / 2 ^ 53) ^ 2 - 1) := by
  have hr : |1 - a / g| ≤ 1 / 2 ^ 53 := by
    rw [one_sub_div (ne_of_gt hg), abs_div, abs_of_pos hg, abs_sub_comm, div_le_iff₀ hg]
    linarith
  have hm := mul_close hs one_pos hf hr
  have hsplit : f / g - s / a = (f * (a / g) - s * 1) / a := by
    field_simp
  rw [hsplit, abs_div, abs_of_pos ha, div_le_iff₀ ha]
  refine hm.trans_eq ?_
  field_simp

end Errors

section Near

variable {m n : Nat} {q p : Int} {d v : ℚ}

/-- What two roundings leave of a decimal, as a part of the unit of its float. -/
theorem Close.error_lt (h : Close d v) (hr : Rounded d m q) (top : ℚ) (hm : (m : ℚ) + 1 / 2 ≤ top)
    (htop : 2 ^ 50 ≤ top) : |v - d| ≤ top * ((1 + 1 / 2 ^ 53) ^ 2 - 1) * 2 ^ q := by
  have hq : (0 : ℚ) < 2 ^ q := zpow_pos (by norm_num) q
  have hleast : (2 : ℚ) ^ (-1074 : Int) ≤ 2 ^ q := zpow_le_zpow_right₀ (by norm_num) hr.canonical.le
  obtain ⟨h₁, h₂⟩ := abs_le.mp hr.half
  rcases h with h | h
  · refine h.trans ?_
    rw [mul_right_comm]
    refine mul_le_mul_of_nonneg_right ?_ (by norm_num)
    nlinarith
  · have hpart : 1 / 10 ≤ top * ((1 + 1 / 2 ^ 53) ^ 2 - 1) := by
      norm_num
      linarith
    have hunit := mul_le_mul_of_nonneg_right hpart hq.le
    generalize (2 : ℚ) ^ (-1074 : Int) = least at h hleast
    linarith

/-- Floats of one unit are a whole number of units apart. -/
theorem near_of_same (hle : (n : ℚ) * 2 ^ q < (m + 3) * 2 ^ q) (hge : (m : ℚ) * 2 ^ q < (n + 3) * 2 ^ q) :
    |(n : ℚ) * 2 ^ q - m * 2 ^ q| ≤ 2 * 2 ^ q := by
  have hq : (0 : ℚ) < 2 ^ q := zpow_pos (by norm_num) q
  have hunits : ∀ {k l : Nat}, (k : ℚ) * 2 ^ q < (l + 3) * 2 ^ q → (k : ℚ) ≤ l + 2 := fun h => by
    exact_mod_cast Nat.le_of_lt_succ (by exact_mod_cast lt_of_mul_lt_mul_right h hq.le)
  have hn := hunits hle
  have hm := hunits hge
  rw [← sub_mul, abs_mul, abs_of_pos hq]
  exact mul_le_mul_of_nonneg_right (abs_le.mpr ⟨by linarith, by linarith⟩) hq.le

/-- A float is two units in the last place away at most if it is what a number rounds to
that is close to a decimal of the other. -/
theorem near_of_close (hr : Rounded d m q) (hv : Close d v) (hs : Rounded v n p) :
    |(n : ℚ) * 2 ^ p - m * 2 ^ q| ≤ 2 * 2 ^ max p q := by
  have hpos : ∀ e : Int, (0 : ℚ) < 2 ^ e := zpow_pos (by norm_num)
  have hm : (m : ℚ) + 1 ≤ 2 ^ 53 := by exact_mod_cast hr.canonical.lt
  have hn : (n : ℚ) + 1 ≤ 2 ^ 53 := by exact_mod_cast hs.canonical.lt
  obtain ⟨hr₁, hr₂⟩ := abs_le.mp hr.half
  obtain ⟨hs₁, hs₂⟩ := abs_le.mp hs.half
  obtain ⟨hv₁, hv₂⟩ := abs_le.mp
    (hv.error_lt hr (2 ^ 53 - 1 / 2) (by linarith) (by norm_num))
  norm_num at hv₁ hv₂
  rcases lt_trichotomy p q with hlt | rfl | hgt
  · -- Under a power of two, which is close to the other float, two roundings weigh half.
    rw [max_eq_right hlt.le]
    have hhalf := Binary64.zpow_double_le hlt
    have hp := hpos p
    have hunder : (n : ℚ) * 2 ^ p ≤ (2 ^ 53 - 1) * 2 ^ p :=
      mul_le_mul_of_nonneg_right (by linarith) hp.le
    have hbottom : (m : ℚ) * 2 ^ q < (2 ^ 52 + 3) * 2 ^ q := by
      norm_num at hunder ⊢
      linarith
    have hm52 : (m : ℚ) + 1 ≤ 2 ^ 52 + 3 := by
      exact_mod_cast lt_of_mul_lt_mul_right hbottom (hpos q).le
    obtain ⟨hw₁, hw₂⟩ := abs_le.mp
      (hv.error_lt hr (2 ^ 52 + 5 / 2) (by linarith) (by norm_num))
    norm_num at hw₁ hw₂
    refine abs_le.mpr ⟨?_, ?_⟩ <;> linarith
  · rw [max_self]
    have hp := hpos p
    exact near_of_same (by linarith) (by linarith)
  · rw [max_eq_left hgt.le]
    have hhalf := Binary64.zpow_double_le hgt
    have hq := hpos q
    refine abs_le.mpr ⟨?_, ?_⟩ <;> linarith

/-- A decimal of the least place that rounds to a float is three of its units at least. -/
theorem three_places_le {s : Nat} {e : Int} (hr : Rounded (s * 10 ^ e) m q) (he : -324 ≤ e) :
    3 * 10 ^ (-324 : Int) ≤ (s : ℚ) * 10 ^ e := by
  obtain ⟨hfour, -⟩ := Decimal.Neighbourhood.least_place
  obtain ⟨hlow, -, hodd⟩ := Binary64.nearest_of_contains hr.canonical.pos hr.contains
  have hq : (0 : ℚ) < 2 ^ q := zpow_pos (by norm_num) q
  have hleast : (2 : ℚ) ^ (-1074 : Int) ≤ 2 ^ q := zpow_le_zpow_right₀ (by norm_num) hr.canonical.le
  have hhalf : 1 < 2 * ((s : ℚ) * 10 ^ e / 2 ^ q) := by
    by_cases hm : m = 1
    · have hlt := (hodd (by rw [hm])).1
      rw [hm] at hlt
      push_cast at hlt
      linarith
    · have hm2 : (2 : ℚ) ≤ m := by exact_mod_cast (by have := hr.canonical.pos; omega : 2 ≤ m)
      linarith
  obtain ⟨k, rfl⟩ : ∃ k : Nat, e = k + -324 := ⟨(e + 324).toNat, by omega⟩
  have hsplit : (s : ℚ) * 10 ^ ((k : Int) + -324) = (s * 10 ^ k : Nat) * 10 ^ (-324 : Int) := by
    rw [zpow_add₀ (by norm_num), zpow_natCast, Nat.cast_mul, Nat.cast_pow, Nat.cast_ofNat, mul_assoc]
  rw [mul_div_assoc', lt_div_iff₀ hq, hsplit] at hhalf
  rw [hsplit]
  generalize (2 : ℚ) ^ (-1074 : Int) = least at hfour hleast
  have hplace : (0 : ℚ) < 10 ^ (-324 : Int) := zpow_pos (by norm_num) _
  generalize (10 : ℚ) ^ (-324 : Int) = place at hfour hplace hhalf ⊢
  have htwo : (2 : Nat) * place < (s * 10 ^ k : Nat) * place := by
    push_cast at hhalf ⊢
    linarith
  have hlt := Nat.cast_lt.mp (lt_of_mul_lt_mul_right htwo hplace.le)
  have hle : (3 : ℚ) ≤ (s * 10 ^ k : Nat) := by exact_mod_cast hlt
  exact mul_le_mul_of_nonneg_right hle hplace.le

/-- A close number is in the range of floats too, but for the greatest three of them. -/
theorem exists_rounded_of_close (hr : Rounded d m q) (hv : Close d v) (hd : 3 * 10 ^ (-324 : Int) ≤ d)
    (hm : q < 971 ∨ m ≤ 2 ^ 53 - 4) : ∃ n p, Rounded v n p := by
  have hpos : ∀ e : Int, (0 : ℚ) < 2 ^ e := zpow_pos (by norm_num)
  refine Binary64.exists_rounded ?_ ?_
  · obtain ⟨-, hfive⟩ := Decimal.Neighbourhood.least_place
    have hleast := hpos (-1074)
    unfold Close at hv
    generalize (2 : ℚ) ^ (-1074 : Int) = least at hfive hv hleast ⊢
    generalize (10 : ℚ) ^ (-324 : Int) = place at hfive hd
    rcases hv with hv | hv
    · obtain ⟨hv, -⟩ := abs_le.mp hv
      norm_num at hv
      linarith
    · obtain ⟨hv, -⟩ := abs_le.mp hv
      linarith
  · have hq := hpos q
    have htop := hpos 971
    obtain ⟨-, hr₂⟩ := abs_le.mp hr.half
    have hm53 : (m : ℚ) + 1 ≤ 2 ^ 53 := by exact_mod_cast hr.canonical.lt
    obtain ⟨-, hv₂⟩ := abs_le.mp
      (hv.error_lt hr (2 ^ 53 - 1 / 2) (by linarith) (by norm_num))
    norm_num at hv₂
    have hunit : v < (m + 5 / 2) * 2 ^ q := by linarith
    refine hunit.trans ?_
    rcases hm with hm | hm
    · have hhalf := Binary64.zpow_double_le hm
      generalize (2 : ℚ) ^ (971 : Int) = unit at hhalf htop ⊢
      have hle : ((m : ℚ) + 5 / 2) * 2 ^ q ≤ (2 ^ 53 + 3 / 2) * 2 ^ q :=
        mul_le_mul_of_nonneg_right (by linarith) hq.le
      norm_num at hle ⊢
      linarith
    · have hle : (2 : ℚ) ^ q ≤ 2 ^ (971 : Int) :=
        zpow_le_zpow_right₀ (by norm_num) hr.canonical.fits
      have hm4 : (m : ℚ) + 4 ≤ 2 ^ 53 := by exact_mod_cast (by omega : m + 4 ≤ 2 ^ 53)
      generalize (2 : ℚ) ^ (971 : Int) = unit at hle htop ⊢
      have hmul : ((m : ℚ) + 5 / 2) * 2 ^ q ≤ (2 ^ 53 - 3 / 2) * unit :=
        mul_le_mul (by linarith) hle hq.le (by norm_num)
      norm_num at hmul ⊢
      linarith

end Near

end ExampleTests.Json
