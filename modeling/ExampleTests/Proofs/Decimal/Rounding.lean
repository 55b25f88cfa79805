import ExampleTests.Proofs.Decimal.Packing
import ExampleTests.Proofs.Decimal.Shortest

/-! Division of floats rounds to the nearest one. What is cut off from a quotient is
kept in two bits, and they suffice to choose between its neighbours. -/

namespace ExampleTests.Binary64

open Float.Model Float.Model.UnpackedFloat
open Decimal (Neighbourhood)

/-- What the mantissa and its two bits say about the number that was cut off. -/
def Represents (em : ExtendedMantissa) (x : ℚ) : Prop :=
  if em.stickyBit then
    2 * em.mantissa + em.roundBit.toNat < 2 * x ∧ 2 * x < 2 * em.mantissa + em.roundBit.toNat + 1
  else 2 * x = 2 * em.mantissa + em.roundBit.toNat

section Represents

variable {em : ExtendedMantissa} {x : ℚ}

theorem Represents.bounds (h : Represents em x) : em.mantissa ≤ x ∧ x < em.mantissa + 1 := by
  obtain ⟨m, r, s⟩ := em
  cases r <;> cases s <;> simp only [Represents, Bool.toNat_true, Bool.toNat_false, Bool.false_eq_true,
    if_true, if_false, Nat.cast_zero, Nat.cast_one] at h ⊢ <;> constructor <;> linarith

theorem represents_exact (m : Nat) :
    Represents (ExtendedMantissa.ofMantissaAndAccuracy m .exact) m := by
  simp [Represents, ExtendedMantissa.ofMantissaAndAccuracy]

theorem represents_fraction (n : Nat) {d : Nat} (hd : 0 < d) :
    Represents (ExtendedMantissa.ofMantissaAndAccuracy (n / d) (accuracyOfFraction (n % d) d))
      ((n : ℚ) / d) := by
  have hdq : (0 : ℚ) < d := by exact_mod_cast hd
  have hsplit : (n : ℚ) / d = (n / d : Nat) + ((n % d : Nat) : ℚ) / d := by
    rw [add_div' _ _ _ (ne_of_gt hdq), div_left_inj' (ne_of_gt hdq)]
    exact_mod_cast (Nat.div_add_mod' n d).symm
  have hlt : n % d < d := Nat.mod_lt n hd
  rw [hsplit]
  generalize n / d = m
  generalize n % d = k at hlt
  have hone : (k : ℚ) / d < 1 := (div_lt_one hdq).mpr (by exact_mod_cast hlt)
  unfold accuracyOfFraction
  by_cases h0 : k = 0
  · rw [if_pos h0, h0, Nat.cast_zero, zero_div, add_zero]
    exact represents_exact m
  · rw [if_neg h0]
    have hpos : 0 < (k : ℚ) / d := div_pos (by exact_mod_cast Nat.pos_of_ne_zero h0) hdq
    rcases hc : compare (2 * k) d with _ | _ | _
    · have hhalf : 2 * ((k : ℚ) / d) < 1 := by
        rw [mul_div_assoc', div_lt_one hdq]
        exact_mod_cast Nat.compare_eq_lt.mp hc
      simp only [Represents, ExtendedMantissa.ofMantissaAndAccuracy, Bool.toNat_false, Nat.cast_zero,
        if_true]
      constructor <;> linarith
    · have hhalf : 2 * ((k : ℚ) / d) = 1 := by
        rw [mul_div_assoc', div_eq_one_iff_eq (ne_of_gt hdq)]
        exact_mod_cast Nat.compare_eq_eq.mp hc
      simp only [Represents, ExtendedMantissa.ofMantissaAndAccuracy, Bool.toNat_true, Nat.cast_one,
        Bool.false_eq_true, if_false]
      linarith
    · have hhalf : 1 < 2 * ((k : ℚ) / d) := by
        rw [mul_div_assoc', one_lt_div hdq]
        exact_mod_cast Nat.compare_eq_gt.mp hc
      simp only [Represents, ExtendedMantissa.ofMantissaAndAccuracy, Bool.toNat_true, Nat.cast_one,
        if_true]
      constructor <;> linarith

theorem Represents.shiftRightOne (h : Represents em x) : Represents em.shiftRightOne (x / 2) := by
  obtain ⟨m, r, s⟩ := em
  have hm : (m : ℚ) = 2 * (m / 2 : Nat) + (m % 2 : Nat) := by
    exact_mod_cast (Nat.div_add_mod m 2).symm
  have hbit : (m % 2 != 0).toNat = m % 2 := by
    rcases Nat.mod_two_eq_zero_or_one m with h | h <;> rw [h] <;> rfl
  have hle := h.bounds
  unfold ExtendedMantissa.shiftRightOne
  cases r <;> cases s <;> simp only [Represents, hbit, Bool.or_false, Bool.or_true, Bool.toNat_true,
    Bool.toNat_false, Bool.false_eq_true, if_true, if_false, Nat.cast_zero, Nat.cast_one] at h ⊢
  · linarith
  all_goals constructor <;> linarith

theorem Represents.shiftRight (h : Represents em x) (n : Nat) : Represents (em >>> n) (x / 2 ^ n) := by
  change Represents (n.repeat ExtendedMantissa.shiftRightOne em) _
  induction n with
  | zero =>
    rw [pow_zero, div_one]
    exact h
  | succ n ih =>
    rw [pow_succ, ← div_div]
    exact ih.shiftRightOne

/-- The natural number next to a number, and the even one of two. -/
def Nearest (x : ℚ) (m : Nat) : Prop :=
  2 * m - 1 ≤ 2 * x ∧ 2 * x ≤ 2 * m + 1 ∧ (m % 2 = 1 → 2 * m - 1 < 2 * x ∧ 2 * x < 2 * m + 1)

theorem Represents.roundedMantissa {m : Nat} (h : Represents em x) (hm : Nearest x m) :
    em.roundedMantissa = m := by
  obtain ⟨n, r, s⟩ := em
  obtain ⟨hlo, hhi, hodd⟩ := hm
  have hle : ∀ {a b : Nat}, (a : ℚ) < b + 1 → a ≤ b := fun hab =>
    Nat.le_of_lt_succ (by exact_mod_cast hab)
  cases r <;> cases s <;> simp only [Represents, Bool.toNat_true, Bool.toNat_false, Bool.false_eq_true,
    if_true, if_false, Nat.cast_zero, Nat.cast_one] at h
  · have hnm : n ≤ m := hle (by linarith)
    have hmn : m ≤ n := hle (by linarith)
    exact Nat.le_antisymm hnm hmn
  · have hnm : n ≤ m := hle (by linarith)
    have hmn : m ≤ n := hle (by linarith)
    exact Nat.le_antisymm hnm hmn
  · -- A tie goes to the even neighbour.
    have hnm : n ≤ m := hle (by linarith)
    have hmn : m ≤ n + 1 := by
      apply hle
      push_cast
      linarith
    have heven : m % 2 = 0 := by
      by_contra hne
      obtain ⟨hlo, hhi⟩ := hodd (by omega)
      have hlt : n < m := by exact_mod_cast (by linarith : (n : ℚ) < m)
      have hgt : m < n + 1 := by exact_mod_cast (by linarith : (m : ℚ) < n + 1)
      omega
    change n + n % 2 = m
    omega
  · have hnm : n < m := by exact_mod_cast (by linarith : (n : ℚ) < m)
    have hmn : m ≤ n + 1 := by
      apply hle
      push_cast
      linarith
    change n + 1 = m
    omega

end Represents

theorem targetExponent_eq (m : Nat) (e : Int) :
    Format.binary64.targetExponent (totalExponent m e) = max (m.log2 + e - 52) (-1074) := by
  simp only [Format.targetExponent, totalExponent, Format.mantissaBits, Format.minExponent]
  norm_num
  omega

section Nearest

variable {m : Nat} {q : Int} {v : ℚ}

theorem nearest_of_contains (hm : 0 < m) (h : (Neighbourhood.ofBinary m q).Contains v) :
    Nearest (v / 2 ^ q) m := by
  obtain ⟨hlow, hhigh⟩ := (Neighbourhood.contains_ofBinary_iff hm).mp h
  have hgap := Neighbourhood.lowGap_le m q
  have hlo := hlow.le
  have hhi := hhigh.le
  refine ⟨by linarith, by linarith, fun hodd => ?_⟩
  rw [decide_eq_false (by omega)] at hlow hhigh
  simp only [Neighbourhood.Reaches, Bool.false_eq_true, if_false] at hlow hhigh
  constructor <;> linarith

theorem lt_zpow_add_iff (n : Nat) : v < 2 ^ (q + n) ↔ v / 2 ^ q < 2 ^ n := by
  rw [zpow_add₀ (by norm_num), zpow_natCast, mul_comm, div_lt_iff₀ (zpow_pos (by norm_num) q)]

theorem zpow_add_le_iff (n : Nat) : 2 ^ (q + n) ≤ v ↔ 2 ^ n ≤ v / 2 ^ q := by
  rw [← not_lt, lt_zpow_add_iff, not_lt]

theorem log2_add_lt {p n : Nat} {t : Int} (hp : 0 < p) (hlo : (p : ℚ) ≤ v / 2 ^ t)
    (h : v / 2 ^ q < 2 ^ n) : (p.log2 : Int) + t < q + n := by
  have hself : ((2 ^ p.log2 : Nat) : ℚ) ≤ p := Nat.cast_le.mpr (Nat.log2_self_le (by omega))
  push_cast at hself
  have hlow := (zpow_add_le_iff p.log2).mpr (hself.trans hlo)
  have hhigh := (lt_zpow_add_iff n).mpr h
  have hexp := (zpow_lt_zpow_iff_right₀ one_lt_two).mp (hlow.trans_lt hhigh)
  omega

theorem lt_log2_add {p n : Nat} {t : Int} (hhi : v / 2 ^ t < p + 1) (h : 2 ^ n ≤ v / 2 ^ q) :
    q + n < (p.log2 : Int) + t + 1 := by
  have hnext : (p : ℚ) + 1 ≤ ((2 ^ (p.log2 + 1) : Nat) : ℚ) := by exact_mod_cast Nat.lt_log2_self
  push_cast at hnext
  have hlow := (zpow_add_le_iff n).mpr h
  have hhigh := (lt_zpow_add_iff (p.log2 + 1)).mpr (hhi.trans_le hnext)
  have hexp := (zpow_lt_zpow_iff_right₀ one_lt_two).mp (hlow.trans_lt hhigh)
  omega

/-- The exponent to which a quotient is shifted is that of the float it rounds to, or the
one below if the float is a power of two and the quotient lies under it. -/
theorem target_cases (hc : Canonical m q) (h : (Neighbourhood.ofBinary m q).Contains v) {p : Nat}
    {t : Int} (ht : t ≤ max (p.log2 + t - 52) (-1074)) (hlo : (p : ℚ) ≤ v / 2 ^ t)
    (hhi : v / 2 ^ t < p + 1) :
    max ((p.log2 : Int) + t - 52) (-1074) = q ∨
      max ((p.log2 : Int) + t - 52) (-1074) = q - 1 ∧ m = 2 ^ 52 ∧ -1074 < q ∧ v / 2 ^ q < 2 ^ 52 := by
  have hq : (0 : ℚ) < 2 ^ q := zpow_pos (by norm_num) q
  have hone : (1 : ℚ) < 2 := by norm_num
  obtain ⟨hlow, hhigh, -⟩ := nearest_of_contains hc.pos h
  have hm : (m : ℚ) + 1 ≤ 2 ^ 53 := by exact_mod_cast hc.lt
  by_cases hp : p = 0
  · -- No bit is left of a quotient only below the least exponent.
    rw [hp] at ht hlo hhi ⊢
    rw [Nat.log2_zero] at ht ⊢
    have hq0 : q = -1074 := by
      by_contra hne
      have hnormal : (2 ^ 52 : ℚ) ≤ m := by exact_mod_cast hc.normal.resolve_right hne
      have hle := hc.le
      have htq : (2 : ℚ) ^ t < 2 ^ q := zpow_lt_zpow_right₀ hone (by omega)
      have hvt : v < 2 ^ t := by simpa using (div_lt_iff₀ (zpow_pos (by norm_num) t)).mp hhi
      have hvq : v / 2 ^ q < 1 := (div_lt_one hq).mpr (hvt.trans htq)
      linarith
    left
    omega
  · have hp := Nat.pos_of_ne_zero hp
    have htop : (p.log2 : Int) + t < q + 53 := log2_add_lt (n := 53) hp hlo (by linarith)
    by_cases hq0 : q = -1074
    · left
      omega
    have hle := hc.le
    have hnormal := hc.normal.resolve_right hq0
    have hnormalq : (2 ^ 52 : ℚ) ≤ m := by exact_mod_cast hnormal
    by_cases hunder : v / 2 ^ q < 2 ^ 52
    · have hexact := log2_add_lt hp hlo hunder
      have hbottom : q + 51 < (p.log2 : Int) + t + 1 := lt_log2_add (n := 51) hhi (by linarith)
      have hm52 : m < 2 ^ 52 + 1 := by exact_mod_cast (by linarith : (m : ℚ) < 2 ^ 52 + 1)
      exact .inr ⟨by omega, by omega, by omega, hunder⟩
    · have hbottom := lt_log2_add hhi (not_lt.mp hunder)
      left
      omega

/-- Under a power of two the numbers lie closer, so a number that rounds to it from below
is next to it on their grid too. -/
theorem nearest_of_under (h : (Neighbourhood.ofBinary (2 ^ 52) q).Contains v) (hq : -1074 < q)
    (hunder : v / 2 ^ q < 2 ^ 52) : Nearest (v / 2 ^ (q - 1)) (2 ^ 53) := by
  obtain ⟨hlow, -⟩ := (Neighbourhood.contains_ofBinary_iff (by decide)).mp h
  have hgap : Neighbourhood.lowGap (2 ^ 52) q = 1 := if_pos ⟨rfl, hq⟩
  have hlo := hlow.le
  have hhalf : v / 2 ^ (q - 1) = 2 * (v / 2 ^ q) := by
    rw [zpow_sub₀ (by norm_num), zpow_one]
    ring
  rw [hgap] at hlo
  push_cast at hlo
  refine ⟨?_, ?_, fun hodd => absurd hodd (by decide)⟩
  · rw [hhalf]
    push_cast
    linarith
  · rw [hhalf]
    push_cast
    linarith

end Nearest

theorem mantissa_ofMantissaAndAccuracy (p : Nat) (accuracy : Accuracy) :
    (ExtendedMantissa.ofMantissaAndAccuracy p accuracy).mantissa = p := by
  rcases accuracy with _ | _ | _ | _ <;> rfl

theorem shiftToTargetExponent_canonical {m : Nat} {q : Int} (hc : Canonical m q) :
    shiftToTargetExponent Format.binary64 m q .exact = (⟨m, false, false⟩, q) := by
  have hlog : m.log2 < 53 := (Nat.log2_lt (Nat.ne_of_gt hc.pos)).mpr hc.lt
  have hs : (max ((m.log2 : Int) + q - 52) (-1074) - q).toNat = 0 := by
    have hle := hc.le
    omega
  rw [shiftToTargetExponent, targetExponent_eq, shiftToExponent, hs]
  exact Prod.ext rfl (add_zero q)

/-- A carry into the bit above gives a power of two with the next exponent. -/
theorem shiftToTargetExponent_carry {q : Int} (hq : -1074 < q) :
    shiftToTargetExponent Format.binary64 (2 ^ 53) (q - 1) .exact = (⟨2 ^ 52, false, false⟩, q) := by
  have hs : (max (((2 ^ 53 : Nat).log2 : Int) + (q - 1) - 52) (-1074) - (q - 1)).toNat = 1 := by
    rw [Nat.log2_two_pow]
    omega
  rw [shiftToTargetExponent, targetExponent_eq, shiftToExponent, hs]
  exact Prod.ext rfl (sub_add_cancel q 1)

/-- A quotient that was cut off is rounded to the float in whose neighbourhood it is. -/
theorem roundWithAccuracy_eq {m : Nat} {q : Int} {v : ℚ} (hc : Canonical m q)
    (h : (Neighbourhood.ofBinary m q).Contains v) {p : Nat} {t : Int} {accuracy : Accuracy}
    (hr : Represents (ExtendedMantissa.ofMantissaAndAccuracy p accuracy) (v / 2 ^ t))
    (ht : t ≤ max (p.log2 + t - 52) (-1074)) (sign : Sign) :
    roundWithAccuracy Format.binary64 sign p t accuracy = .finite sign m q hc.pos := by
  obtain ⟨hlo, hhi⟩ := hr.bounds
  rw [mantissa_ofMantissaAndAccuracy] at hlo hhi
  generalize hT : max ((p.log2 : Int) + t - 52) (-1074) = T at ht
  have hshift : shiftToTargetExponent Format.binary64 p t accuracy =
      (ExtendedMantissa.ofMantissaAndAccuracy p accuracy >>> (T - t).toNat, T) := by
    rw [shiftToTargetExponent, targetExponent_eq, hT, shiftToExponent]
    exact Prod.ext rfl (by simp only; omega)
  have hrep := hr.shiftRight (T - t).toNat
  have hexp : v / 2 ^ t / 2 ^ (T - t).toNat = v / 2 ^ T := by
    have he : T = t + ((T - t).toNat : Int) := by omega
    conv_rhs => rw [he]
    rw [zpow_add₀ (by norm_num), zpow_natCast, div_div]
  rw [hexp] at hrep
  -- In the second case rounding carries into the bit above, and the second shift takes it back.
  rcases target_cases hc h (hT.symm ▸ ht) hlo hhi with hq | ⟨hq, rfl, hlt, hunder⟩
  · rw [hT] at hq
    subst hq
    have hround := hrep.roundedMantissa (nearest_of_contains hc.pos h)
    simp only [roundWithAccuracy, hshift, hround, shiftToTargetExponent_canonical hc]
    rw [dif_neg (Nat.ne_of_gt hc.pos)]
  · rw [hT] at hq
    subst hq
    have hround := hrep.roundedMantissa (nearest_of_under h hlt hunder)
    simp only [roundWithAccuracy, hshift, hround, shiftToTargetExponent_carry hlt]
    rw [dif_neg (by decide)]

section Division

variable {m₁ m₂ : Nat} {e₁ e₂ : Int}

def cutExponent (m₁ : Nat) (e₁ : Int) (m₂ : Nat) (e₂ : Int) : Int :=
  min (e₁ - e₂) (max ((m₁.log2 : Int) + e₁ - (m₂.log2 + e₂) - 53) (-1074))

theorem divCore_eq (m₁ : Nat) (e₁ : Int) (m₂ : Nat) (e₂ : Int) :
    divCore Format.binary64 m₁ e₁ m₂ e₂ =
      let m := m₁ * 2 ^ (e₁ - e₂ - cutExponent m₁ e₁ m₂ e₂).toNat
      (m / m₂, cutExponent m₁ e₁ m₂ e₂, accuracyOfFraction (m % m₂) m₂) := by
  have hcut : min (e₁ - e₂) (Format.binary64.targetExponent
      (totalExponent m₁ e₁ - totalExponent m₂ e₂)) = cutExponent m₁ e₁ m₂ e₂ := by
    have htarget : Format.binary64.targetExponent (totalExponent m₁ e₁ - totalExponent m₂ e₂) =
        max ((m₁.log2 : Int) + e₁ - (m₂.log2 + e₂) - 53) (-1074) := by
      simp only [Format.targetExponent, totalExponent, Format.mantissaBits, Format.minExponent]
      norm_num
      omega
    rw [htarget, cutExponent]
  simp only [divCore, hcut, Nat.shiftLeft_eq]

/-- A quotient keeps 53 bits, or all down to the least exponent. -/
theorem cutExponent_le (h₁ : 0 < m₁) (h₂ : 0 < m₂) :
    cutExponent m₁ e₁ m₂ e₂ ≤ max
      (((m₁ * 2 ^ (e₁ - e₂ - cutExponent m₁ e₁ m₂ e₂).toNat / m₂).log2 : Int) +
        cutExponent m₁ e₁ m₂ e₂ - 52) (-1074) := by
  by_cases hleast : cutExponent m₁ e₁ m₂ e₂ ≤ -1074
  · omega
  generalize hk : (e₁ - e₂ - cutExponent m₁ e₁ m₂ e₂).toNat = k
  have hbits : 53 + m₂.log2 ≤ m₁.log2 + k := by
    unfold cutExponent at hleast hk
    omega
  have hquotient : 2 ^ 52 ≤ m₁ * 2 ^ k / m₂ := by
    rw [Nat.le_div_iff_mul_le h₂]
    calc 2 ^ 52 * m₂
        ≤ 2 ^ 52 * 2 ^ (m₂.log2 + 1) := Nat.mul_le_mul_left _ (Nat.le_of_lt Nat.lt_log2_self)
      _ = 2 ^ (53 + m₂.log2) := by rw [← Nat.pow_add]; congr 1; omega
      _ ≤ 2 ^ (m₁.log2 + k) := Nat.pow_le_pow_right (by decide) hbits
      _ = 2 ^ m₁.log2 * 2 ^ k := Nat.pow_add _ _ _
      _ ≤ m₁ * 2 ^ k := Nat.mul_le_mul_right _ (Nat.log2_self_le (by omega))
  have hlog : 52 ≤ (m₁ * 2 ^ k / m₂).log2 := (Nat.le_log2 (by omega)).mpr hquotient
  omega

theorem quotient_eq :
    ((m₁ * 2 ^ (e₁ - e₂ - cutExponent m₁ e₁ m₂ e₂).toNat : Nat) : ℚ) / m₂ =
      m₁ * 2 ^ e₁ / (m₂ * 2 ^ e₂) / 2 ^ cutExponent m₁ e₁ m₂ e₂ := by
  have hle : cutExponent m₁ e₁ m₂ e₂ ≤ e₁ - e₂ := min_le_left _ _
  have hpow : (2 : ℚ) ^ (e₁ - e₂ - cutExponent m₁ e₁ m₂ e₂).toNat =
      2 ^ e₁ / 2 ^ e₂ / 2 ^ cutExponent m₁ e₁ m₂ e₂ := by
    rw [← zpow_sub₀ (by norm_num), ← zpow_sub₀ (by norm_num), ← zpow_natCast]
    congr 1
    omega
  push_cast
  rw [hpow]
  ring

/-- The quotient of two floats is the float in whose neighbourhood the exact one is. -/
theorem div_finite {m : Nat} {q : Int} (hc : Canonical m q) (h₁ : 0 < m₁) (h₂ : 0 < m₂)
    (h : (Neighbourhood.ofBinary m q).Contains (m₁ * 2 ^ e₁ / (m₂ * 2 ^ e₂))) (s₁ s₂ : Sign) :
    UnpackedFloat.div Format.binary64 (.finite s₁ m₁ e₁ h₁) (.finite s₂ m₂ e₂ h₂) =
      .finite (s₁ / s₂) m q hc.pos := by
  have hrep := represents_fraction (m₁ * 2 ^ (e₁ - e₂ - cutExponent m₁ e₁ m₂ e₂).toNat) h₂
  rw [quotient_eq] at hrep
  simp only [UnpackedFloat.div, divCore_eq]
  exact roundWithAccuracy_eq hc h hrep (cutExponent_le h₁ h₂) _

end Division

section Decimals

def isPowerOfTen (k : Nat) : UnpackedFloat → Bool
  | .finite .positive m q _ => m * 2 ^ q.toNat == 10 ^ k * 2 ^ (-q).toNat
  | _ => false

theorem isPowerOfTen_table : ∀ (k : Nat) (_ : k < Float.exactlyRepresentablePowersOfTen.size),
    isPowerOfTen k Float.exactlyRepresentablePowersOfTen[k].toModel.unpack = true := by
  decide +kernel

theorem unpack_powerOfTen {k : Nat} (h : k < Float.exactlyRepresentablePowersOfTen.size) :
    ∃ m q, ∃ hm : 0 < m, Float.exactlyRepresentablePowersOfTen[k].toModel.unpack =
      .finite .positive m q hm ∧ (m : ℚ) * 2 ^ q = 10 ^ k := by
  have ht := isPowerOfTen_table k h
  generalize Float.exactlyRepresentablePowersOfTen[k].toModel.unpack = x at ht
  unfold isPowerOfTen at ht
  split at ht
  · rename_i m q hm
    refine ⟨m, q, hm, rfl, ?_⟩
    have hpow : (m : ℚ) * 2 ^ q.toNat = 10 ^ k * 2 ^ (-q).toNat := by exact_mod_cast beq_iff_eq.mp ht
    have hpos : (2 : ℚ) ^ (-q).toNat ≠ 0 := by positivity
    rw [← Decimal.Neighbourhood.zpow_mul_pow (by norm_num), ← mul_assoc] at hpow
    exact mul_right_cancel₀ hpos hpow
  · cases ht

/-- What rounds to a float lies between the least and the greatest of them. -/
theorem range_of_contains {m : Nat} {q : Int} {v : ℚ} (hc : Canonical m q)
    (h : (Neighbourhood.ofBinary m q).Contains v) : 2 ^ (-1076 : Int) < v ∧ v < 2 ^ (1024 : Int) := by
  obtain ⟨hlow, hhigh, -⟩ := nearest_of_contains hc.pos h
  have hq : (0 : ℚ) < 2 ^ q := zpow_pos (by norm_num) q
  have hle := hc.le
  have hfits := hc.fits
  constructor
  · have hone : (1 : ℚ) ≤ m := by exact_mod_cast hc.pos
    calc (2 : ℚ) ^ (-1076 : Int)
        < 2 ^ (q - 1) := zpow_lt_zpow_right₀ (by norm_num) (by omega)
      _ = 1 / 2 * 2 ^ q := by rw [zpow_sub₀ (by norm_num), zpow_one]; ring
      _ ≤ v := by
          rw [← le_div_iff₀ hq]
          linarith
  · have hm : (m : ℚ) + 1 ≤ 2 ^ 53 := by exact_mod_cast hc.lt
    calc v < 2 ^ (q + (53 : Nat)) := (lt_zpow_add_iff 53).mpr (by linarith)
      _ ≤ 2 ^ (1024 : Int) := zpow_le_zpow_right₀ (by norm_num) (by omega)

end Decimals

end ExampleTests.Binary64
