import ExampleTests.Proofs.Decimal.Nearest

/-! What multiplication, division and the conversion of numbers and decimals do to floats:
the result is the float that the exact result rounds to. -/

namespace ExampleTests.Binary64

open Float.Model Float.Model.UnpackedFloat

/-- The float is positive and has this significand and exponent. -/
structure Unpacks (x : Float) (m : Nat) (q : Int) : Prop where
  canonical : Canonical m q
  unpack_eq : x.toModel.unpack = .finite .positive m q canonical.pos

variable {x y : Float} {m m₁ m₂ n k : Nat} {q q₁ q₂ : Int}

namespace Unpacks

theorem ofFloat_eq (h : Unpacks x m q) : ofFloat x = .finite false m q := ofFloat_of_unpack h.unpack_eq

theorem ofFloat_neg (h : Unpacks x m q) : ofFloat (-x) = .finite true m q :=
  ofFloat_of_unpack (unpack_neg h.canonical h.unpack_eq)

theorem isInf_eq (h : Unpacks x m q) : x.isInf = false := by
  have hi : x.isInf = x.toModel.unpack.isInf := rfl
  rw [hi, h.unpack_eq]
  rfl

theorem beq_zero (h : Unpacks x m q) : (x == 0) = false := by
  have hb : (x == 0) = (x.toModel.unpack.compare (0 : Float).toModel.unpack == some .eq) := rfl
  rw [hb, h.unpack_eq]
  rfl

theorem ofModel {u : UnpackedFloat} (hc : Canonical m q) (hx : x.toModel = Float.Model.pack u)
    (hu : u = .finite .positive m q hc.pos) : Unpacks x m q := by
  refine ⟨hc, ?_⟩
  rw [hx, hu]
  exact unpack_pack hc .positive

theorem div (hx : Unpacks x m₁ q₁) (hy : Unpacks y m₂ q₂)
    (h : Rounded (m₁ * 2 ^ q₁ / (m₂ * 2 ^ q₂)) m q) : Unpacks (x / y) m q := by
  refine ofModel h.canonical (u := UnpackedFloat.div Format.binary64 _ _) rfl ?_
  rw [hx.unpack_eq, hy.unpack_eq]
  exact div_finite h.canonical _ _ h.contains .positive .positive

end Unpacks

/-- A product of 53 bits or more is rounded once. -/
theorem mul_finite (h : Rounded (m₁ * 2 ^ q₁ * (m₂ * 2 ^ q₂)) m q) (hbits : 2 ^ 52 ≤ m₁ * m₂)
    (h₁ : 0 < m₁) (h₂ : 0 < m₂) :
    UnpackedFloat.mul Format.binary64 (.finite .positive m₁ q₁ h₁) (.finite .positive m₂ q₂ h₂) =
      .finite .positive m q h.canonical.pos := by
  have hrep := represents_exact (m₁ * m₂)
  have hexact : ((m₁ * m₂ : Nat) : ℚ) = m₁ * 2 ^ q₁ * (m₂ * 2 ^ q₂) / 2 ^ (q₁ + q₂) := by
    rw [zpow_add₀ (by norm_num), Nat.cast_mul]
    have hne : ∀ e : Int, (2 : ℚ) ^ e ≠ 0 := fun e => zpow_ne_zero e (by norm_num)
    field_simp [hne q₁, hne q₂]
  have hlog : 52 ≤ (m₁ * m₂).log2 := (Nat.le_log2 (by omega)).mpr hbits
  rw [hexact] at hrep
  exact roundWithAccuracy_eq h.canonical h.contains hrep (by omega) .positive

theorem Unpacks.mul (hx : Unpacks x m₁ q₁) (hy : Unpacks y m₂ q₂) (hbits : 2 ^ 52 ≤ m₁ * m₂)
    (h : Rounded (m₁ * 2 ^ q₁ * (m₂ * 2 ^ q₂)) m q) : Unpacks (x * y) m q := by
  refine ofModel h.canonical (u := UnpackedFloat.mul Format.binary64 _ _) rfl ?_
  rw [hx.unpack_eq, hy.unpack_eq]
  exact mul_finite h hbits _ _

theorem log2_shiftLeft (hn : 0 < n) (s : Nat) : (n <<< s).log2 = n.log2 + s := by
  have hlow : 2 ^ n.log2 ≤ n := Nat.log2_self_le (Nat.ne_of_gt hn)
  have hhigh : n < 2 ^ (n.log2 + 1) := Nat.lt_log2_self
  have hpow : 0 < 2 ^ s := Nat.pow_pos (by decide)
  rw [Nat.shiftLeft_eq, Nat.log2_eq_iff (Nat.ne_of_gt (Nat.mul_pos hn hpow))]
  constructor
  · rw [Nat.pow_add]
    exact Nat.mul_le_mul_right _ hlow
  · rw [Nat.add_right_comm, Nat.pow_add]
    exact Nat.mul_lt_mul_of_pos_right hhigh hpow

theorem unpacks_ofNat (hn : 0 < n) (hlt : n < 2 ^ 64) (h : Rounded n m q) :
    Unpacks (UInt64.ofNat n).toFloat m q := by
  have hnat : (UInt64.ofNat n).toNat = n := Nat.mod_eq_of_lt hlt
  refine .ofModel h.canonical (u := UnpackedFloat.ofUInt64 Format.binary64 (UInt64.ofNat n)) rfl ?_
  rw [UnpackedFloat.ofUInt64, hnat, UnpackedFloat.ofNat, UnpackedFloat.ofInt, UnpackedFloat.normalize,
    Int.compare_eq_gt.mpr (by omega)]
  simp only [UnpackedFloat.round, Int.toNat_natCast, decreaseExponent]
  have hlog := log2_shiftLeft hn (0 - Format.binary64.targetExponent (totalExponent n 0)).toNat
  have hrep := represents_exact (n <<< (0 - Format.binary64.targetExponent (totalExponent n 0)).toNat)
  rw [targetExponent_eq] at *
  generalize hs : (0 - max ((n.log2 : Int) + 0 - 52) (-1074)).toNat = s at *
  have hexact : ((n <<< s : Nat) : ℚ) = n / 2 ^ (0 - (s : Int)) := by
    rw [Nat.shiftLeft_eq, zero_sub, zpow_neg, zpow_natCast, div_inv_eq_mul]
    push_cast
    rfl
  rw [hexact] at hrep
  exact roundWithAccuracy_eq h.canonical h.contains hrep (by omega) .positive

theorem exists_unpacks_ofNat (hn : 0 < n) (hlt : n < 2 ^ 53) :
    ∃ m q, Unpacks (UInt64.ofNat n).toFloat m q ∧ (m : ℚ) * 2 ^ q = n := by
  obtain ⟨m, q, hc, hv⟩ := exists_canonical hn hlt (Nat.zero_le 900)
  rw [pow_zero, mul_one] at hv
  exact ⟨m, q, unpacks_ofNat hn (hlt.trans (by decide)) (rounded_of_eq hc hv), hv⟩

/-- A power of ten is one product, of the float in the table if there is one. -/
theorem unpacks_powerOfTen (hk : k ≤ 308) (h : Rounded (10 ^ k) m q) :
    Unpacks (Float.ofScientific 1 false k) m q := by
  by_cases hfast : k ≤ 22
  · have hone : Unpacks (1 : Nat).toUInt64.toFloat (2 ^ 52) (-52) := by
      refine unpacks_ofNat (by decide) (by decide) ?_
      have hcanonical : Canonical (2 ^ 52) (-52) := ⟨by decide, by decide, by decide, .inl (by decide), by decide⟩
      have hself := rounded_self hcanonical
      norm_num at hself ⊢
      exact hself
    have hsize : k < Float.exactlyRepresentablePowersOfTen.size := Nat.lt_succ_of_le hfast
    obtain ⟨m₂, q₂, h₂, hu, hv⟩ := unpack_powerOfTen hsize
    have hx : (Float.ofScientific 1 false k).toModel = Float.Model.pack (UnpackedFloat.mul Format.binary64
        (1 : Nat).toUInt64.toFloat.toModel.unpack
        Float.exactlyRepresentablePowersOfTen[k].toModel.unpack) := by
      rw [Float.ofScientific, dif_pos ⟨by decide, hfast⟩]
      rfl
    have hproduct : Rounded (((2 ^ 52 : Nat) : ℚ) * 2 ^ (-52 : Int) * (m₂ * 2 ^ q₂)) m q := by
      rw [hv]
      norm_num
      exact h
    refine .ofModel h.canonical hx ?_
    rw [hone.unpack_eq, hu]
    exact mul_finite hproduct (Nat.le_mul_of_pos_right _ h₂) _ _
  · have hpos : (0 : Nat) < 10 ^ k := Nat.pow_pos (by decide)
    have hx : (Float.ofScientific 1 false k).toModel =
        Float.Model.pack (UnpackedFloat.ofScientific Format.binary64 1 k) := by
      rw [Float.ofScientific, dif_neg (fun hf => hfast hf.2)]
      rfl
    have hone : ((1 <<< 53 : Nat) : ℚ) * 2 ^ (-53 : Int) = 1 := by
      rw [Nat.one_shiftLeft]
      norm_num
    have hproduct :
        Rounded (((1 <<< 53 : Nat) : ℚ) * 2 ^ (-53 : Int) * ((10 ^ k : Nat) * 2 ^ (0 : Int))) m q := by
      rw [hone, one_mul, zpow_zero, mul_one, Nat.cast_pow, Nat.cast_ofNat]
      exact h
    have hlarge : 2 ^ 52 ≤ (1 <<< 53) * 10 ^ k :=
      Nat.le_trans (by decide) (Nat.le_mul_of_pos_right (1 <<< 53) hpos)
    refine .ofModel h.canonical hx ?_
    have hbits : (2 : Int) ^ Format.binary64.exponentBits = 2048 := rfl
    unfold UnpackedFloat.ofScientific
    rw [dif_neg (by decide), hbits, if_neg (by omega), if_neg (by omega), if_pos (by omega)]
    exact mul_finite hproduct hlarge _ _

theorem least_lt (h : Rounded (n / 10 ^ k) m q) : (k : Int) < n.log2 + 1077 := by
  obtain ⟨hv, -⟩ := range_of_contains h.canonical h.contains
  have htop : (n : ℚ) / 10 ^ k < 2 ^ ((n.log2 : Int) + 1 - k) := by
    have hlog : (n : ℚ) < 2 ^ (n.log2 + 1) := by exact_mod_cast Nat.lt_log2_self
    have hten : (2 : ℚ) ^ k ≤ 10 ^ k := pow_le_pow_left₀ (by norm_num) (by norm_num) k
    have he : (n.log2 : Int) + 1 - k = ((n.log2 + 1 : Nat) : Int) - (k : Nat) := by omega
    rw [he, zpow_sub₀ (by norm_num), zpow_natCast, zpow_natCast]
    exact (div_le_div_of_nonneg_left (by positivity) (by positivity) hten).trans_lt
      (div_lt_div_of_pos_right hlog (by positivity))
  have hexp := (zpow_lt_zpow_iff_right₀ (by norm_num : (1 : ℚ) < 2)).mp (hv.trans htop)
  omega

/-- The float of a decimal is the one that the decimal rounds to. -/
theorem unpacks_ofScientific (hn : 0 < n) (hk : 0 < k) (h : Rounded (n / 10 ^ k) m q) :
    Unpacks (Float.ofScientific n true k) m q := by
  -- Small digits and powers of ten are floats themselves, and only their quotient is rounded.
  by_cases hfast : n < 2 ^ 53 ∧ k ≤ 22
  · obtain ⟨m₁, q₁, hu₁, hv₁⟩ := exists_unpacks_ofNat hn hfast.1
    have hsize : k < Float.exactlyRepresentablePowersOfTen.size := Nat.lt_succ_of_le hfast.2
    obtain ⟨m₂, q₂, h₂, hu₂, hv₂⟩ := unpack_powerOfTen hsize
    have hx : (Float.ofScientific n true k).toModel = Float.Model.pack (UnpackedFloat.div Format.binary64
        (UInt64.ofNat n).toFloat.toModel.unpack
        Float.exactlyRepresentablePowersOfTen[k].toModel.unpack) := by
      rw [Float.ofScientific, dif_pos hfast]
      rfl
    rw [← hv₁, ← hv₂] at h
    refine .ofModel h.canonical hx ?_
    rw [hu₁.unpack_eq, hu₂]
    exact div_finite h.canonical _ h₂ h.contains .positive .positive
  · have hleast := least_lt h
    have hneg : Int.negOfNat k = -(k : Int) := Int.negOfNat_eq
    have hpow : 0 < 10 ^ (-Int.negOfNat k).toNat := Nat.pow_pos (by decide)
    have hexact : (n : ℚ) / 10 ^ k =
        n * 2 ^ (0 : Int) / ((10 ^ (-Int.negOfNat k).toNat : Nat) * 2 ^ (0 : Int)) := by
      have hnat : (-Int.negOfNat k).toNat = k := by omega
      rw [hnat]
      push_cast
      simp
    have hx : (Float.ofScientific n true k).toModel =
        Float.Model.pack (UnpackedFloat.ofScientific Format.binary64 n (Int.negOfNat k)) := by
      rw [Float.ofScientific, dif_neg hfast]
      rfl
    refine .ofModel h.canonical hx ?_
    have hbits : (2 : Int) ^ Format.binary64.exponentBits = 2048 := rfl
    unfold UnpackedFloat.ofScientific
    rw [dif_neg (Nat.ne_of_gt hn), hbits, if_neg (by omega), if_neg (by omega), if_neg (by omega)]
    rw [hexact] at h
    exact div_finite h.canonical hn hpow h.contains .positive .positive

end ExampleTests.Binary64
