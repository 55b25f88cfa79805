import ExampleTests.Proofs.Decimal.Binary64
import Mathlib

/-! Floats in their bits. A significand and an exponent that fit are packed without
loss, and decoding a float gives the two that its bits unpack to. -/

namespace ExampleTests.Binary64

open Float.Model Float.Model.UnpackedFloat

/-- A significand and an exponent as they are kept for a number other than zero. -/
structure Canonical (m : Nat) (q : Int) : Prop where
  pos : 0 < m
  lt : m < 2 ^ 53
  le : -1074 ≤ q
  normal : 2 ^ 52 ≤ m ∨ q = -1074
  fits : q ≤ 971

theorem unpackSign_packComponents (format : Format) (s : Sign) (e : BitVec format.exponentBits)
    (m : BitVec format.mantissaBitsWithoutImplicit) :
    unpackSign (packComponents format s e m) = s.toBitVec := by
  apply BitVec.eq_of_getLsbD_eq
  intro i hi
  have hi0 : i = 0 := by omega
  subst hi0
  simp [unpackSign, packComponents, BitVec.getLsbD_append, BitVec.getElem_append]

theorem ofBitVec_toBitVec (s : Sign) : Sign.ofBitVec s.toBitVec = s := by
  cases s <;> rfl

theorem toNat_implicit (m : BitVec 52) : (1#1 ++ m).toNat = 2 ^ 52 + m.toNat := by
  rw [BitVec.toNat_append, ← Nat.shiftLeft_add_eq_or_of_lt m.isLt]
  rfl

section Unpack

variable (s : Sign) (m : BitVec 52) {e : BitVec 11}

theorem unpack_normal (hz : e ≠ 0#11) (hi : e ≠ -1#11) :
    UnpackedFloat.unpack Format.binary64 (packComponents Format.binary64 s e m) =
      .finite s (1#1 ++ m).toNat (e.toNat - 1075) (by rw [toNat_implicit]; omega) := by
  unfold UnpackedFloat.unpack
  simp only [unpackMantissa_packComponents, unpackExponent_packComponents, unpackSign_packComponents,
    ofBitVec_toBitVec, if_neg hz, if_neg hi]
  rfl

theorem unpack_subnormal (hm : m ≠ 0#52) :
    UnpackedFloat.unpack Format.binary64 (packComponents Format.binary64 s 0#11 m) =
      .finite s m.toNat (-1074) (by simpa [BitVec.toNat_pos, BitVec.pos_iff_ne_zero] using hm) := by
  unfold UnpackedFloat.unpack
  simp only [unpackMantissa_packComponents, unpackExponent_packComponents, unpackSign_packComponents,
    ofBitVec_toBitVec]
  rw [if_neg (by decide), if_pos trivial, dif_neg hm]
  rfl

end Unpack

/-- A canonical float comes back from its bits. -/
theorem unpack_pack {m : Nat} {q : Int} (hc : Canonical m q) (s : Sign) :
    (Float.Model.pack (.finite s m q hc.pos)).unpack = .finite s m q hc.pos := by
  obtain ⟨hpos, hlt, hle, hnormal, hfits⟩ := hc
  obtain ⟨b, hb⟩ : ∃ b : Nat, q = b - 1075 := ⟨(q + 1075).toNat, by omega⟩
  have hbias : (q + (Format.binary64.exponentBias : Nat) + (52 : Nat)).toNat = b := by
    have he : Format.binary64.exponentBias = 1023 := rfl
    rw [he]
    omega
  have hfield : (BitVec.ofNat 11 b).toNat = b := by
    rw [BitVec.toNat_ofNat, Nat.mod_eq_of_lt (by omega)]
  by_cases hm : 2 ^ 52 ≤ m
  · have hlog : m.log2 + 1 = Format.binary64.mantissaBits := by
      have hlo := (Nat.le_log2 (Nat.ne_of_gt hpos)).mpr hm
      have hhi := (Nat.log2_lt (Nat.ne_of_gt hpos)).mpr hlt
      have hbits : Format.binary64.mantissaBits = 53 := rfl
      omega
    have hpack : UnpackedFloat.pack Format.binary64 (.finite s m q hpos) =
        packComponents Format.binary64 s (BitVec.ofNat 11 b) (BitVec.ofNat 52 m) := by
      simp only [UnpackedFloat.pack]
      rw [hbias, if_neg (by omega), if_pos hlog]
    have hz : BitVec.ofNat 11 b ≠ 0#11 := by
      intro h
      have hn := congrArg BitVec.toNat h
      rw [hfield, BitVec.toNat_ofNat] at hn
      omega
    have hi : BitVec.ofNat 11 b ≠ -1#11 := by
      intro h
      have hn := congrArg BitVec.toNat h
      rw [hfield] at hn
      have hones : (-1#11).toNat = 2047 := rfl
      omega
    have hmantissa : (1#1 ++ BitVec.ofNat 52 m).toNat = m := by
      rw [toNat_implicit, BitVec.toNat_ofNat]
      omega
    have hu : (Float.Model.pack (.finite s m q hpos)).unpack = _ :=
      (congrArg (UnpackedFloat.unpack Format.binary64) hpack).trans (unpack_normal s _ hz hi)
    rw [hu]
    congr 1
    omega
  · have hq : q = -1074 := hnormal.resolve_left hm
    have hlog : ¬ m.log2 + 1 = Format.binary64.mantissaBits := by
      have hhi := (Nat.log2_lt (Nat.ne_of_gt hpos)).mpr (Nat.lt_of_not_le hm)
      have hbits : Format.binary64.mantissaBits = 53 := rfl
      omega
    have hpack : UnpackedFloat.pack Format.binary64 (.finite s m q hpos) =
        packComponents Format.binary64 s 0#11 (BitVec.ofNat 52 m) := by
      simp only [UnpackedFloat.pack]
      rw [hbias, if_neg (by omega), if_neg hlog]
    have hmantissa : (BitVec.ofNat 52 m).toNat = m := by
      rw [BitVec.toNat_ofNat, Nat.mod_eq_of_lt (Nat.lt_of_not_le hm)]
    have hz : BitVec.ofNat 52 m ≠ 0#52 := by
      intro h
      have hn := congrArg BitVec.toNat h
      rw [hmantissa, BitVec.toNat_ofNat] at hn
      omega
    have hu : (Float.Model.pack (.finite s m q hpos)).unpack = _ :=
      (congrArg (UnpackedFloat.unpack Format.binary64) hpack).trans (unpack_subnormal s _ hz)
    rw [hu]
    congr 1
    exact hq.symm

section Decode

variable {x : Float}

theorem unpackMantissa_toNat (x : Float) :
    (@unpackMantissa Format.binary64 x.toBits.toBitVec).toNat = x.toBits.toNat % leastNormal := by
  simp [unpackMantissa, leastNormal]

theorem unpackSign_eq (x : Float) :
    Sign.ofBitVec (@unpackSign Format.binary64 x.toBits.toBitVec) =
      if 1 <<< 63 ≤ x.toBits.toNat then .negative else .positive := by
  have hbit : (@unpackSign Format.binary64 x.toBits.toBitVec).toNat = x.toBits.toNat / 2 ^ 63 := by
    have hlt := x.toBits.toNat_lt
    simp [unpackSign, Nat.shiftRight_eq_div_pow]
    omega
  by_cases hn : 1 <<< 63 ≤ x.toBits.toNat
  · have hone : @unpackSign Format.binary64 x.toBits.toBitVec ≠ 0#1 := by
      intro h
      rw [h, BitVec.toNat_zero] at hbit
      omega
    rw [Sign.ofBitVec, if_neg hone, if_pos hn]
  · have hzero : @unpackSign Format.binary64 x.toBits.toBitVec = 0#1 := by
      apply BitVec.eq_of_toNat_eq
      rw [hbit, BitVec.toNat_zero]
      omega
    rw [Sign.ofBitVec, if_pos hzero, if_neg hn]

/-- What an unpacked float is decoded to. -/
def ofUnpacked : UnpackedFloat → Binary64
  | .notANumber => .nan
  | .infinity s => .infinite (s == .negative)
  | .zero s => .finite (s == .negative) 0 minExponent
  | .finite s m q _ => .finite (s == .negative) m q

theorem ofFloat_eq_ofUnpacked (x : Float) : ofFloat x = ofUnpacked x.toModel.unpack := by
  have hfield := unpackExponent_toNat x
  have hfraction := unpackMantissa_toNat x
  have hsign : (Sign.ofBitVec (@unpackSign Format.binary64 x.toBits.toBitVec) == .negative) =
      decide (1 <<< 63 ≤ x.toBits.toNat) := by
    rw [unpackSign_eq]
    by_cases hn : 1 <<< 63 ≤ x.toBits.toNat
    · rw [if_pos hn, decide_eq_true hn]
      rfl
    · rw [if_neg hn, decide_eq_false hn]
      rfl
  change _ = ofUnpacked (UnpackedFloat.unpack Format.binary64 x.toBits.toBitVec)
  simp only [UnpackedFloat.unpack]
  generalize @unpackExponent Format.binary64 x.toBits.toBitVec = e at hfield
  unfold ofFloat
  simp only
  rw [← hfield, ← hfraction, ← hsign]
  have hfraction0 : (@unpackMantissa Format.binary64 x.toBits.toBitVec).toNat = 0 ↔
      @unpackMantissa Format.binary64 x.toBits.toBitVec = 0#52 := BitVec.toNat_inj (y := 0#52)
  have hfield0 : e.toNat = 0 ↔ e = 0#11 := BitVec.toNat_inj (y := 0#11)
  have hones : e.toNat = 2047 ↔ e = -1#11 := BitVec.toNat_inj (y := -1#11)
  simp only [hfraction0, hfield0, hones]
  by_cases hi : e = -1#11
  · rw [if_pos hi, if_pos hi]
    by_cases hf : @unpackMantissa Format.binary64 x.toBits.toBitVec = 0#52
    · rw [if_pos hf, if_pos hf]
      rfl
    · rw [if_neg hf, if_neg hf]
      rfl
  · rw [if_neg hi, if_neg hi]
    by_cases hz : e = 0#11
    · rw [if_pos hz, if_pos hz, hz]
      by_cases hf : @unpackMantissa Format.binary64 x.toBits.toBitVec = 0#52
      · rw [dif_pos hf, hf]
        rfl
      · rw [dif_neg hf]
        rfl
    · have hq : minExponent + ((e.toNat : Int) - 1) = e.toNat - 1075 := by
        have hmin : minExponent = -1074 := rfl
        omega
      rw [if_neg hz, if_neg hz, hq]
      simp only [ofUnpacked, toNat_implicit]
      rfl

/-- A float that unpacks to a number is decoded to it. -/
theorem ofFloat_of_unpack {s : Sign} {m : Nat} {q : Int} {h : 0 < m}
    (hu : x.toModel.unpack = .finite s m q h) : ofFloat x = .finite (s == .negative) m q := by
  rw [ofFloat_eq_ofUnpacked, hu]
  rfl

theorem canonical_of_ofFloat {negative : Bool} {m : Nat} {q : Int}
    (h : ofFloat x = .finite negative m q) (hm : 0 < m) : Canonical m q := by
  have hfield := Nat.mod_lt (x.toBits.toNat / leastNormal) (by decide : 0 < 2048)
  have hfraction : x.toBits.toNat % leastNormal < leastNormal := Nat.mod_lt _ (by decide)
  have hleast : leastNormal = 2 ^ 52 := by decide
  have hmin : minExponent = -1074 := rfl
  unfold ofFloat at h
  simp only at h
  split at h
  · split at h <;> cases h
  · split at h <;> cases h
    · exact ⟨hm, by omega, by omega, .inr hmin, by omega⟩
    · exact ⟨hm, by omega, by omega, .inl (by omega), by omega⟩

theorem exponent_of_zero {negative : Bool} {q : Int} (h : ofFloat x = .finite negative 0 q) :
    q = minExponent := by
  have hleast : leastNormal = 2 ^ 52 := by decide
  unfold ofFloat at h
  simp only at h
  split at h
  · split at h <;> cases h
  · split at h
    · exact (finite.inj h).2.2.symm
    · rw [finite.injEq] at h
      omega

/-- The bits of a finite float: its sign, and its exponent counted from the least. -/
theorem toBits_of_ofFloat {negative : Bool} {m : Nat} {q : Int}
    (h : ofFloat x = .finite negative m q) :
    x.toBits.toNat = (if negative then 2 ^ 63 else 0) + (q - minExponent).toNat * 2 ^ 52 + m := by
  have hleast : leastNormal = 2 ^ 52 := by decide
  have hlt := x.toBits.toNat_lt
  simp only [ofFloat, hleast, Nat.reduceShiftLeft, Nat.reducePow] at h
  split at h
  · split at h <;> cases h
  · split at h <;> cases h <;> simp only [decide_eq_true_eq] <;> split <;> omega

theorem eq_of_ofFloat {y : Float} {negative : Bool} {m : Nat} {q : Int}
    (hx : ofFloat x = .finite negative m q) (hy : ofFloat y = .finite negative m q) : x = y := by
  have hbits : x.toModel.toBits = y.toModel.toBits :=
    UInt64.toNat_inj.mp ((toBits_of_ofFloat hx).trans (toBits_of_ofFloat hy).symm)
  obtain ⟨⟨_, _⟩⟩ := x
  obtain ⟨⟨_, _⟩⟩ := y
  cases hbits
  rfl

theorem unpack_neg {s : Sign} {m : Nat} {q : Int} (hc : Canonical m q)
    (hu : x.toModel.unpack = .finite s m q hc.pos) :
    (-x).toModel.unpack = .finite (-s) m q hc.pos := by
  have hneg : (-x).toModel = Float.Model.pack x.toModel.unpack.neg := rfl
  rw [hneg, hu]
  exact unpack_pack hc (-s)

end Decode

end ExampleTests.Binary64
