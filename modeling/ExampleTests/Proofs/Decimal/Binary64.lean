import ExampleTests.Decimal.Binary64

/-! A float is finite if and only if its decoded form is: both look at whether
the bits of the exponent are all set. -/

namespace ExampleTests.Binary64

open Float.Model

theorem isFinite_unpack (b : BitVec Format.binary64.numBits) :
    (UnpackedFloat.unpack Format.binary64 b).isFinite =
      !decide (UnpackedFloat.unpackExponent b = -1#_) := by
  by_cases hi : UnpackedFloat.unpackExponent b = -1#_
  · have hu : UnpackedFloat.unpack Format.binary64 b = _ := if_pos hi
    rw [hu, decide_eq_true hi]
    by_cases hm : UnpackedFloat.unpackMantissa b = 0#_
    · rw [if_pos hm]
      rfl
    · rw [if_neg hm]
      rfl
  · have hu : UnpackedFloat.unpack Format.binary64 b = _ := if_neg hi
    rw [hu, decide_eq_false hi]
    by_cases hz : UnpackedFloat.unpackExponent b = 0#_
    · rw [if_pos hz]
      by_cases hm : UnpackedFloat.unpackMantissa b = 0#_
      · rw [dif_pos hm]
        rfl
      · rw [dif_neg hm]
        rfl
    · rw [if_neg hz]
      rfl

theorem unpackExponent_toNat (x : Float) :
    (@UnpackedFloat.unpackExponent Format.binary64 x.toBits.toBitVec).toNat =
      x.toBits.toNat / leastNormal % 2048 := by
  simp [UnpackedFloat.unpackExponent, leastNormal, Nat.shiftRight_eq_div_pow]

theorem isFinite_eq (x : Float) :
    x.isFinite = !decide (x.toBits.toNat / leastNormal % 2048 = 2047) := by
  have hu : x.isFinite = _ := isFinite_unpack x.toBits.toBitVec
  rw [hu, ← unpackExponent_toNat]
  exact congrArg not (decide_eq_decide.mpr BitVec.toNat_inj.symm)

theorem isFinite_iff {x : Float} :
    x.isFinite = true ↔ ∃ negative m q, ofFloat x = .finite negative m q := by
  rw [isFinite_eq]
  by_cases hs : x.toBits.toNat / leastNormal % 2048 = 2047
  · by_cases hf : x.toBits.toNat % leastNormal = 0 <;> simp [ofFloat, hs, hf]
  · by_cases hz : x.toBits.toNat / leastNormal % 2048 = 0 <;> simp [ofFloat, hs, hz]

end ExampleTests.Binary64
