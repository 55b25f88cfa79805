import ExampleTests.Proofs.Json.Float
import ExampleTests.Proofs.Json.Integer

/-! The texts of floats. A finite float of any size is written as a decimal with a
point and without an exponent, so it never has the text of an integer. -/

namespace ExampleTests

open Json (Digits Numeral minus)

namespace Binary64

def signBit (x : Float) : Bool := decide (1 <<< 63 ≤ x.toBits.toNat)

theorem eq_signBit {x : Float} {negative : Bool}
    (h : ofFloat x = .infinite negative ∨ ∃ m q, ofFloat x = .finite negative m q) :
    negative = signBit x := by
  unfold ofFloat at h
  simp only at h
  split at h
  · split at h <;> simp_all [signBit]
  · split at h <;> simp_all [signBit]

theorem ofFloat_cases (x : Float) : x.isNaN = true ∧ ofFloat x = .nan ∨
    x.isNaN = false ∧ (ofFloat x = .infinite (signBit x) ∨ ∃ m q, ofFloat x = .finite (signBit x) m q) := by
  have hn : x.isNaN = x.toModel.unpack.isNaN := rfl
  have hu := ofFloat_eq_ofUnpacked x
  cases hx : x.toModel.unpack with
  | notANumber =>
    rw [hx] at hn hu
    exact .inl ⟨hn, hu⟩
  | infinity s | zero s | finite s =>
    rw [hx] at hn hu
    refine .inr ⟨hn, ?_⟩
    have hs : (s == .negative) = signBit x := eq_signBit (by simp [hu, ofUnpacked])
    simp [hu, ofUnpacked, hs]

end Binary64

/-- A decimal without an exponent: one point, with digits on each side of it. -/
def IsDecimal (negative : Bool) (text : String) : Prop :=
  ∃ whole fraction, text.toList = minus negative ++ (whole ++ '.' :: fraction) ∧
    Numeral whole ∧ Digits fraction

namespace Value

theorem magnitude_parts {m : Nat} {q : Int} (hc : 0 < m → Binary64.Canonical m q) :
    ∃ whole fraction, floatStyle.magnitude m q = whole ++ '.' :: fraction ∧
      Numeral whole ∧ Digits fraction := by
  by_cases hm : m = 0
  · have hzero : '0'.isDigit = true := rfl
    refine ⟨['0'], ['0'], ?_, Json.numeral_single hzero, List.cons_ne_nil _ _,
      List.forall_mem_singleton.mpr hzero⟩
    rw [Decimal.Style.magnitude, if_pos hm]
    rfl
  · have hd := Json.shortestDigits floatStyle.tie (hc (Nat.pos_of_ne_zero hm))
    obtain ⟨whole, fraction, -, hp, hzero, -⟩ := Decimal.Digits.positional_parts _ hd.nonempty hd.digits
    refine ⟨whole, fraction, ?_, ⟨hp.whole_ne, hp.whole_digits, hzero hd.noLeadingZero⟩,
      hp.fraction_ne, hp.fraction_digits⟩
    rw [Decimal.Style.magnitude, if_neg hm]
    exact hp.text_eq

theorem isDecimal_floatText {x : Float} {negative : Bool} {m : Nat} {q : Int}
    (hx : Binary64.ofFloat x = .finite negative m q) : IsDecimal negative (floatText x) := by
  obtain ⟨whole, fraction, ht, hw, hf⟩ := magnitude_parts (Binary64.canonical_of_ofFloat hx)
  refine ⟨whole, fraction, ?_, hw, hf⟩
  rw [floatText_eq, hx, String.toList_ofList, Json.finite_eq_minus, ht]

theorem integer_ne_floatText (n : Int) (x : Float) : floatText x ≠ n.repr := by
  have hi : (Json.IntegerText.mk (n < 0) _ (Json.numeral_repr n.natAbs)).literal = n.repr := by
    rw [Json.IntegerText.literal, ← Json.repr_eq_minus, String.ofList_toList]
  exact hi ▸ Json.IntegerText.render_float_ne _ x

/-- Finite floats are written with a point, behind a sign if their sign bit is set, and
the others as words. No integer has the text of a float. -/
theorem render_float (x : Float) :
    (x.isFinite = true → IsDecimal (Binary64.signBit x) (float x).render) ∧
    (x.isFinite = false → (x.isNaN = true ∧ (float x).render = "NaN") ∨
      x.isNaN = false ∧ (float x).render = if Binary64.signBit x then "-inf" else "inf") ∧
    ∀ n : Int64, (float x).render ≠ (integer n).render := by
  refine ⟨fun h => ?_, fun h => ?_, fun n => integer_ne_floatText n.toInt x⟩
  · obtain ⟨negative, m, q, hx⟩ := Binary64.isFinite_iff.mp h
    rcases Binary64.ofFloat_cases x with ⟨-, hn⟩ | ⟨-, hi | ⟨m, q, hf⟩⟩
    · cases hn.symm.trans hx
    · cases hi.symm.trans hx
    · exact isDecimal_floatText hf
  · rcases Binary64.ofFloat_cases x with ⟨hn, hx⟩ | ⟨hn, hx | ⟨m, q, hx⟩⟩
    · exact .inl ⟨hn, by rw [render, floatText_eq, hx]⟩
    · exact .inr ⟨hn, by rw [render, floatText_eq, hx]⟩
    · rw [Binary64.isFinite_iff.mpr ⟨_, m, q, hx⟩] at h
      cases h

/-- A zero with a sign, and an infinity. -/
theorem render_float_minusZero :
    let zero := Float.ofBits 0x8000000000000000
    let infinity := Float.ofBits 0x7FF0000000000000
    zero.isFinite = true ∧ IsDecimal true (float zero).render ∧ infinity.isFinite = false ∧
      (infinity.isNaN = true ∧ (float infinity).render = "NaN" ∨
        infinity.isNaN = false ∧ (float infinity).render = "inf") := by
  intro zero infinity
  have hz : zero.isFinite = true := by decide +kernel
  have hi : infinity.isFinite = false := by decide +kernel
  have hsign : Binary64.signBit zero = true ∧ Binary64.signBit infinity = false := by decide +kernel
  have hzero := (render_float zero).1 hz
  have hinfinity := (render_float infinity).2.1 hi
  rw [hsign.1] at hzero
  rw [hsign.2] at hinfinity
  exact ⟨hz, hzero, hi, hinfinity⟩

end Value

end ExampleTests
