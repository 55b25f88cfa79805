import ExampleTests.Value
import ExampleTests.Proofs.Decimal.Binary64
import ExampleTests.Proofs.Decimal.Layout

/-! The text of a float in one form. A whole number is displayed without a point and gets
its fraction afterwards, so the text is always that of the digits around a point. -/

namespace ExampleTests

namespace Decimal

theorem isDigits_shortest (tie : Tie) (m : Nat) (q : Int) : IsDigits (shortest tie m q).digits := by
  rw [shortest]
  split
  · exact Digits.isDigits_ofNat _ _
  · exact Digits.isDigits_ofNat _ _

/-- A number is displayed without a point if and only if it is whole. -/
theorem Digits.point_mem_plain_iff {d : Digits} (hd : IsDigits d.digits) :
    '.' ∈ d.plain ↔ d.isWhole = false := by
  have hno : ∀ {ds : List Char}, IsDigits ds → '.' ∉ ds := fun h hm => by cases h '.' hm
  by_cases hp : d.point ≤ 0
  · simp [plain, isWhole, hp]
  · by_cases hl : d.digits.length ≤ d.point.toNat
    · have hplain : d.plain = d.digits ++ List.replicate (d.point.toNat - d.digits.length) '0' := by
        simp [plain, hp, hl]
      have hwhole : d.isWhole = true := by simp [isWhole, hl, Int.lt_of_not_ge hp]
      rw [hplain, hwhole]
      exact iff_of_false (hno (hd.append (isDigits_zeros _))) (by simp)
    · simp [plain, isWhole, hp, hl]

end Decimal

namespace Value

/-- Floats are written without an exponent, a tie goes up. -/
def floatStyle : Decimal.Style := ⟨.up, fun _ => true⟩

/-- What is displayed without a point gets one, with a zero behind it. -/
theorem magnitude_eq (m : Nat) (q : Int) :
    let text := if m = 0 then ['0'] else (Decimal.shortest .up m q).plain
    floatStyle.magnitude m q = if '.' ∈ text then text else text ++ ['.', '0'] := by
  intro text
  by_cases hm : m = 0
  · simp [text, hm, Decimal.Style.magnitude]
  · have htext : text = (Decimal.shortest .up m q).plain := if_neg hm
    have hpoint := Decimal.Digits.point_mem_plain_iff (Decimal.isDigits_shortest .up m q)
    have hmagnitude : floatStyle.magnitude m q = (Decimal.shortest .up m q).positional := by
      rw [Decimal.Style.magnitude, if_neg hm]
      rfl
    rw [htext, hmagnitude, Decimal.Digits.positional]
    cases hw : (Decimal.shortest .up m q).isWhole with
    | true => rw [if_pos rfl, if_neg (by rw [hpoint, hw]; decide)]
    | false => rw [if_neg (by decide), if_pos (hpoint.mpr hw)]

theorem floatText_eq (x : Float) : floatText x =
    match Binary64.ofFloat x with
    | .nan => "NaN"
    | .infinite negative => if negative then "-inf" else "inf"
    | .finite negative m q => String.ofList (floatStyle.finite negative m q) := by
  have hword : (∀ negative m q, Binary64.ofFloat x ≠ .finite negative m q) →
      floatText x = displayText x := by
    intro h
    have hf : x.isFinite = false := Bool.eq_false_iff.mpr fun hf => by
      obtain ⟨negative, m, q, hx⟩ := Binary64.isFinite_iff.mp hf
      exact h negative m q hx
    rw [floatText, hf, Bool.false_and]
    rfl
  cases hx : Binary64.ofFloat x with
  | nan => rw [hword (by simp [hx]), displayText, hx]
  | infinite negative => rw [hword (by simp [hx]), displayText, hx]
  | finite negative m q =>
    have hf : x.isFinite = true := Binary64.isFinite_iff.mpr ⟨negative, m, q, hx⟩
    let text := if m = 0 then ['0'] else (Decimal.shortest .up m q).plain
    have hd : displayText x = String.ofList (if negative then '-' :: text else text) := by
      rw [displayText, hx]
    have hm : floatStyle.magnitude m q = if '.' ∈ text then text else text ++ ['.', '0'] :=
      magnitude_eq m q
    apply String.toList_inj.mp
    simp only [floatText, hd, hf, Decimal.Style.finite, hm]
    by_cases hp : '.' ∈ text
    · cases negative <;> simp [hp]
    · cases negative <;> simp [hp]

end Value

end ExampleTests
