import ExampleTests.Word

/-! Integers from words. The literal depends on the integer alone and not on
the word that holds it. -/

namespace ExampleTests.Value

theorem ofInt_toInt (n : Int64) : ofInt n.toInt = .integer n := by
  rw [ofInt, if_pos ⟨n.minValue_le_toInt, n.toInt_le⟩, Int64.ofInt_toInt]

theorem ofInt_natCast (n : Nat) :
    ofInt n = if n < 1 <<< 63 then .integer (Int64.ofNat n) else .raw n.repr := by
  have hm : Int64.minValue.toInt ≤ (n : Int) ∧ (n : Int) ≤ Int64.maxValue.toInt ↔ n < 1 <<< 63 := by
    rw [Int64.toInt_minValue, Int64.toInt_maxValue]
    omega
  by_cases h : n < 1 <<< 63
  · rw [ofInt, if_pos (hm.mpr h), if_pos h, Int64.ofInt_eq_ofNat]
  · rw [ofInt, if_neg (mt hm.mp h), if_neg h]
    rfl

theorem ofWord_eq_ofInt (w : Word) : ofWord w = ofInt w.toInt := by
  cases w with
  | int64 n => exact (ofInt_toInt n).symm
  | uint64 n =>
    rw [ofWord, Word.toInt, ofInt_natCast, ← UInt64.toInt64_ofNat', UInt64.ofNat_toNat]
  | int128 n => rfl
  | uint128 n => rw [ofWord, Word.toInt, ofInt_natCast]

end ExampleTests.Value
