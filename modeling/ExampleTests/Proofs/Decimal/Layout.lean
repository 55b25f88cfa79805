import ExampleTests.Decimal.Style
import Mathlib.Algebra.Order.Field.Power
import Mathlib.Algebra.Order.Field.Rat
import Mathlib.Data.List.Basic
import Mathlib.Tactic.NormNum
import Mathlib.Tactic.Ring

/-! The number that decimal text without an exponent stands for. Wherever the point
falls, it is that of the digits at their place. -/

namespace ExampleTests.Decimal

def IsDigits (ds : List Char) : Prop := ∀ c ∈ ds, c.isDigit = true

theorem IsDigits.append {ds es : List Char} (hd : IsDigits ds) (he : IsDigits es) :
    IsDigits (ds ++ es) := by
  intro c hc
  rcases List.mem_append.mp hc with hc | hc
  · exact hd c hc
  · exact he c hc

theorem isDigits_zeros (n : Nat) : IsDigits (List.replicate n '0') := by
  intro c hc
  rw [List.eq_of_mem_replicate hc]
  rfl

theorem isDigits_toDigits (n : Nat) : IsDigits (Nat.toDigits 10 n) := fun _ hc =>
  Nat.isDigit_of_mem_toDigits (by decide) (by decide) hc

/-- The number with these digits in front of its point and behind it. -/
def pointValue (whole fraction : List Char) : ℚ :=
  Nat.ofDigitChars 10 (whole ++ fraction) 0 / 10 ^ fraction.length

/-- Text with a digit on each side of its point. -/
structure IsPointed (text whole fraction : List Char) : Prop where
  text_eq : text = whole ++ '.' :: fraction
  whole_ne : whole ≠ []
  fraction_ne : fraction ≠ []
  whole_digits : IsDigits whole
  fraction_digits : IsDigits fraction

/-- The number `0.d₁d₂… * 10 ^ point`. -/
def Digits.value (d : Digits) : ℚ :=
  Nat.ofDigitChars 10 d.digits 0 * 10 ^ (d.point - d.digits.length)

/-- Where the point falls: its parts are the digits, with zeros behind them up to the point
and one more behind it. -/
theorem Digits.positional_parts (d : Digits) (hne : d.digits ≠ []) (hd : IsDigits d.digits) :
    ∃ (whole fraction : List Char) (zeros : Nat), IsPointed d.positional whole fraction ∧
      (d.digits.head? ≠ some '0' → whole.head? = some '0' → whole = ['0']) ∧
      Nat.ofDigitChars 10 (whole ++ fraction) 0 = Nat.ofDigitChars 10 d.digits 0 * 10 ^ zeros ∧
      (zeros : Int) - fraction.length = d.point - d.digits.length ∧
      (zeros = 0 ∨ (d.digits.length : Int) + zeros = d.point + 1) := by
  have hlen := List.length_pos_iff.mpr hne
  by_cases hp : d.point ≤ 0
  · obtain ⟨n, hn⟩ : ∃ n : Nat, d.point = -n := ⟨(-d.point).toNat, by omega⟩
    refine ⟨['0'], List.replicate n '0' ++ d.digits, 0, ⟨?_, by simp, by simp [hne],
      isDigits_zeros 1, (isDigits_zeros n).append hd⟩, fun _ _ => rfl, ?_, ?_, .inl rfl⟩
    · have ht : (-d.point).toNat = n := by omega
      simp [positional, plain, isWhole, hp, ht]
    · rw [← List.append_assoc, Nat.ofDigitChars_append]
      simp [Nat.ofDigitChars_cons, Nat.ofDigitChars_replicate_zero]
    · rw [List.length_append, List.length_replicate]
      omega
  · obtain ⟨n, hn⟩ : ∃ n : Nat, d.point = n := ⟨d.point.toNat, by omega⟩
    have ht : d.point.toNat = n := by omega
    by_cases hl : d.digits.length ≤ n
    · obtain ⟨z, hz⟩ := Nat.exists_eq_add_of_le hl
      refine ⟨d.digits ++ List.replicate z '0', ['0'], z + 1, ⟨?_, by simp [hne], by simp,
        hd.append (isDigits_zeros z), isDigits_zeros 1⟩, fun h0 h => absurd h ?_, ?_, ?_, .inr ?_⟩
      · have hs : n - d.digits.length = z := by omega
        simp [positional, plain, isWhole, hp, ht, hl, hs]
      · rwa [List.head?_append_of_ne_nil _ hne]
      · rw [Nat.ofDigitChars_append, Nat.ofDigitChars_append, Nat.ofDigitChars_replicate_zero,
          Nat.pow_succ]
        simp only [Nat.ofDigitChars_cons, Nat.ofDigitChars_nil, Nat.sub_self]
        ring
      · rw [List.length_singleton]
        omega
      · omega
    · have hn0 : n ≠ 0 := by omega
      refine ⟨d.digits.take n, d.digits.drop n, 0, ⟨?_, ?_, ?_,
        fun c hc => hd c (List.mem_of_mem_take hc), fun c hc => hd c (List.mem_of_mem_drop hc)⟩,
        fun h0 h => absurd h ?_, ?_, ?_, .inl rfl⟩
      · simp [positional, plain, isWhole, hp, ht, hl]
      · simp [hn0, hne]
      · simpa using hl
      · rwa [List.head?_take, if_neg hn0]
      · rw [List.take_append_drop, Nat.pow_zero, Nat.mul_one]
      · rw [List.length_drop]
        omega

theorem Digits.positional_isPointed (d : Digits) (hne : d.digits ≠ []) (hd : IsDigits d.digits) :
    ∃ whole fraction, IsPointed d.positional whole fraction ∧ pointValue whole fraction = d.value := by
  obtain ⟨whole, fraction, zeros, hp, -, hdigits, hplace, -⟩ := d.positional_parts hne hd
  refine ⟨whole, fraction, hp, ?_⟩
  rw [pointValue, value, hdigits, ← hplace, zpow_sub₀ (by norm_num), zpow_natCast, zpow_natCast]
  push_cast
  rw [mul_div_assoc]

theorem exists_zeros (ds : List Char) :
    ∃ z, ds = (ds.reverse.dropWhile (· == '0')).reverse ++ List.replicate z '0' := by
  have hsplit := List.takeWhile_append_dropWhile (p := (· == '0')) (l := ds.reverse)
  have hzeros : ds.reverse.takeWhile (· == '0') =
      List.replicate (ds.reverse.takeWhile (· == '0')).length '0' := by
    refine List.eq_replicate_of_mem fun c hc => ?_
    have ha := List.all_eq_true.mp (List.all_takeWhile (p := (· == '0')) (l := ds.reverse)) c hc
    exact beq_iff_eq.mp ha
  refine ⟨(ds.reverse.takeWhile (· == '0')).length, ?_⟩
  rw [← List.reverse_replicate, ← List.reverse_append, ← hzeros, hsplit, List.reverse_reverse]

/-- The digits of a number are left without the zeros at its end. -/
theorem Digits.exists_toDigits_eq (c : Nat) (place : Int) :
    ∃ z, Nat.toDigits 10 c = (Digits.ofNat c place).digits ++ List.replicate z '0' :=
  exists_zeros (Nat.toDigits 10 c)

theorem Digits.isDigits_ofNat (c : Nat) (place : Int) : IsDigits (Digits.ofNat c place).digits := by
  obtain ⟨z, hz⟩ := exists_toDigits_eq c place
  exact fun x hx => isDigits_toDigits c x (hz ▸ List.mem_append_left _ hx)

/-- The digits of a number without the zeros at its end, which the place makes up for. -/
theorem Digits.ofNat_parts {c : Nat} (hc : 0 < c) (place : Int) :
    (Digits.ofNat c place).digits ≠ [] ∧ IsDigits (Digits.ofNat c place).digits ∧
      ∃ zeros : Nat,
        Nat.toDigits 10 c = (Digits.ofNat c place).digits ++ List.replicate zeros '0' ∧
        Nat.ofDigitChars 10 (Digits.ofNat c place).digits 0 * 10 ^ zeros = c ∧
        (Digits.ofNat c place).point - (Digits.ofNat c place).digits.length = place + zeros := by
  obtain ⟨z, hz⟩ := exists_toDigits_eq c place
  have hv : Nat.ofDigitChars 10 (Digits.ofNat c place).digits 0 * 10 ^ z = c := by
    rw [Nat.mul_comm, ← Nat.ofDigitChars_replicate_zero, ← Nat.ofDigitChars_append, ← hz,
      Nat.ofDigitChars_ten_toDigits]
  refine ⟨?_, isDigits_ofNat c place, z, hz, hv, ?_⟩
  · intro he
    rw [he, Nat.ofDigitChars_nil, Nat.zero_mul] at hv
    omega
  · have hpoint : (Digits.ofNat c place).point = (Nat.toDigits 10 c).length + place := rfl
    rw [hpoint, hz, List.length_append, List.length_replicate]
    omega

/-- Zeros at the end count for powers of ten, so they may be left out. -/
theorem Digits.ofNat_value {c : Nat} (hc : 0 < c) (place : Int) :
    (Digits.ofNat c place).digits ≠ [] ∧ IsDigits (Digits.ofNat c place).digits ∧
      (Digits.ofNat c place).value = c * 10 ^ place := by
  obtain ⟨hne, hd, z, -, hv, hexp⟩ := ofNat_parts hc place
  have hq : Nat.ofDigitChars 10 (Digits.ofNat c place).digits 0 * (10 : ℚ) ^ z = c := by
    exact_mod_cast hv
  refine ⟨hne, hd, ?_⟩
  rw [value, hexp, zpow_add₀ (by norm_num), zpow_natCast, ← hq]
  ring

end ExampleTests.Decimal
