import ExampleTests.Json.Read
import ExampleTests.Proofs.Word

/-! Integers as they are written. Decimal digits that fit are read to their
last one, whatever follows that is no part of a number. -/

namespace ExampleTests.Json

/-- What may follow a number: nothing that could go on with it. -/
def Delimited (rest : List Char) : Prop :=
  ∀ c ∈ rest.head?, c.isDigit = false ∧ c ≠ '.' ∧ isExponentMark c = false

theorem Delimited.startsWithDigit {rest : List Char} (h : Delimited rest) :
    startsWithDigit rest = false := by
  cases rest with
  | nil => rfl
  | cons c rest => exact (h c rfl).1

/-- Digits of a natural number, without a superfluous zero in front. -/
structure Numeral (ds : List Char) : Prop where
  nonempty : ds ≠ []
  digits : ∀ c ∈ ds, c.isDigit
  noLeadingZero : ds.head? = some '0' → ds = ['0']

theorem digitChar_eq_zero : ∀ d < 10, Nat.digitChar d = '0' → d = 0 := by decide

theorem head?_toDigits_eq_zero {n : Nat} (h : (Nat.toDigits 10 n).head? = some '0') : n = 0 := by
  -- The first digit is that of `n / 10` until only one is left.
  induction n using Nat.strongRecOn with
  | ind n ih =>
    by_cases hn : n < 10
    · rw [Nat.toDigits_of_lt_base hn] at h
      exact digitChar_eq_zero n hn (Option.some.inj h)
    · have hd : n / 10 = 0 := by
        refine ih (n / 10) (by omega) ?_
        rw [Nat.toDigits_of_base_le (by decide) (by omega)] at h
        cases hq : Nat.toDigits 10 (n / 10) with
        | nil => exact absurd hq Nat.toDigits_ne_nil
        | cons c cs => rwa [hq] at h
      omega

theorem numeral_repr (n : Nat) : Numeral n.repr.toList := by
  rw [Nat.toList_repr]
  refine ⟨Nat.toDigits_ne_nil, fun c hc => ?_, fun h => ?_⟩
  · exact Nat.isDigit_of_mem_toDigits (by decide) (by decide) hc
  · rw [head?_toDigits_eq_zero h, Nat.toDigits_zero]

theorem le_ofDigitChars (ds : List Char) (n : Nat) : n ≤ Nat.ofDigitChars 10 ds n := by
  induction ds generalizing n with
  | nil => exact Nat.le_of_eq Nat.ofDigitChars_nil.symm
  | cons c ds ih =>
    rw [Nat.ofDigitChars_cons]
    exact Nat.le_trans (by omega) (ih _)

theorem takeDigits_append {limit n : Nat} (taken : Nat) {ds rest : List Char}
    (hd : ∀ c ∈ ds, c.isDigit) (hn : Nat.ofDigitChars 10 ds n < limit)
    (hr : startsWithDigit rest = false) :
    takeDigits limit n taken (ds ++ rest) =
      (Nat.ofDigitChars 10 ds n, taken + ds.length, rest) := by
  induction ds generalizing n taken with
  | nil =>
    cases rest with
    | nil => rfl
    | cons c rest =>
      have hc : c.isDigit = false := hr
      simp [takeDigits, hc]
  | cons c ds ih =>
    rw [Nat.ofDigitChars_cons] at hn ⊢
    have hc : c.isDigit = true := hd c List.mem_cons_self
    have hl : 10 * n + digitValue c < limit := Nat.lt_of_le_of_lt (le_ofDigitChars ds _) hn
    have hi := ih (n := 10 * n + digitValue c) (taken + 1)
      (fun x hx => hd x (List.mem_cons_of_mem c hx)) hn
    have ht : taken + 1 + ds.length = taken + (ds.length + 1) := by omega
    simp only [List.cons_append, takeDigits, hc, hl, decide_true, Bool.and_self, if_true, hi, ht]
    rfl

theorem readAfterDigits_delimited (negative : Bool) (n : Nat) {rest : List Char}
    (h : Delimited rest) :
    readAfterDigits negative n rest = .ok (wholeNumber negative n, rest) := by
  cases rest with
  | nil => rfl
  | cons c rest =>
    obtain ⟨hd, hp, he⟩ := h c rfl
    simp [readAfterDigits, skipDigits, hd, hp, he]

/-- Digits that fit are taken before anything else is looked at. -/
theorem readNumber_whole (negative : Bool) {ds rest : List Char} (hd : Numeral ds)
    (hn : Nat.ofDigitChars 10 ds 0 < significandLimit) (hr : startsWithDigit rest = false) :
    readNumber negative (ds ++ rest) =
      readAfterDigits negative (Nat.ofDigitChars 10 ds 0) rest := by
  obtain ⟨hne, hdigits, hzero⟩ := hd
  cases ds with
  | nil => exact absurd rfl hne
  | cons c ds =>
    have hc : c.isDigit = true := hdigits c List.mem_cons_self
    by_cases h0 : c = '0'
    · subst c
      have hds : ds = [] := List.tail_eq_of_cons_eq (hzero rfl)
      subst hds
      simp only [List.cons_append, List.nil_append, readNumber, hr, Bool.false_eq_true, if_false]
      rfl
    · have ht := takeDigits_append 0 hdigits hn hr
      rw [List.cons_append] at ht ⊢
      rw [readNumber.eq_def]
      split
      · rename_i he; cases he
      · rename_i he; cases he; exact absurd rfl h0
      · rename_i he
        cases he
        simp only [hc, if_true, ht]

theorem readNumber_numeral (negative : Bool) {ds rest : List Char} (hd : Numeral ds)
    (hn : Nat.ofDigitChars 10 ds 0 < significandLimit) (hr : Delimited rest) :
    readNumber negative (ds ++ rest) =
      .ok (wholeNumber negative (Nat.ofDigitChars 10 ds 0), rest) := by
  rw [readNumber_whole negative hd hn hr.startsWithDigit]
  exact readAfterDigits_delimited negative _ hr

theorem readNumber_repr (negative : Bool) {n : Nat} {rest : List Char} (hn : n < significandLimit)
    (hr : Delimited rest) :
    readNumber negative (n.repr.toList ++ rest) = .ok (wholeNumber negative n, rest) := by
  have hv : Nat.ofDigitChars 10 n.repr.toList 0 = n := by
    rw [Nat.toList_repr, Nat.ofDigitChars_ten_toDigits]
  have hd := readNumber_numeral negative (numeral_repr n) (hv.symm ▸ hn) hr
  rwa [hv] at hd

theorem readFound_digit {c : Char} (hc : c.isDigit) (rest : List Char) :
    readFound (c :: rest) = readNumber false (c :: rest) := by
  rw [readFound.eq_def]
  split <;> simp_all

theorem wholeNumber_integer {n : Int} (lo : Int64.minValue.toInt ≤ n)
    (hi : n.toNat < significandLimit) :
    ∃ w : Word, wholeNumber (decide (n < 0)) n.natAbs = .integer w ∧ w.toInt = n := by
  have hlo := Int64.toInt_minValue ▸ lo
  simp only [significandLimit] at hi
  by_cases hn : n < 0
  · refine ⟨.int64 (Int64.ofInt n), ?_, ?_⟩
    · have hs : (decide (n.natAbs = 0) || decide (1 <<< 63 < n.natAbs)) = false := by
        rw [Bool.or_eq_false_iff, decide_eq_false_iff_not, decide_eq_false_iff_not]
        omega
      have hneg : -(n.natAbs : Int) = n := by omega
      rw [wholeNumber, decide_eq_true hn, hs, hneg]
      rfl
    · exact Int64.toInt_ofInt_of_le hlo (by omega)
  · refine ⟨.uint64 (UInt64.ofNat n.natAbs), by simp [wholeNumber, hn], ?_⟩
    rw [Word.toInt, UInt64.toNat_ofNat', Nat.mod_eq_of_lt (by omega)]
    omega

theorem repr_toList (n : Int) :
    n.repr.toList = (if n < 0 then ['-'] else []) ++ n.natAbs.repr.toList := by
  by_cases hn : n < 0
  · have ha : (-n).toNat = n.natAbs := by omega
    rw [Int.repr_eq_if, if_neg (by omega), if_pos hn, ha, String.toList_append]
    rfl
  · have ha : n.toNat = n.natAbs := by omega
    rw [Int.repr_eq_if, if_pos (by omega), if_neg hn, ha, List.nil_append]

theorem repr_opens_digit (n : Nat) : ∃ c cs, n.repr.toList = c :: cs ∧ c.isDigit := by
  obtain ⟨hne, hdigits, -⟩ := numeral_repr n
  cases hds : n.repr.toList with
  | nil => exact absurd hds hne
  | cons c ds => exact ⟨c, ds, rfl, hdigits c (hds ▸ List.mem_cons_self)⟩

theorem repr_opens (n : Int) : ∃ c cs, n.repr.toList = c :: cs ∧ (c = '-' ∨ c.isDigit) := by
  obtain ⟨c, cs, ht, hc⟩ := repr_opens_digit n.natAbs
  rw [repr_toList, ht]
  by_cases hn : n < 0
  · rw [if_pos hn]
    exact ⟨'-', _, rfl, .inl rfl⟩
  · rw [if_neg hn]
    exact ⟨c, cs, rfl, .inr hc⟩

/-- An integer that a word of 64 bits can hold is found as such a word. -/
theorem readFound_integer {n : Int} (lo : Int64.minValue.toInt ≤ n)
    (hi : n.toNat < significandLimit) :
    ∃ w : Word, w.toInt = n ∧ ∀ rest, Delimited rest →
      readFound (n.repr.toList ++ rest) = .ok (.integer w, rest) := by
  obtain ⟨w, hw, hv⟩ := wholeNumber_integer lo hi
  have hs : n.natAbs < significandLimit := by
    rw [Int64.toInt_minValue] at lo
    simp only [significandLimit] at hi ⊢
    omega
  refine ⟨w, hv, fun rest hr => ?_⟩
  have hd := fun negative => readNumber_repr negative hs hr
  rw [repr_toList, ← hw]
  by_cases hn : n < 0
  · rw [if_pos hn, decide_eq_true hn]
    exact hd true
  · obtain ⟨c, cs, ht, hc⟩ := repr_opens_digit n.natAbs
    have hf := hd false
    rw [if_neg hn, decide_eq_false hn, ← hf, List.nil_append, ht]
    exact readFound_digit hc _

end ExampleTests.Json
