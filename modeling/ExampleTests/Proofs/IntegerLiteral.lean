import ExampleTests.Mismatch
import ExampleTests.Proofs.Json.Integer
import Mathlib.Algebra.Group.Int.Defs

/-! Integers that a reader finds, in a word of any form. The form does not matter, and no
digit is lost: the literal has the decimal text of the integer, which is that of no other. -/

namespace ExampleTests

open Json (Digits Numeral minus)

namespace Word

/-- How wide a word is, and whether it has a sign. -/
inductive Form where
  | int64
  | uint64
  | int128
  | uint128

def form : Word → Form
  | .int64 _ => .int64
  | .uint64 _ => .uint64
  | .int128 _ => .int128
  | .uint128 _ => .uint128

/-- The integers for which a form is wide enough. -/
def Form.Holds (n : Int) : Form → Prop
  | int64 => -2 ^ 63 ≤ n ∧ n < 2 ^ 63
  | uint64 => 0 ≤ n ∧ n < 2 ^ 64
  | int128 => -2 ^ 127 ≤ n ∧ n < 2 ^ 127
  | uint128 => 0 ≤ n ∧ n < 2 ^ 128

theorem holds_toInt (w : Word) : w.form.Holds w.toInt := by
  cases w with
  | int64 n => exact ⟨n.le_toInt, n.toInt_lt⟩
  | uint64 n => exact ⟨Int.natCast_nonneg _, Int.ofNat_lt.mpr n.toNat_lt⟩
  | int128 n => exact ⟨n.le_toInt, n.toInt_lt⟩
  | uint128 n => exact ⟨Int.natCast_nonneg _, Int.ofNat_lt.mpr n.isLt⟩

theorem exists_word {f : Form} {n : Int} (h : f.Holds n) : ∃ w : Word, w.form = f ∧ w.toInt = n := by
  cases f with
  | int64 => exact ⟨.int64 (Int64.ofInt n), rfl, Int64.toInt_ofInt_of_le h.1 h.2⟩
  | uint64 =>
    obtain ⟨lo, hi⟩ := h
    refine ⟨.uint64 (UInt64.ofNat n.toNat), rfl, ?_⟩
    rw [toInt, UInt64.toNat_ofNat', Nat.mod_eq_of_lt (by omega)]
    omega
  | int128 =>
    exact ⟨.int128 (BitVec.ofInt 128 n), rfl, BitVec.toInt_ofInt_eq_self (by decide) h.1 h.2⟩
  | uint128 =>
    obtain ⟨lo, hi⟩ := h
    refine ⟨.uint128 (BitVec.ofNat 128 n.toNat), rfl, ?_⟩
    rw [toInt, BitVec.toNat_ofNat, Nat.mod_eq_of_lt (by omega)]
    omega

theorem holds_iff_exists_word {f : Form} {n : Int} :
    f.Holds n ↔ ∃ w : Word, w.form = f ∧ w.toInt = n := by
  refine ⟨exists_word, ?_⟩
  rintro ⟨w, rfl, rfl⟩
  exact w.holds_toInt

end Word

/-- The decimal text of an integer: the digits of its size with no superfluous zero, behind
a minus sign if it is below zero. -/
def IsNumeralOf (n : Int) (text : String) : Prop :=
  ∃ digits, text.toList = minus (n < 0) ++ digits ∧ Numeral digits ∧
    Nat.ofDigitChars 10 digits 0 = n.natAbs

theorem isNumeralOf_repr (n : Int) : IsNumeralOf n n.repr := by
  refine ⟨n.natAbs.repr.toList, Json.repr_eq_minus n, Json.numeral_repr _, ?_⟩
  rw [Nat.toList_repr, Nat.ofDigitChars_ten_toDigits]

theorem minus_append_inj {a b : Bool} {ds es : List Char} (hd : Digits ds) (he : Digits es)
    (h : minus a ++ ds = minus b ++ es) : a = b ∧ ds = es := by
  -- A minus sign on one side only would be a digit of the other.
  have hno : ∀ {cs ds : List Char}, Digits ds → '-' :: cs ≠ ds := by
    rintro cs _ hd rfl
    exact absurd (hd.digits '-' List.mem_cons_self) (by decide)
  cases a with
  | false =>
    cases b with
    | false => exact ⟨rfl, h⟩
    | true => exact absurd h.symm (hno hd)
  | true =>
    cases b with
    | false => exact absurd h (hno he)
    | true => exact ⟨rfl, List.tail_eq_of_cons_eq h⟩

theorem IsNumeralOf.unique {m n : Int} {text : String} (hm : IsNumeralOf m text)
    (hn : IsNumeralOf n text) : m = n := by
  obtain ⟨ds, ht, hd, hsize⟩ := hm
  obtain ⟨es, ht', he, hsize'⟩ := hn
  obtain ⟨hsign, rfl⟩ := minus_append_inj hd.toDigits he.toDigits (ht.symm.trans ht')
  rw [decide_eq_decide] at hsign
  omega

namespace Value

theorem render_ofInt_eq_iff {m n : Int} : (ofInt m).render = (ofInt n).render ↔ m = n := by
  refine ⟨fun h => ?_, fun h => h ▸ rfl⟩
  rw [Json.render_ofInt, Json.render_ofInt] at h
  exact (isNumeralOf_repr m).unique (h ▸ isNumeralOf_repr n)

theorem ofFound_integer (w : Word) : ofFound (.integer w) = .ok (ofInt w.toInt) := by
  rw [← ofWord_eq_ofInt]
  rfl

theorem ofInt_cases (n : Int) :
    Word.Form.int64.Holds n ∧ (∃ k : Int64, ofInt n = .integer k ∧ k.toInt = n) ∨
      ¬Word.Form.int64.Holds n ∧ ofInt n = .raw n.repr := by
  have hrange : Int64.minValue.toInt ≤ n ∧ n ≤ Int64.maxValue.toInt ↔ Word.Form.int64.Holds n := by
    rw [Int64.toInt_minValue, Int64.toInt_maxValue, Word.Form.Holds]
    omega
  rw [ofInt]
  by_cases h : Word.Form.int64.Holds n
  · exact .inl ⟨h, Int64.ofInt n, if_pos (hrange.mpr h), Int64.toInt_ofInt_of_le h.1 h.2⟩
  · exact .inr ⟨h, if_neg (mt hrange.mp h)⟩

/-- All words of one integer, whatever their form, are read as one literal, which is an
integer if it fits in 64 bits with a sign and bare text otherwise. The text of the literal
is the decimal one of the integer, and words of other integers have other texts. -/
theorem ofFound_integer_iff (n : Int) :
    (∀ f : Word.Form, f.Holds n ↔ ∃ w : Word, w.form = f ∧ w.toInt = n) ∧
    ∃ v : Value,
      (∀ w : Word, ofFound (.integer w) = .ok v ↔ w.toInt = n) ∧
      ((∃ k : Int64, v = .integer k ∧ k.toInt = n) ↔ -2 ^ 63 ≤ n ∧ n < 2 ^ 63) ∧
      ((∃ text, v = .raw text) ↔ ¬(-2 ^ 63 ≤ n ∧ n < 2 ^ 63)) ∧
      IsNumeralOf n v.render ∧
      ∀ w : Word, (ofFound (.integer w)).map render = .ok v.render ↔ w.toInt = n := by
  have hrender : ∀ w : Word, (ofFound (.integer w)).map render = .ok (ofInt n).render ↔
      w.toInt = n := by
    intro w
    rw [ofFound_integer, Except.map, Except.ok.injEq, render_ofInt_eq_iff]
  have hvalue : ∀ w : Word, ofFound (.integer w) = .ok (ofInt n) ↔ w.toInt = n := by
    intro w
    constructor
    · intro h
      exact (hrender w).mp (by rw [h, Except.map])
    · rintro rfl
      exact ofFound_integer w
  refine ⟨fun f => Word.holds_iff_exists_word, ofInt n, hvalue, ?_, ?_, ?_, hrender⟩
  · rcases ofInt_cases n with ⟨h, hk⟩ | ⟨h, hr⟩
    · exact iff_of_true hk h
    · rw [hr]
      exact iff_of_false (by simp) h
  · rcases ofInt_cases n with ⟨h, k, hk, -⟩ | ⟨h, hr⟩
    · rw [hk]
      exact iff_of_false (by simp) (not_not_intro h)
    · exact iff_of_true ⟨n.repr, hr⟩ h
  · rw [Json.render_ofInt]
    exact isNumeralOf_repr n

/-- The first integer that has no word of 64 bits with a sign. -/
example : ofFound (.integer (.uint64 9223372036854775808)) = .ok (.raw "9223372036854775808") := by
  rfl

end Value

end ExampleTests
