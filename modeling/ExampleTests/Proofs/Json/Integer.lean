import ExampleTests.Proofs.FloatText
import ExampleTests.Proofs.Json.Record

/-! Integers of the grammar. Those that a word of 64 bits can hold, with a sign or
without, keep their digits; minus zero and the others become floats, or are out of
the range of floats. -/

namespace ExampleTests.Json

structure IntegerText where
  negative : Bool
  digits : List Char
  numeral : Numeral digits

namespace IntegerText

def literal (i : IntegerText) : String := String.ofList (minus i.negative ++ i.digits)

def size (i : IntegerText) : Nat := Nat.ofDigitChars 10 i.digits 0

def value (i : IntegerText) : Int := if i.negative then -i.size else i.size

/-- The integer fits in 64 bits, and is not zero with a sign. -/
structure Fits (i : IntegerText) : Prop where
  lower : Int64.minValue.toInt ≤ i.value
  upper : i.value < UInt64.size
  notMinusZero : i.literal ≠ "-0"

end IntegerText

section Digits

theorem digitChar_digitValue {c : Char} (hc : c.isDigit) :
    digitValue c < 10 ∧ Nat.digitChar (digitValue c) = c := by
  have hall : ∀ n < 10, Nat.digitChar n = Char.ofNat (48 + n) := by decide
  have hb : 48 ≤ c.toNat ∧ c.toNat ≤ 57 := by
    simpa [Char.isDigit, UInt32.le_iff_toNat_le] using hc
  have hv : digitValue c = c.toNat - 48 := rfl
  refine ⟨by omega, ?_⟩
  rw [hall _ (by omega), show 48 + digitValue c = c.toNat by omega, Char.ofNat_toNat]

theorem toDigits_append {ds : List Char} (hd : ∀ c ∈ ds, c.isDigit) {n : Nat} (hn : 0 < n) :
    Nat.toDigits 10 n ++ ds = Nat.toDigits 10 (Nat.ofDigitChars 10 ds n) := by
  induction ds generalizing n with
  | nil => rw [List.append_nil, Nat.ofDigitChars_nil]
  | cons c ds ih =>
    obtain ⟨hlt, hc⟩ := digitChar_digitValue (hd c List.mem_cons_self)
    have hd := fun x hx => hd x (List.mem_cons_of_mem c hx)
    calc Nat.toDigits 10 n ++ c :: ds
        = Nat.toDigits 10 n ++ Nat.toDigits 10 (digitValue c) ++ ds := by
          rw [Nat.toDigits_of_lt_base hlt, hc, List.append_assoc]
          rfl
      _ = Nat.toDigits 10 (10 * n + digitValue c) ++ ds := by
          rw [Nat.toDigits_append_toDigits (by decide) hn hlt]
      _ = Nat.toDigits 10 (Nat.ofDigitChars 10 (c :: ds) n) := by
          rw [ih hd (by omega), Nat.ofDigitChars_cons]
          rfl

/-- Digits without a superfluous zero are those of their number. -/
theorem Numeral.toDigits_value {ds : List Char} (h : Numeral ds) :
    Nat.toDigits 10 (Nat.ofDigitChars 10 ds 0) = ds := by
  obtain ⟨c, cs, rfl, hc⟩ := h.toDigits.opens
  by_cases h0 : c = '0'
  · subst h0
    obtain rfl : cs = [] := List.tail_eq_of_cons_eq (h.noLeadingZero rfl)
    rfl
  · obtain ⟨hlt, hv⟩ := digitChar_digitValue hc
    have hpos : 0 < digitValue c := by
      refine Nat.pos_of_ne_zero fun hz => h0 ?_
      rw [← hv, hz]
      rfl
    have hcs := fun x hx => h.digits x (List.mem_cons_of_mem c hx)
    have ht := toDigits_append hcs hpos
    rw [Nat.toDigits_of_lt_base hlt, hv] at ht
    rw [Nat.ofDigitChars_cons, Nat.mul_zero, Nat.zero_add]
    exact ht.symm

end Digits

namespace IntegerText

theorem toList_literal (i : IntegerText) : i.literal.toList = minus i.negative ++ i.digits :=
  String.toList_ofList

theorem toList_repr_size (i : IntegerText) : i.size.repr.toList = i.digits := by
  rw [Nat.toList_repr, size, i.numeral.toDigits_value]

theorem repr_value {i : IntegerText} (h : i.literal ≠ "-0") : i.value.repr = i.literal := by
  apply String.toList_inj.mp
  rw [repr_eq_minus, toList_literal]
  cases hn : i.negative with
  | false =>
    have hv : i.value = i.size := by simp [value, hn]
    have hs : decide (i.value < 0) = false := decide_eq_false (by omega)
    rw [hs, hv, Int.natAbs_natCast, toList_repr_size]
  | true =>
    have hv : i.value = -i.size := by simp [value, hn]
    have hpos : i.size ≠ 0 := by
      intro hz
      refine h (String.toList_inj.mp ?_)
      rw [toList_literal, hn, ← toList_repr_size, hz]
      rfl
    have hs : decide (i.value < 0) = true := decide_eq_true (by omega)
    rw [hs, hv, Int.natAbs_neg, Int.natAbs_natCast, toList_repr_size]

end IntegerText

section Reading

/-- Digits that are all taken make a number below the limit. -/
theorem takeDigits_all {limit n taken m k : Nat} {ds : List Char} (hn : n < limit)
    (h : takeDigits limit n taken ds = (m, k, [])) : m = Nat.ofDigitChars 10 ds n ∧ m < limit := by
  induction ds generalizing n taken with
  | nil =>
    obtain ⟨rfl, -⟩ := Prod.mk.inj h
    exact ⟨Nat.ofDigitChars_nil.symm, hn⟩
  | cons c ds ih =>
    rw [takeDigits] at h
    by_cases hc : (c.isDigit && decide (10 * n + digitValue c < limit)) = true
    · rw [if_pos hc] at h
      rw [Nat.ofDigitChars_cons]
      exact ih (of_decide_eq_true (Bool.and_eq_true_iff.mp hc).2) h
    · rw [if_neg hc] at h
      cases h

/-- A reader that goes on to a float, unless that is too large. -/
def FloatOrTooLarge (result : Except Fault (Found × List Char)) : Prop :=
  (∃ x, result = .ok (.float x, [])) ∨ ∃ fault, result = .error fault ∧ fault.reason = .numberOutOfRange

theorem finishFloat_floatOrTooLarge (negative : Bool) (significand : Nat) (exponent : Int) :
    FloatOrTooLarge (finishFloat negative significand exponent []) := by
  rw [finishFloat]
  cases scaleFloat 3 (UInt64.ofNat significand).toFloat exponent with
  | some x => exact .inl ⟨_, rfl⟩
  | none => exact .inr ⟨_, rfl, rfl⟩

theorem readNumber_large (negative : Bool) {ds : List Char} (hd : Numeral ds)
    (hl : significandLimit ≤ Nat.ofDigitChars 10 ds 0) :
    FloatOrTooLarge (readNumber negative ds) := by
  obtain ⟨m, k, more, hm, ht⟩ := takeDigits_digits significandLimit hd.digits 0 0
  have ht := ht [] rfl
  rw [List.append_nil, List.append_nil] at ht
  obtain ⟨d, more, rfl⟩ : ∃ d rest, more = d :: rest := by
    cases more with
    | nil =>
      obtain ⟨rfl, hlt⟩ := takeDigits_all (by decide) ht
      exact absurd hlt (Nat.not_lt.mpr hl)
    | cons d more => exact ⟨d, more, rfl⟩
  -- The digits that are left make it a float of a higher exponent.
  have hafter : readAfterDigits negative m (d :: more) =
      finishFloat negative m (d :: more).length [] := by
    have hw := takeWhile_digits_append hm (show startsWithDigit [] = false from rfl)
    have hk := skipDigits_append hm (show startsWithDigit [] = false from rfl)
    rw [List.append_nil] at hw hk
    simp only [readAfterDigits, hw, hk]
    rfl
  have hread : readNumber negative ds = readAfterDigits negative m (d :: more) := by
    obtain ⟨c, cs, rfl, hc⟩ := hd.toDigits.opens
    rw [readNumber.eq_def]
    split
    case h_1 h => cases h
    case h_2 h =>
      cases h
      obtain rfl := List.tail_eq_of_cons_eq (hd.noLeadingZero rfl)
      exact absurd hl (by decide)
    case h_3 h =>
      cases h
      simp only [hc, if_true, ht]
  rw [hread, hafter]
  exact finishFloat_floatOrTooLarge negative m _

theorem IntegerText.minusZero_or_large {i : IntegerText} (h : ¬i.Fits)
    (hl : i.size < significandLimit) : i.negative = true ∧ (i.size = 0 ∨ 1 <<< 63 < i.size) := by
  have hmin := Int64.toInt_minValue
  have hsize : UInt64.size = significandLimit := rfl
  cases hn : i.negative with
  | false =>
    have hv : i.value = i.size := by simp [value, hn]
    refine absurd ⟨by omega, by omega, fun hz => ?_⟩ h
    have hz := congrArg String.toList hz
    rw [toList_literal, hn] at hz
    have hz : i.digits = ['-', '0'] := hz
    have hdigit := i.numeral.digits '-' (by rw [hz]; exact List.mem_cons_self)
    cases hdigit
  | true =>
    have hv : i.value = -i.size := by simp [value, hn]
    refine ⟨rfl, Classical.byContradiction fun hs => ?_⟩
    refine h ⟨by omega, by omega, fun hz => hs (.inl ?_)⟩
    have hz := congrArg String.toList hz
    rw [toList_literal, hn] at hz
    have hz : i.digits = ['0'] := List.tail_eq_of_cons_eq hz
    rw [size, hz]
    rfl

theorem IntegerText.readFound_unfit {i : IntegerText} (h : ¬i.Fits) :
    FloatOrTooLarge (readFound i.literal.toList) := by
  have hr := readFound_minus i.negative i.numeral.toDigits []
  rw [List.append_nil] at hr
  rw [toList_literal, hr]
  by_cases hl : i.size < significandLimit
  · have hn := readNumber_numeral i.negative i.numeral hl (show Delimited [] from nofun)
    rw [List.append_nil] at hn
    obtain ⟨hneg, hs⟩ := minusZero_or_large h hl
    have hs : (decide (i.size = 0) || decide (1 <<< 63 < i.size)) = true := by simpa using hs
    refine .inl ⟨-(UInt64.ofNat i.size).toFloat, hn.trans ?_⟩
    rw [hneg]
    exact congrArg (fun found => Except.ok (found, [])) (if_pos hs)
  · exact readNumber_large i.negative i.numeral (Nat.not_lt.mp hl)

theorem IntegerText.opens (i : IntegerText) :
    ∃ c cs, i.literal.toList = c :: cs ∧ (c = '-' ∨ c.isDigit) := by
  rw [toList_literal]
  exact (i.numeral.numberText i.negative).opens

theorem parseValue_float {literal : String} {c : Char} {cs : List Char}
    (ht : literal.toList = c :: cs) (hc : c = '-' ∨ c.isDigit)
    (h : FloatOrTooLarge (readFound literal.toList)) :
    (∃ x, parseValue literal = .ok (.float x)) ∨
      ∃ e, parseValue literal = .error e ∧ e.reason = .numberOutOfRange := by
  have hs := numberStart hc
  have hv := readValue_scalar hs.notBlank hs.notBracket hs.notBrace cs
  rw [← ht] at hv
  rcases h with ⟨x, hx⟩ | ⟨fault, hf, hreason⟩
  · refine .inl ⟨x, ?_⟩
    rw [parseValue, readAll, hv, hx]
    rfl
  · refine .inr ⟨Error.ofFault literal.toList fault, ?_, hreason⟩
    rw [parseValue, readAll, hv, hf]
    rfl

end Reading

section Floats

theorem point_mem_positional (d : Decimal.Digits) : '.' ∈ d.positional := by
  rw [Decimal.Digits.positional]
  cases hw : d.isWhole with
  | true => simp
  | false =>
    have hwhole : 0 < d.point → ¬d.digits.length ≤ d.point.toNat := by
      simpa [Decimal.Digits.isWhole] using hw
    by_cases hp : d.point ≤ 0
    · simp [Decimal.Digits.plain, hp]
    · simp [Decimal.Digits.plain, hp, hwhole (Int.lt_of_not_ge hp)]

/-- The text of a float has a point in it, or is a word. -/
theorem floatText_not_integer (x : Float) :
    ∃ c ∈ (Value.floatText x).toList, c ≠ '-' ∧ c.isDigit = false := by
  rw [Value.floatText_eq]
  cases Binary64.ofFloat x with
  | nan => exact ⟨'N', by decide⟩
  | infinite negative =>
    cases negative with
    | true => exact ⟨'i', by decide⟩
    | false => exact ⟨'i', by decide⟩
  | finite negative m q =>
    have hm : '.' ∈ Value.floatStyle.magnitude m q := by
      by_cases h0 : m = 0
      · simp [Decimal.Style.magnitude, h0]
      · simp [Decimal.Style.magnitude, h0, Value.floatStyle, point_mem_positional]
    refine ⟨'.', ?_, by decide⟩
    rw [String.toList_ofList]
    cases negative with
    | true => exact List.mem_cons_of_mem _ hm
    | false => exact hm

theorem IntegerText.render_float_ne (i : IntegerText) (x : Float) :
    (Value.float x).render ≠ i.literal := by
  intro h
  obtain ⟨c, hc, hm, hd⟩ := floatText_not_integer x
  rw [show Value.floatText x = i.literal from h, toList_literal] at hc
  rcases List.mem_append.mp hc with hc | hc
  · cases hn : i.negative <;> simp [minus, hn] at hc
    exact hm hc
  · rw [i.numeral.digits c hc] at hd
    cases hd

end Floats

theorem parseValue_repr {n : Int} (lo : Int64.minValue.toInt ≤ n) (hi : n < UInt64.size) :
    parseValue n.repr = .ok (.ofInt n) := by
  have hsize : UInt64.size = significandLimit := rfl
  have hpos : 0 < significandLimit := by decide
  obtain ⟨w, hw, hread⟩ := readFound_integer lo (by omega)
  obtain ⟨c, cs, ht, hc⟩ := repr_opens n
  have hread := hread [] nofun
  have hs := numberStart hc
  have hv := readValue_scalar hs.notBlank hs.notBracket hs.notBrace cs
  rw [List.append_nil] at hread
  rw [← ht, hread] at hv
  rw [parseValue, readAll, hv, ← hw, ← Value.ofWord_eq_ofInt]
  rfl

theorem render_ofInt (n : Int) : (Value.ofInt n).render = n.repr := by
  rw [Value.ofInt]
  by_cases h : Int64.minValue.toInt ≤ n ∧ n ≤ Int64.maxValue.toInt
  · rw [if_pos h, Value.render]
    rw [Int64.toInt_minValue, Int64.toInt_maxValue] at h
    rw [Int64.toInt_ofInt_of_le h.1 (by omega)]
  · rw [if_neg h]
    rfl

/-- An integer that fits keeps its digits; any other is a float of another text, or is
out of range. Numbers of a spec are read as they are on their own. -/
theorem parseValue_integerText (i : IntegerText) :
    (i.Fits → parseValue i.literal = .ok (.ofInt i.value) ∧
      (Value.ofInt i.value).render = i.literal) ∧
    (¬i.Fits → (∃ x, parseValue i.literal = .ok (.float x) ∧ (Value.float x).render ≠ i.literal) ∨
      ∃ e, parseValue i.literal = .error e ∧ e.reason = .numberOutOfRange) ∧
    ∀ t text, SpellsSource t text → (SourceFormat.json.parseSpec (String.ofList text)).toOption =
      t.spec? fun literal => (parseValue literal).toOption := by
  refine ⟨fun h => ?_, fun h => ?_, fun t text ht => toOption_parseSpec ht⟩
  · have hr := IntegerText.repr_value h.notMinusZero
    have hp := parseValue_repr h.lower h.upper
    rw [hr] at hp
    exact ⟨hp, (render_ofInt i.value).trans hr⟩
  · obtain ⟨c, cs, ht, hc⟩ := i.opens
    refine (parseValue_float ht hc (IntegerText.readFound_unfit h)).imp_left ?_
    rintro ⟨x, hx⟩
    exact ⟨x, hx, i.render_float_ne x⟩

/-- The last integer that fits and the first above it, which is also a return of a spec. -/
theorem parseValue_integerText_two_pow_64 :
    let last := "18446744073709551615"
    let next := "18446744073709551616"
    parseValue last = .ok (.raw last) ∧ (Value.raw last).render = last ∧
      ((∃ x, parseValue next = .ok (.float x) ∧ (Value.float x).render ≠ next) ∨
        ∃ e, parseValue next = .error e ∧ e.reason = .numberOutOfRange) ∧
      (SourceFormat.json.parseSpec
          "\x7b\"examples\":[\x7b\"return\":18446744073709551616\x7d]\x7d").toOption =
        (parseValue next).toOption.map fun v => { examples := some [{ returns := some v }] } := by
  intro last next
  let fitting : IntegerText :=
    ⟨false, last.toList, by decide, List.all_eq_true.mp (by decide), by decide⟩
  let large : IntegerText :=
    ⟨false, next.toList, by decide, List.all_eq_true.mp (by decide), by decide⟩
  have hlast : fitting.literal = last := String.ofList_toList
  have hnext : large.literal = next := String.ofList_toList
  have hfits : fitting.Fits := ⟨by decide, by decide, by decide⟩
  have hvalue : Value.ofInt fitting.value = .raw last := by
    rw [Value.ofInt, if_neg (by decide), IntegerText.repr_value hfits.notMinusZero, hlast]
  have hlarge : ¬large.Fits := fun h => absurd h.upper (by decide)
  have hnone : Blanks [] := by decide
  have hnumber : Spells (.number next) next.toList := .number (large.numeral.numberText false)
  obtain ⟨hread, hrender⟩ := (parseValue_integerText fitting).1 hfits
  have hfloat := (parseValue_integerText large).2.1 hlarge
  have hexample : Spells (.object [("return", .number next)]) _ :=
    .object (.next hnone hnone (.plain (by decide)) hnone hnone hnumber (.done hnone))
  have htext : SpellsSource (.object [("examples", .array [.object [("return", .number next)]])]) _ :=
    .intro hnone (.object (.next hnone hnone (.plain (by decide)) hnone hnone
      (.array (.next hnone hnone hexample (.done hnone))) (.done hnone))) hnone
  have hspec := (parseValue_integerText large).2.2 _ _ htext
  have hmeaning : ∀ read : String → Option Value,
      Tree.spec? read (.object [("examples", .array [.object [("return", .number next)]])]) =
        (read next).map fun v => { examples := some [{ returns := some v }] } := by
    intro read
    cases h : read next <;>
      simp [Tree.spec?, Tree.example?, Tree.record?, Tree.parts?, Tree.valuesAt, Tree.readOnce?,
        Tree.optional?, Tree.list?, Tree.value?, h]
  rw [hlast, hvalue] at hread hrender
  rw [hnext] at hfloat
  rw [hmeaning] at hspec
  refine ⟨hread, hrender, hfloat, Eq.trans ?_ hspec⟩
  refine congrArg (fun source => (SourceFormat.json.parseSpec source).toOption) ?_
  decide

/-- One above the words of 64 bits the digits are not those of the literal. -/
theorem two_pow_64_is_rounded :
    let literal := "18446744073709551616"
    parseValue literal ≠ .ok (.raw literal) ∧
      (parseValue literal).toOption.map Value.render = some "18446744073709552000.0" := by
  intro literal
  have hr : (parseValue literal).toOption.map Value.render = some "18446744073709552000.0" := by
    decide +kernel
  refine ⟨fun h => ?_, hr⟩
  rw [h] at hr
  exact absurd hr (by decide)

end ExampleTests.Json
