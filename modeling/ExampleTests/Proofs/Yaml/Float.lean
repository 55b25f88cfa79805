import ExampleTests.Proofs.Decimal.Arithmetic
import ExampleTests.Proofs.FloatText
import ExampleTests.Proofs.Yaml.Plain

/-! Floats in plain scalars. The text of a finite float is no integer for its point, and
the float nearest to it is the one that was written. -/

namespace ExampleTests.Yaml.Plain

open Binary64 (Canonical)
open Decimal (IsDigits IsPointed Neighbourhood)

section Point

variable {text : List Char}

theorem digit?_point (base : Nat) : digit? base '.' = none := by
  simp [digit?]

theorem natural?_point (base : Nat) (h : '.' ∈ text) : natural? base text = none := by
  have hm : text.mapM (digit? base) = none := by
    induction text with
    | nil => cases h
    | cons c text ih =>
      rw [List.mapM_cons]
      rcases List.mem_cons.mp h with rfl | h
      · rw [digit?_point]
        rfl
      · rw [ih h]
        cases digit? base c <;> rfl
  rw [natural?, hm]
  split <;> rfl

theorem magnitude?_point (h : '.' ∈ text) : magnitude? text = none := by
  have hs : '.' ∈ (splitBase text).2 := by
    unfold splitBase
    split
    case h_1 => simpa using h
    case h_2 => simpa using h
    case h_3 => simpa using h
    case h_4 => exact h
  exact natural?_point _ hs

theorem word?_point (h : '.' ∈ text) : word? text = none := by
  have hi : integer? text = none := by
    unfold integer?
    split
    · rfl
    · split
      · rw [magnitude?_point (by simpa using h)]
        rfl
      · rw [magnitude?_point (by simpa using h)]
        rfl
      · rw [magnitude?_point h]
        rfl
  rw [word?, hi]
  rfl

theorem hasLeadingZero_point (h : '.' ∈ text) : hasLeadingZero text = false := by
  have hrest : ∀ rest : List Char, '.' ∈ '0' :: rest → (!rest.isEmpty && rest.all Char.isDigit) = false := by
    intro rest hr
    have hall : rest.all Char.isDigit = false := by
      rw [List.all_eq_false]
      exact ⟨'.', by simpa using hr, by decide⟩
    rw [hall, Bool.and_false]
  unfold hasLeadingZero
  simp only
  split
  · rename_i rest he
    apply hrest
    rw [← he]
    split
    · simpa using h
    · simpa using h
    · exact h
  · rfl

end Point

section Decimals

variable {text whole fraction : List Char} {m : Nat} {q : Int}

theorem span_digits {ds : List Char} (hd : IsDigits ds) (rest : List Char)
    (hr : rest.head?.any Char.isDigit = false) :
    (ds ++ rest).takeWhile Char.isDigit = ds ∧ (ds ++ rest).dropWhile Char.isDigit = rest := by
  have hrest : rest.takeWhile Char.isDigit = [] ∧ rest.dropWhile Char.isDigit = rest := by
    cases rest with
    | nil => exact ⟨rfl, rfl⟩
    | cons c rest =>
      have hc : c.isDigit = false := by simpa using hr
      simp [hc]
  rw [List.takeWhile_append_of_pos hd, List.dropWhile_append_of_pos hd, hrest.1, hrest.2,
    List.append_nil]
  exact ⟨rfl, rfl⟩

theorem decimal?_pointed (h : IsPointed text whole fraction) :
    decimal? text = some (whole ++ fraction, -(fraction.length : Int)) := by
  obtain ⟨htw, hdw⟩ := span_digits h.whole_digits ('.' :: fraction) rfl
  obtain ⟨htf, hdf⟩ := span_digits h.fraction_digits [] rfl
  rw [List.append_nil] at htf hdf
  have hne : whole.isEmpty = false := List.isEmpty_eq_false_iff.mpr h.whole_ne
  rw [h.text_eq]
  unfold decimal?
  simp only [htw, hdw, htf, hdf, hne, Bool.false_and, Bool.false_eq_true, if_false]
  simp

/-- The number of digits in front of the point of what rounds to a float. -/
theorem size_bounds (hc : Canonical m q) {n k : Nat} (hn : 0 < n)
    (h : (Neighbourhood.ofBinary m q).Contains (n / 10 ^ k)) :
    -400 ≤ ((Nat.toDigits 10 n).length : Int) - k ∧ ((Nat.toDigits 10 n).length : Int) - k ≤ 400 := by
  obtain ⟨hlow, hhigh⟩ := Binary64.range_of_contains hc h
  obtain ⟨hle, hlt⟩ := Decimal.pow_length_toDigits hn
  have hlen := Nat.length_toDigits_pos (b := 10) (n := n)
  generalize (Nat.toDigits 10 n).length = size at hle hlt hlen ⊢
  have hpos : (0 : ℚ) < 10 ^ k := by positivity
  have hone : (1 : ℚ) < 10 := by norm_num
  have htwo : (2 : ℚ) ^ (1200 : Int) < 10 ^ (400 : Int) := by
    have h8 : ((2 : ℚ) ^ 3) ^ 400 < 10 ^ 400 :=
      pow_lt_pow_left₀ (by norm_num) (by norm_num) (by norm_num)
    rwa [← pow_mul] at h8
  constructor
  · have htop : (n : ℚ) / 10 ^ k < 10 ^ ((size : Int) - k) := by
      rw [zpow_sub₀ (by norm_num), zpow_natCast, zpow_natCast]
      exact div_lt_div_of_pos_right (by exact_mod_cast hlt) hpos
    have hleast : (10 : ℚ) ^ (-400 : Int) < 2 ^ (-1076 : Int) := by
      calc (10 : ℚ) ^ (-400 : Int)
          < 2 ^ (-1200 : Int) := by
            rw [zpow_neg, zpow_neg]
            exact inv_strictAnti₀ (zpow_pos (by norm_num) _) htwo
        _ ≤ 2 ^ (-1076 : Int) := zpow_le_zpow_right₀ (by norm_num) (by decide)
    exact le_of_lt ((zpow_lt_zpow_iff_right₀ hone).mp (hleast.trans (hlow.trans htop)))
  · have hbottom : (10 : ℚ) ^ (((size - 1 : Nat) : Int) - k) ≤ n / 10 ^ k := by
      rw [zpow_sub₀ (by norm_num), zpow_natCast, zpow_natCast]
      exact div_le_div_of_nonneg_right (by exact_mod_cast hle) hpos.le
    have hgreatest : (2 : ℚ) ^ (1024 : Int) < 10 ^ (400 : Int) :=
      (zpow_le_zpow_right₀ (by norm_num) (by decide)).trans_lt htwo
    have hexp := (zpow_lt_zpow_iff_right₀ hone).mp (hbottom.trans_lt (hhigh.trans hgreatest))
    omega

theorem nearest?_eq (hc : Canonical m q) {digits : List Char} {k : Nat} (hk : 0 < k)
    (hn : 0 < Nat.ofDigitChars 10 digits 0)
    (h : (Neighbourhood.ofBinary m q).Contains (Nat.ofDigitChars 10 digits 0 / 10 ^ k)) :
    ∃ x, nearest? digits (-(k : Int)) = some x ∧ x.toModel.unpack = .finite .positive m q hc.pos := by
  have hu := (Binary64.unpacks_ofScientific hn hk ⟨hc, h⟩).unpack_eq
  obtain ⟨hlow, hhigh⟩ := size_bounds hc hn h
  refine ⟨_, ?_, hu⟩
  have hfinite : (Float.ofScientific (Nat.ofDigitChars 10 digits 0) true k).isFinite = true :=
    Binary64.isFinite_iff.mpr ⟨_, _, _, Binary64.ofFloat_of_unpack hu⟩
  have hlimit : decimalLimit = 400 := rfl
  have hsmall : ¬ ((Nat.toDigits 10 (Nat.ofDigitChars 10 digits 0)).length : Int) + -k < -decimalLimit := by
    omega
  have hlarge : ¬ decimalLimit < ((Nat.toDigits 10 (Nat.ofDigitChars 10 digits 0)).length : Int) + -k := by
    omega
  have hneg : decide (-(k : Int) < 0) = true := decide_eq_true (by omega)
  have habs : (-(k : Int)).natAbs = k := by omega
  simp only [nearest?, Nat.ne_of_gt hn, hsmall, hlarge, hneg, habs, hfinite, decide_false, Bool.or_self,
    Bool.false_eq_true, if_false, if_true]

theorem isNumber_pointed (h : IsPointed text whole fraction) :
    IsNumber text ∧ IsNumber ('-' :: text) := by
  obtain ⟨c, cs, rfl⟩ := List.exists_cons_of_ne_nil h.whole_ne
  have hc := h.whole_digits c List.mem_cons_self
  have hcs : ∀ d ∈ cs ++ '.' :: fraction, d.isDigit = true ∨ d = '.' := by
    intro d hd
    rcases List.mem_append.mp hd with hd | hd
    · exact .inl (h.whole_digits d (List.mem_cons_of_mem c hd))
    · rcases List.mem_cons.mp hd with rfl | hd
      · exact .inr rfl
      · exact .inl (h.fraction_digits d hd)
  exact ⟨⟨c, _, hc, hcs, .inl h.text_eq⟩, ⟨c, _, hc, hcs, .inr (congrArg _ h.text_eq)⟩⟩

theorem float?_pointed (h : IsPointed text whole fraction) :
    float? text = finite? text ∧ float? ('-' :: text) = (finite? text).map (-·) := by
  obtain ⟨hnumber, hnegative⟩ := isNumber_pointed h
  have hinf : isInfinity text = false := hnumber.opens.not_word _ (by decide)
  have hnan := hnumber.opens.not_word [".nan", ".NaN", ".NAN"] (by decide)
  have hnan' := hnegative.opens.not_word [".nan", ".NaN", ".NAN"] (by decide)
  constructor
  · have hsign : ∀ c rest, text = c :: rest → c.isDigit = true := by
      rintro c rest ht
      obtain ⟨d, ds, rfl⟩ := List.exists_cons_of_ne_nil h.whole_ne
      cases ht.symm.trans h.text_eq
      exact h.whole_digits c List.mem_cons_self
    unfold float?
    rw [hnan, if_neg Bool.false_ne_true]
    split
    · exact absurd (hsign '-' _ rfl) (by decide)
    · exact absurd (hsign '+' _ rfl) (by decide)
    · rw [hinf, if_neg Bool.false_ne_true]
  · unfold float?
    rw [hnan', if_neg Bool.false_ne_true]
    simp only [hinf, Bool.false_eq_true, if_false]

theorem resolve_float {x : Float} (ho : OpensNumber text) (hp : '.' ∈ text) (hx : float? text = some x) :
    resolve text = .float x :=
  ho.resolve_eq (by rw [word?_point hp, hasLeadingZero_point hp, if_neg Bool.false_ne_true, hx])

/-- The text of a float other than zero has a point between digits and rounds to the float. -/
theorem exists_pointed (hc : Canonical m q) :
    ∃ whole fraction, IsPointed (Value.floatStyle.magnitude m q) whole fraction ∧
      (Neighbourhood.ofBinary m q).Contains (Decimal.pointValue whole fraction) := by
  obtain ⟨c, place, hpos, hs, hcontains, -⟩ := Decimal.exists_shortest .up hc.pos hc.lt hc.le
  obtain ⟨hne, hd, hv⟩ := Decimal.Digits.ofNat_value hpos place
  obtain ⟨whole, fraction, hp, hvalue⟩ := Decimal.Digits.positional_isPointed _ hne hd
  have ht : Value.floatStyle.magnitude m q = (Decimal.Digits.ofNat c place).positional := by
    rw [Decimal.Style.magnitude, if_neg (Nat.ne_of_gt hc.pos)]
    exact congrArg Decimal.Digits.positional hs
  refine ⟨whole, fraction, ht ▸ hp, ?_⟩
  rw [hvalue, hv]
  exact hcontains

theorem finite?_magnitude (hc : Canonical m q) :
    ∃ x, finite? (Value.floatStyle.magnitude m q) = some x ∧
      x.toModel.unpack = .finite .positive m q hc.pos := by
  obtain ⟨whole, fraction, hp, hcontains⟩ := exists_pointed hc
  have hn : 0 < Nat.ofDigitChars 10 (whole ++ fraction) 0 := by
    rw [Nat.pos_iff_ne_zero]
    intro h0
    obtain ⟨hpos, -⟩ := Binary64.range_of_contains hc hcontains
    rw [Decimal.pointValue, h0, Nat.cast_zero, zero_div] at hpos
    exact absurd hpos (not_lt.mpr (zpow_nonneg (by norm_num) _))
  obtain ⟨x, hx, hu⟩ := nearest?_eq hc (List.length_pos_iff.mpr hp.fraction_ne) hn hcontains
  refine ⟨x, ?_, hu⟩
  rw [finite?, decimal?_pointed hp]
  exact hx

/-- A float that is decoded as another one has its text. -/
theorem keepsSpelling_of_float {x y : Float} (hy : literal? (Value.floatText x) = some (.float y))
    (hd : Binary64.ofFloat y = Binary64.ofFloat x) : KeepsSpelling (Value.floatText x) := by
  have ht : Value.floatText y = Value.floatText x := by
    rw [Value.floatText_eq, Value.floatText_eq, hd]
  rw [KeepsSpelling, hy]
  exact congrArg some ht

theorem keepsSpelling_canonical {x : Float} {negative : Bool}
    (hx : Binary64.ofFloat x = .finite negative m q) (hc : Canonical m q) :
    KeepsSpelling (Value.floatText x) := by
  obtain ⟨whole, fraction, hp, -⟩ := exists_pointed hc
  obtain ⟨y, hy, hu⟩ := finite?_magnitude hc
  obtain ⟨hnumber, hnegative⟩ := isNumber_pointed hp
  obtain ⟨hpos, hneg⟩ := float?_pointed hp
  have hmem : '.' ∈ Value.floatStyle.magnitude m q := by
    rw [hp.text_eq]
    simp
  have htext : (Value.floatText x).toList = Value.floatStyle.finite negative m q := by
    rw [Value.floatText_eq, hx, String.toList_ofList]
  cases negative with
  | false =>
    have hr : resolve (Value.floatText x).toList = .float y := by
      rw [htext]
      exact resolve_float hnumber.opens hmem (hpos.trans hy)
    refine keepsSpelling_of_float (y := y) (by rw [literal?, hr]; rfl) ?_
    rw [Binary64.ofFloat_of_unpack hu, hx]
    rfl
  | true =>
    have hr : resolve (Value.floatText x).toList = .float (-y) := by
      rw [htext]
      exact resolve_float hnegative.opens (List.mem_cons_of_mem _ hmem) (hneg.trans (congrArg _ hy))
    refine keepsSpelling_of_float (y := -y) (by rw [literal?, hr]; rfl) ?_
    rw [Binary64.ofFloat_of_unpack (Binary64.unpack_neg hc hu), hx]
    rfl

theorem floatText_cases (x : Float) :
    Value.floatText x ∈ ["NaN", "inf", "-inf", "0.0", "-0.0"] ∨
      ∃ negative m q, Binary64.ofFloat x = .finite negative m q ∧ Canonical m q ∧
        IsNumber (Value.floatText x).toList := by
  cases hx : Binary64.ofFloat x with
  | nan =>
    have ht : Value.floatText x = "NaN" := by rw [Value.floatText_eq, hx]
    simp [ht]
  | infinite negative =>
    have ht : Value.floatText x = if negative then "-inf" else "inf" := by rw [Value.floatText_eq, hx]
    cases negative <;> simp [ht]
  | finite negative m q =>
    by_cases hm : 0 < m
    · have hc := Binary64.canonical_of_ofFloat hx hm
      obtain ⟨whole, fraction, hp, -⟩ := exists_pointed hc
      obtain ⟨hnumber, hnegative⟩ := isNumber_pointed hp
      refine .inr ⟨negative, m, q, rfl, hc, ?_⟩
      rw [Value.floatText_eq, hx, String.toList_ofList]
      cases negative with
      | false => exact hnumber
      | true => exact hnegative
    · have h0 : m = 0 := by omega
      have ht : Value.floatText x = if negative then "-0.0" else "0.0" := by
        rw [Value.floatText_eq, hx, h0]
        cases negative <;> rfl
      cases negative <;> simp [ht]

/-- The text of a float stands for a float with this text; one that is infinite or no
number comes back as a word. -/
theorem keepsSpelling_float (x : Float) : KeepsSpelling (Value.floatText x) := by
  rcases floatText_cases x with hw | ⟨negative, m, q, hx, hc, -⟩
  · have hwords : ∀ text ∈ ["NaN", "inf", "-inf", "0.0", "-0.0"], KeepsSpelling text := by
      decide +kernel
    exact hwords _ hw
  · exact keepsSpelling_canonical hx hc

end Decimals

end ExampleTests.Yaml.Plain

namespace ExampleTests

/-- An integer or a float, as opposed to a word. -/
def Value.isNumeric : Value → Bool
  | integer _ | float _ => true
  | raw _ => false

namespace Yaml.Plain

/-- The text of a number is a plain scalar that stands for a literal with this text. -/
theorem render_numeric {v : Value} (h : v.isNumeric = true) :
    (∀ c ∈ v.render.toList, isQuiet c = true) ∧ IsPlain v.render.toList ∧ KeepsSpelling v.render := by
  have hnumber : ∀ {text}, IsNumber text → (∀ c ∈ text, isQuiet c = true) ∧ IsPlain text := fun hn =>
    ⟨fun c hc => (hn.isQuiet c hc).1, hn.isPlain⟩
  cases v with
  | integer n =>
    obtain ⟨hq, hp⟩ := hnumber (isNumber_integer n.toInt)
    exact ⟨hq, hp, keepsSpelling_integer n⟩
  | float x =>
    have htext : (∀ c ∈ (Value.floatText x).toList, isQuiet c = true) ∧
        IsPlain (Value.floatText x).toList := by
      rcases floatText_cases x with hw | ⟨-, -, -, -, -, hn⟩
      · have hwords : ∀ text ∈ ["NaN", "inf", "-inf", "0.0", "-0.0"],
            text.toList.all isQuiet = true ∧ IsPlain text.toList := by
          decide +kernel
        obtain ⟨hq, hp⟩ := hwords _ hw
        exact ⟨List.all_eq_true.mp hq, hp⟩
      · exact hnumber hn
    exact ⟨htext.1, htext.2, keepsSpelling_float x⟩
  | raw text => cases h

end Yaml.Plain

end ExampleTests
