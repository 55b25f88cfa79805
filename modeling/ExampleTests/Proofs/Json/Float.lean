import ExampleTests.Json.Write
import ExampleTests.Proofs.Decimal.Layout
import ExampleTests.Proofs.Json.Meaning
import ExampleTests.Proofs.Json.Scaling
import ExampleTests.Yaml.Read

/-! Floats that are written and read again. All their digits are read, but they are scaled
by rounded operations: a float comes back as a float of its sign, at most two units in the
last place away, and unchanged if it has few digits. -/

namespace ExampleTests.Json

open Binary64 (Canonical Rounded Unpacks)
open Decimal (IsPointed)

section Reading

variable (negative : Bool) {whole fraction : List Char} (tail : List Char)

theorem readFraction_digits {n : Nat} (e : Int) (hf : Digits fraction)
    (hn : Nat.ofDigitChars 10 fraction n < significandLimit) (ht : startsWithDigit tail = false) :
    readFraction negative n e (fraction ++ tail) =
      readScale negative (Nat.ofDigitChars 10 fraction n) (e - fraction.length) tail := by
  have htake := takeDigits_append 0 hf.digits hn ht
  have hskip : skipDigits tail = tail := skipDigits_append (List.forall_mem_nil _) ht
  simp only [readFraction, hf.startsWithDigit, if_true, htake, hskip, Nat.zero_add]

/-- A number with a point is read to its last digit if they all fit. -/
theorem readNumber_point (hw : Numeral whole) (hf : Digits fraction)
    (hn : Nat.ofDigitChars 10 (whole ++ fraction) 0 < significandLimit)
    (ht : startsWithDigit tail = false) :
    readNumber negative (whole ++ '.' :: (fraction ++ tail)) =
      readScale negative (Nat.ofDigitChars 10 (whole ++ fraction) 0) (-(fraction.length : Int)) tail := by
  rw [Nat.ofDigitChars_append] at hn ⊢
  rw [readNumber_whole negative hw (Nat.lt_of_le_of_lt (le_ofDigitChars fraction _) hn) rfl]
  have hread := readFraction_digits negative tail 0 hf hn ht
  rw [zero_sub] at hread
  exact hread

theorem readNumber_mark (hw : Numeral whole) (hn : Nat.ofDigitChars 10 whole 0 < significandLimit) :
    readNumber negative (whole ++ 'e' :: tail) =
      readExponent negative (Nat.ofDigitChars 10 whole 0) 0 tail :=
  readNumber_whole negative hw hn rfl

theorem readExponent_digits (s : Nat) (start : Int) (e : Int) (he : e.natAbs < exponentLimit) :
    readExponent negative s start ((if e < 0 then '-' else '+') :: Nat.toDigits 10 e.natAbs) =
      finishFloat negative s (start + e) [] := by
  have hv := Nat.ofDigitChars_ten_toDigits (n := e.natAbs)
  obtain ⟨c, cs, hc, hd⟩ := (numeral_repr e.natAbs).toDigits.opens
  rw [Nat.toList_repr] at hc
  have htake : takeDigits exponentLimit 0 0 (e.natAbs.repr.toList ++ []) = _ :=
    takeDigits_append 0 (numeral_repr e.natAbs).digits (by rw [Nat.toList_repr, hv]; exact he) rfl
  rw [Nat.toList_repr, hv, List.append_nil, hc] at htake
  rw [hc]
  by_cases hneg : e < 0
  · have hs : start - (e.natAbs : Int) = start + e := by omega
    simp only [readExponent, hneg, if_true, exponentSign, hd, htake, hs]
    rfl
  · have hs : start + (e.natAbs : Int) = start + e := by omega
    simp only [readExponent, hneg, if_false, exponentSign, hd, if_true, htake, hs]
    rfl

end Reading

section Writing

/-- The text is a number of these digits and this power of ten. -/
structure ReadAs (text : List Char) (s : Nat) (e : Int) : Prop where
  opens : ∃ c cs, text = c :: cs ∧ c.isDigit
  reads : ∀ negative, readNumber negative text = finishFloat negative s e []

variable {d : Decimal.Digits}

theorem numeral_single {c : Char} (hc : c.isDigit) : Numeral [c] :=
  ⟨List.cons_ne_nil _ _, List.forall_mem_singleton.mpr hc, fun h => congrArg (fun c => [c]) (Option.some.inj h)⟩

theorem readAs_scientific (hne : d.digits ≠ []) (hd : Decimal.IsDigits d.digits)
    (hn : Nat.ofDigitChars 10 d.digits 0 < significandLimit) (hp : (d.point - 1).natAbs < exponentLimit) :
    ReadAs d.scientific (Nat.ofDigitChars 10 d.digits 0) (d.point - d.digits.length) := by
  unfold Decimal.Digits.scientific
  rcases hds : d.digits with _ | ⟨c, _ | ⟨c', rest⟩⟩
  · exact absurd hds hne
  · have hc : c.isDigit := hd c (hds ▸ List.mem_cons_self)
    rw [hds] at hn
    refine ⟨⟨c, _, rfl, hc⟩, fun negative => ?_⟩
    have hread := readNumber_mark negative
      ((if d.point - 1 < 0 then '-' else '+') :: Nat.toDigits 10 (d.point - 1).natAbs)
      (numeral_single hc) hn
    refine hread.trans ((readExponent_digits negative _ 0 _ hp).trans ?_)
    rw [List.length_singleton, zero_add]
    rfl
  · have hc : c.isDigit := hd c (hds ▸ List.mem_cons_self)
    have hf : Digits (c' :: rest) :=
      ⟨List.cons_ne_nil _ _, fun x hx => hd x (hds ▸ List.mem_cons_of_mem c hx)⟩
    rw [hds] at hn
    refine ⟨⟨c, _, rfl, hc⟩, fun negative => ?_⟩
    have hread := readNumber_point negative
      ('e' :: (if d.point - 1 < 0 then '-' else '+') :: Nat.toDigits 10 (d.point - 1).natAbs)
      (numeral_single hc) hf hn rfl
    refine hread.trans ((readExponent_digits negative _ _ _ hp).trans ?_)
    congr 1
    simp only [List.length_cons]
    omega

theorem readAs_positional (hne : d.digits ≠ []) (hd : Decimal.IsDigits d.digits)
    (h0 : d.digits.head? ≠ some '0') (hn : Nat.ofDigitChars 10 d.digits 0 ≤ 10 ^ 17 + 1)
    (hlt : Nat.ofDigitChars 10 d.digits 0 < 10 ^ d.digits.length) (hp : d.point ≤ 16) :
    ∃ zeros k : Nat, ReadAs d.positional (Nat.ofDigitChars 10 d.digits 0 * 10 ^ zeros) (-k) ∧
      Nat.ofDigitChars 10 d.digits 0 * 10 ^ zeros < 2 ^ 64 ∧ 0 < k ∧
      (zeros : Int) - k = d.point - d.digits.length ∧
      (zeros = 0 ∨ (d.digits.length : Int) + zeros = d.point + 1) := by
  obtain ⟨whole, fraction, zeros, ⟨ht, hw, hf, hwd, hfd⟩, hzero, hv, hplace, hzeros⟩ :=
    d.positional_parts hne hd
  have hsmall : Nat.ofDigitChars 10 d.digits 0 * 10 ^ zeros < 2 ^ 64 := by
    rcases hzeros with rfl | hz
    · omega
    · calc Nat.ofDigitChars 10 d.digits 0 * 10 ^ zeros
          < 10 ^ d.digits.length * 10 ^ zeros := Nat.mul_lt_mul_of_pos_right hlt (Nat.pow_pos (by decide))
        _ = 10 ^ (d.digits.length + zeros) := (Nat.pow_add _ _ _).symm
        _ ≤ 10 ^ 17 := Nat.pow_le_pow_right (by decide) (by omega)
        _ < 2 ^ 64 := by decide
  refine ⟨zeros, fraction.length, ⟨?_, fun negative => ?_⟩, hsmall, List.length_pos_iff.mpr hf, hplace, hzeros⟩
  · obtain ⟨c, cs, rfl⟩ := List.exists_cons_of_ne_nil hw
    exact ⟨c, _, ht, hwd c List.mem_cons_self⟩
  · have hread := readNumber_point negative [] ⟨hw, hwd, hzero h0⟩ ⟨hf, hfd⟩ (hv ▸ hsmall) rfl
    rw [List.append_nil, ← ht, hv] at hread
    exact hread

/-- Fifteen digits at most, in front of the point and at the twenty-two places behind it. -/
structure FewDigits (d : Decimal.Digits) : Prop where
  length_le : d.digits.length ≤ 15
  point_le : d.point ≤ 15
  places_le : d.digits.length - d.point ≤ 22

variable {m : Nat} {q : Int}

theorem exponent_le {s : Nat} {e : Int} (hs : 0 < s) (h : Rounded (s * 10 ^ e) m q) : e ≤ 308 := by
  obtain ⟨-, htop⟩ := Binary64.range_of_contains h.canonical h.contains
  have hone : (1 : ℚ) ≤ s := by exact_mod_cast hs
  have hnat : 2 ^ 1024 < 10 ^ 309 := by decide +kernel
  have hten := (Nat.cast_lt (α := ℚ)).mpr hnat
  rw [Nat.cast_pow, Nat.cast_pow, Nat.cast_ofNat, Nat.cast_ofNat] at hten
  rw [zpow_ofNat] at htop
  have hle : (10 : ℚ) ^ e ≤ s * 10 ^ e :=
    le_mul_of_one_le_left (zpow_nonneg (by norm_num) _) hone
  have hlt : (10 : ℚ) ^ e < 10 ^ (309 : Int) := by
    rw [zpow_ofNat]
    exact (hle.trans_lt htop).trans hten
  have hexp := (zpow_lt_zpow_iff_right₀ (by norm_num : (1 : ℚ) < 10)).mp hlt
  omega

/-- The digits of a float as they are found. -/
structure ShortestDigits (d : Decimal.Digits) (m : Nat) (q : Int) : Prop where
  nonempty : d.digits ≠ []
  digits : Decimal.IsDigits d.digits
  noLeadingZero : d.digits.head? ≠ some '0'
  positive : 0 < Nat.ofDigitChars 10 d.digits 0
  bounded : Nat.ofDigitChars 10 d.digits 0 ≤ 10 ^ 17 + 1
  lt_pow : Nat.ofDigitChars 10 d.digits 0 < 10 ^ d.digits.length
  length_le : d.digits.length ≤ 18
  place_le : -324 ≤ d.point - d.digits.length
  rounded : Rounded (Nat.ofDigitChars 10 d.digits 0 * 10 ^ (d.point - d.digits.length)) m q

theorem shortestDigits (tie : Decimal.Tie) (hc : Canonical m q) :
    ShortestDigits (Decimal.shortest tie m q) m q := by
  obtain ⟨c, place, hpos, hs, hcontains, hbound, hplace⟩ :=
    Decimal.exists_shortest tie hc.pos hc.lt hc.le
  obtain ⟨hne, hd, z, hz, hv, hexp⟩ := Decimal.Digits.ofNat_parts hpos place
  obtain ⟨-, -, hvalue⟩ := Decimal.Digits.ofNat_value hpos place
  obtain ⟨-, hlt⟩ := Decimal.pow_length_toDigits hpos
  have hlen := (Nat.length_toDigits_le_iff (b := 10) (n := c) (k := 18) (by decide) (by decide)).mpr
    (Nat.lt_of_le_of_lt hbound (by decide))
  have hhead : (Nat.toDigits 10 c).head? = (Decimal.Digits.ofNat c place).digits.head? := by
    rw [hz, List.head?_append_of_ne_nil _ hne]
  rw [hz, List.length_append, List.length_replicate] at hlen hlt
  rw [hs]
  generalize Decimal.Digits.ofNat c place = d at *
  have hten : 0 < 10 ^ z := Nat.pow_pos (by decide)
  rw [← hvalue] at hcontains
  refine ⟨hne, hd, fun h0 => ?_, ?_, ?_, ?_, by omega, by omega, ⟨hc, hcontains⟩⟩
  · have hzero := head?_toDigits_eq_zero (hhead.trans h0)
    omega
  · refine Nat.pos_of_ne_zero fun h0 => ?_
    rw [h0, Nat.zero_mul] at hv
    omega
  · exact (Nat.le_mul_of_pos_right _ hten).trans (hv.le.trans hbound)
  · rw [← hv, Nat.pow_add] at hlt
    exact Nat.lt_of_mul_lt_mul_right hlt

/-- Digits that are a float without rounding, and a power of ten that is one too. -/
def IsExact (s : Nat) (e : Int) : Prop :=
  ∃ n j k : Nat, s = n * 2 ^ j ∧ n < 2 ^ 53 ∧ j ≤ 900 ∧ e = -k ∧ 0 < k ∧ k ≤ 22

/-- The text of a float is read as a decimal that rounds to it. -/
theorem exists_readAs (hc : Canonical m q) :
    ∃ s e, ReadAs (floatStyle.magnitude m q) s e ∧ 0 < s ∧ s < 2 ^ 64 ∧ -324 ≤ e ∧
      Rounded (s * 10 ^ e) m q ∧ (FewDigits (Decimal.shortest .toEven m q) → IsExact s e) := by
  obtain ⟨hne, hd, h0, hpos, hbound, hlt, hlen, hplace, hr⟩ := shortestDigits .toEven hc
  have htext : floatStyle.magnitude m q = if floatStyle.isPositional (Decimal.shortest .toEven m q).point
      then (Decimal.shortest .toEven m q).positional else (Decimal.shortest .toEven m q).scientific := by
    rw [Decimal.Style.magnitude, if_neg (Nat.ne_of_gt hc.pos)]
    rfl
  rw [htext]
  generalize Decimal.shortest .toEven m q = d at *
  have hten : ∀ z, 0 < 10 ^ z := fun z => Nat.pow_pos (by decide)
  by_cases hstyle : floatStyle.isPositional d.point = true
  · have hpoint : -5 < d.point ∧ d.point ≤ 16 := by simpa [floatStyle] using hstyle
    obtain ⟨zeros, k, hread, hs, hk, hexp, hzeros⟩ :=
      readAs_positional hne hd h0 hbound hlt hpoint.2
    rw [if_pos hstyle]
    refine ⟨_, _, hread, Nat.mul_pos hpos (hten zeros), hs, by omega, ?_, fun hfew => ?_⟩
    · have he : d.point - d.digits.length = (zeros : Int) + -k := by omega
      rw [he, zpow_add₀ (by norm_num), zpow_natCast, ← mul_assoc] at hr
      push_cast
      exact hr
    · obtain ⟨hlen15, hpoint15, hplaces⟩ := hfew
      have hsmall : 10 ^ d.digits.length ≤ 10 ^ 15 := Nat.pow_le_pow_right (by decide) hlen15
      rcases zeros with _ | z
      · exact ⟨_, 0, k, by ring, by omega, by decide, rfl, hk, by omega⟩
      · -- Ten times fifteen digits is twice a number of 53 bits.
        have hz : Nat.ofDigitChars 10 d.digits 0 * 10 ^ z < 10 ^ 15 :=
          calc Nat.ofDigitChars 10 d.digits 0 * 10 ^ z
              < 10 ^ d.digits.length * 10 ^ z := Nat.mul_lt_mul_of_pos_right hlt (hten z)
            _ = 10 ^ (d.digits.length + z) := (Nat.pow_add _ _ _).symm
            _ ≤ 10 ^ 15 := Nat.pow_le_pow_right (by decide) (by omega)
        exact ⟨Nat.ofDigitChars 10 d.digits 0 * 10 ^ z * 5, 1, k, by ring, by omega, by decide, rfl, hk,
          by omega⟩
  · have hpoint : d.point ≤ -5 ∨ 16 < d.point := by
      simp only [floatStyle, Bool.and_eq_true, decide_eq_true_eq] at hstyle
      omega
    have he := exponent_le hpos hr
    have hlimit : exponentLimit = 2 ^ 31 := by decide
    have hbig : significandLimit = 2 ^ 64 := by decide
    rw [if_neg hstyle]
    refine ⟨_, _, readAs_scientific hne hd (by omega) (by omega), hpos, by omega, hplace, hr, fun hfew => ?_⟩
    obtain ⟨hlen15, hpoint15, hplaces⟩ := hfew
    have hsmall : 10 ^ d.digits.length ≤ 10 ^ 15 := Nat.pow_le_pow_right (by decide) hlen15
    exact ⟨_, 0, (d.digits.length - d.point).toNat, by ring, by omega, by decide, by omega, by omega, by omega⟩

end Writing

section RoundTrip

variable {m : Nat} {q : Int}

/-- Finite floats of one sign, at most two units in the last place apart, and zero only
together. -/
def Near (x y : Float) : Prop :=
  ∃ negative m q n p, Binary64.ofFloat x = .finite negative m q ∧
    Binary64.ofFloat y = .finite negative n p ∧ (m = 0 ↔ n = 0) ∧
    |(n : ℚ) * 2 ^ p - m * 2 ^ q| ≤ 2 * 2 ^ max p q

/-- Zero, or a float of few digits. -/
def IsShort (x : Float) : Prop :=
  ∃ negative m q, Binary64.ofFloat x = .finite negative m q ∧
    (m = 0 ∨ FewDigits (Decimal.shortest .toEven m q))

theorem finite_eq_minus (style : Decimal.Style) (negative : Bool) (m : Nat) (q : Int) :
    style.finite negative m q = minus negative ++ style.magnitude m q := by
  cases negative <;> rfl

theorem parseValue_readAs {text : List Char} {s : Nat} {e : Int} {x : Float} (h : ReadAs text s e)
    (hx : scaleFloat 3 (UInt64.ofNat s).toFloat e = some x) (negative : Bool) :
    parseValue (String.ofList (minus negative ++ text)) = .ok (.float (signed negative x)) := by
  obtain ⟨⟨c, cs, rfl, hc⟩, hread⟩ := h
  have hfound := readFound_minus negative (numeral_single hc).toDigits cs
  obtain ⟨d, ds, hd, hopen⟩ : ∃ d ds, minus negative ++ c :: cs = d :: ds ∧ (d = '-' ∨ d.isDigit) := by
    cases negative with
    | true => exact ⟨'-', _, rfl, .inl rfl⟩
    | false => exact ⟨c, cs, rfl, .inr hc⟩
  have hs := numberStart hopen
  have hv := readValue_scalar hs.notBlank hs.notBracket hs.notBrace ds
  rw [← hd, show c :: cs = [c] ++ cs from rfl, hfound, List.singleton_append, hread, finishFloat, hx] at hv
  rw [parseValue, readAll, String.toList_ofList, hv]
  rfl

theorem ofFloat_signed {x : Float} (h : Unpacks x m q) (negative : Bool) :
    Binary64.ofFloat (signed negative x) = .finite negative m q := by
  cases negative with
  | true => exact h.ofFloat_neg
  | false => exact h.ofFloat_eq

/-- The greatest three floats are read as they are written, or next to it. -/
def readsGreatest (negative : Bool) (m : Nat) : Bool :=
  match parseValue (String.ofList (floatStyle.finite negative m 971)) with
  | .ok (.float y) =>
    match Binary64.ofFloat y with
    | .finite s n p => s == negative && p == 971 && 0 < n && n ≤ m + 2 && m ≤ n + 2
    | _ => false
  | _ => false

theorem readsGreatest_all : ∀ negative, ∀ m ∈ [2 ^ 53 - 3, 2 ^ 53 - 2, 2 ^ 53 - 1],
    readsGreatest negative m = true := by
  decide +kernel

variable {x : Float} {negative : Bool}

theorem exists_of_readsGreatest (h : readsGreatest negative m = true) :
    ∃ y n, parseValue (String.ofList (floatStyle.finite negative m 971)) = .ok (.float y) ∧
      Binary64.ofFloat y = .finite negative n 971 ∧ 0 < n ∧ n ≤ m + 2 ∧ m ≤ n + 2 := by
  unfold readsGreatest at h
  split at h
  · rename_i y hy
    split at h
    · rename_i s n p hyn
      simp only [Bool.and_eq_true, beq_iff_eq, decide_eq_true_eq] at h
      obtain ⟨⟨⟨⟨rfl, rfl⟩, hn⟩, hnm⟩, hmn⟩ := h
      exact ⟨y, n, hy, hyn, hn, hnm, hmn⟩
    · cases h
  · cases h

theorem near_self (hx : Binary64.ofFloat x = .finite negative m q) : Near x x := by
  refine ⟨negative, m, q, m, q, hx, hx, Iff.rfl, ?_⟩
  rw [sub_self, abs_zero]
  exact mul_nonneg (by norm_num) (zpow_nonneg (by norm_num) _)

/-- A zero keeps its sign. -/
theorem parseValue_zero (hx : Binary64.ofFloat x = .finite negative 0 q) :
    parseValue (String.ofList (floatStyle.finite negative 0 q)) = .ok (.float x) := by
  have hread : ReadAs (floatStyle.magnitude 0 q) 0 (-1) := by
    refine ⟨⟨'0', ['.', '0'], rfl, rfl⟩, fun negative => ?_⟩
    have hzero : Numeral ['0'] := numeral_single rfl
    exact readNumber_point negative [] hzero hzero.toDigits (by decide) rfl
  have hscale : scaleFloat 3 (UInt64.ofNat 0).toFloat (-1) = some (0 : Float) := by decide +kernel
  have hzero : Binary64.ofFloat (signed negative 0) = .finite negative 0 Binary64.minExponent := by
    rw [Binary64.ofFloat_eq_ofUnpacked]
    cases negative <;> rfl
  rw [Binary64.exponent_of_zero hx] at hx
  rw [finite_eq_minus, ← Binary64.eq_of_ofFloat hzero hx]
  exact parseValue_readAs hread hscale negative

theorem exists_near (hx : Binary64.ofFloat x = .finite negative m q) (hc : Canonical m q) :
    ∃ y, parseValue (String.ofList (floatStyle.finite negative m q)) = .ok (.float y) ∧ Near x y ∧
      (FewDigits (Decimal.shortest .toEven m q) → y = x) := by
  obtain ⟨s, e, hread, hs, hlt, he, hr, hexact⟩ := exists_readAs hc
  have hparse := fun {y : Float} (hy : scaleFloat 3 (UInt64.ofNat s).toFloat e = some y) =>
    parseValue_readAs hread hy negative
  rw [finite_eq_minus]
  by_cases hfew : FewDigits (Decimal.shortest .toEven m q)
  · obtain ⟨n, j, k, rfl, hn, hj, rfl, hk, hk22⟩ := hexact hfew
    obtain ⟨y, hy, hu⟩ := scaleFloat_exact (Nat.pos_of_mul_pos_right hs) hn hj hlt hk hk22 hr
    have hyx : signed negative y = x := Binary64.eq_of_ofFloat (ofFloat_signed hu negative) hx
    exact ⟨x, hyx ▸ hparse hy, near_self hx, fun _ => rfl⟩
  by_cases hgreatest : q = 971 ∧ 2 ^ 53 - 4 < m
  · obtain ⟨rfl, hm⟩ := hgreatest
    have hlt := hc.lt
    obtain ⟨y, n, hy, hyn, hn, hnm, hmn⟩ :=
      exists_of_readsGreatest (readsGreatest_all negative m (by simp only [List.mem_cons]; omega))
    rw [finite_eq_minus] at hy
    refine ⟨y, hy, ?_, fun h => absurd h hfew⟩
    refine ⟨negative, m, 971, n, 971, hx, hyn,
      iff_of_false (Nat.ne_of_gt hc.pos) (Nat.ne_of_gt hn), ?_⟩
    have hnq : (n : ℚ) ≤ m + 2 := by exact_mod_cast hnm
    have hmq : (m : ℚ) ≤ n + 2 := by exact_mod_cast hmn
    have hpos : (0 : ℚ) < 2 ^ (971 : Int) := zpow_pos (by norm_num) _
    rw [max_self, ← sub_mul, abs_mul, abs_of_pos hpos]
    exact mul_le_mul_of_nonneg_right (abs_le.mpr ⟨by linarith, by linarith⟩) hpos.le
  · obtain ⟨v, hclose, hscale⟩ := scalesClose hs hlt (by omega) (exponent_le hs hr)
    have hfits := hc.fits
    obtain ⟨n, p, hv⟩ := exists_rounded_of_close hr hclose (three_places_le hr he) (by omega)
    obtain ⟨y, hy, hu⟩ := hscale n p hv
    refine ⟨signed negative y, hparse hy, ?_, fun h => absurd h hfew⟩
    exact ⟨negative, m, q, n, p, hx, ofFloat_signed hu negative,
      iff_of_false (Nat.ne_of_gt hc.pos) (Nat.ne_of_gt hu.canonical.pos), near_of_close hr hclose hv⟩

/-- A finite float is read again as a float of its sign that is near to it, and as itself if it
is short. -/
theorem parseValue_writeFloat (x : Float) (h : x.isFinite = true) :
    ∃ y, parseValue (String.ofList (writeValue (.float x))) = .ok (.float y) ∧ Near x y ∧
      (IsShort x → y = x) := by
  obtain ⟨negative, m, q, hx⟩ := Binary64.isFinite_iff.mp h
  have htext : writeValue (.float x) = floatStyle.finite negative m q := by
    rw [writeValue, writeFloat, hx]
  rw [htext]
  by_cases hm : m = 0
  · subst hm
    exact ⟨x, parseValue_zero hx, near_self hx, fun _ => rfl⟩
  · obtain ⟨y, hy, hnear, hshort⟩ := exists_near hx (Binary64.canonical_of_ofFloat hx (Nat.pos_of_ne_zero hm))
    refine ⟨y, hy, hnear, ?_⟩
    rintro ⟨_, _, _, hx', hfew⟩
    cases hx.symm.trans hx'
    exact hshort (hfew.resolve_left hm)

theorem parseValue_writeFloat_pi :
    let x := Float.ofBits 0x40091eb851eb851f
    x.isFinite = true ∧ IsShort x ∧ writeValue (.float x) = "3.14".toList ∧
      parseValue "3.14" = .ok (.float x) := by
  intro x
  have hfinite : x.isFinite = true := by decide +kernel
  have hx : Binary64.ofFloat x = .finite false 7070651414971679 (-51) := by
    have hbits : x.toBits = 0x40091eb851eb851f := by decide +kernel
    rw [Binary64.ofFloat, hbits]
    rfl
  have hshort : IsShort x := ⟨_, _, _, hx, .inr ⟨by decide +kernel, by decide +kernel, by decide +kernel⟩⟩
  have htext : writeValue (.float x) = "3.14".toList := by decide +kernel
  obtain ⟨y, hy, -, hyx⟩ := parseValue_writeFloat x hfinite
  rw [hyx hshort, htext, String.ofList_toList] at hy
  exact ⟨hfinite, hshort, htext, hy⟩

/-- The float under 115 is read as 115, though its digits stand for it in a YAML source. -/
theorem below_115_is_shifted :
    let x := Float.ofBits 0x405cbfffffffffff
    let text := String.ofList (writeValue (.float x))
    x.isFinite = true ∧ text = "114.99999999999999" ∧ parseValue text ≠ .ok (.float x) ∧
      (parseValue text).toOption.map Value.render = some "115.0" ∧
      (Yaml.parseValue text).toOption.map Value.render = some text := by
  intro x text
  have hread : (parseValue text).toOption.map Value.render = some "115.0" := by decide +kernel
  have hrender : (Value.float x).render = "114.99999999999999" := by decide +kernel
  refine ⟨by decide +kernel, by decide +kernel, fun h => ?_, hread, by decide +kernel⟩
  rw [h] at hread
  have heq : some (Value.float x).render = some "115.0" := hread
  rw [hrender] at heq
  exact absurd heq (by decide)

end RoundTrip

end ExampleTests.Json
