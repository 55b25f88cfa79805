import ExampleTests.Proofs.Json.Grammar
import ExampleTests.Proofs.Json.Text

/-! Strings and numbers in any of their spellings. Both readers of strings take a
body up to its closing quote. A number of any form is read to a result that the
text behind it has no part in. -/

namespace ExampleTests.Json

section Strings

theorem HexDigit.hexValue? {d : Nat} {c : Char} (h : HexDigit d c) : hexValue? c = some d := by
  have hupper : ∀ d < 16, Json.hexValue? (Nat.digitChar d).toUpper = some d := by decide
  cases h with
  | lower h => exact hexValue?_digitChar d h
  | upper h => exact hupper d h

theorem Hex.readHex {n : Nat} {ds : List Char} (h : Hex n ds) (rest : List Char) :
    readHex (ds ++ rest) = .ok (n, rest) := by
  obtain ⟨ha, hb, hc, hd⟩ := h
  exact readHex_digits ha.hexValue? hb.hexValue? hc.hexValue? hd.hexValue? rest

theorem not_isSurrogate (c : Char) :
    isLowSurrogate c.toNat = false ∧ isHighSurrogate c.toNat = false := by
  have hv : c.toNat < 0xD800 ∨ 0xDFFF < c.toNat ∧ c.toNat < 0x110000 := c.valid
  simp only [isLowSurrogate, isHighSurrogate, Bool.and_eq_false_iff, decide_eq_false_iff_not]
  omega

theorem readUnicode_code {c : Char} {ds : List Char} (h : Hex c.toNat ds) (rest : List Char) :
    readUnicode (ds ++ rest) = .ok (c, rest) := by
  obtain ⟨hlow, hhigh⟩ := not_isSurrogate c
  simp [readUnicode, h.readHex, hlow, hhigh, bind, Except.bind]

theorem readUnicode_pair {c : Char} {high low : Nat} {ds es : List Char} (hh : Hex high ds)
    (hl : Hex low es) (hhigh : 0xD800 ≤ high ∧ high < 0xDC00) (hlow : 0xDC00 ≤ low ∧ low < 0xE000)
    (hc : c.toNat = 0x10000 + (high - 0xD800) * 0x400 + (low - 0xDC00)) (rest : List Char) :
    readUnicode (ds ++ '\\' :: 'u' :: (es ++ rest)) = .ok (c, rest) := by
  have hn : isLowSurrogate high = false := by
    simp only [isLowSurrogate, Bool.and_eq_false_iff, decide_eq_false_iff_not]
    omega
  have hs : isHighSurrogate high = true := by
    simp only [isHighSurrogate, Bool.and_eq_true, decide_eq_true_eq]
    omega
  have ht : isLowSurrogate low = true := by
    simp only [isLowSurrogate, Bool.and_eq_true, decide_eq_true_eq]
    omega
  have hv : (high - 0xD800) * 0x400 + (low - 0xDC00) + 0x10000 = c.toNat := by omega
  simp only [readUnicode, hh.readHex, hl.readHex, expectInPair, bind, Except.bind, hn, hs, ht, hv,
    Bool.false_eq_true, if_true, if_false, Char.ofNat_toNat]

theorem escaped?_letter {c d : Char} (h : (d, c) ∈ letterEscapes) :
    d ≠ 'u' ∧ escaped? d = some c := by
  have hall : ∀ p ∈ letterEscapes, p.1 ≠ 'u' ∧ escaped? p.1 = some p.2 := by decide
  exact hall _ h

theorem SpellsChar.readCharacter {c : Char} {spelling : List Char} (h : SpellsChar c spelling)
    (rest : List Char) : readCharacter (spelling ++ rest) = .ok (some c, rest) := by
  cases h with
  | plain hq hb hc => exact readCharacter_plain hq hb hc rest
  | letter hd =>
    obtain ⟨hu, he⟩ := escaped?_letter hd
    simp only [List.cons_append, List.nil_append, Json.readCharacter, readEscape_letter hu he,
      bind, Except.bind]
  | code hx =>
    simp only [List.cons_append, Json.readCharacter, readEscape, readUnicode_code hx, bind,
      Except.bind]
  | pair hh hl hhigh hlow hc =>
    have hr := readUnicode_pair hh hl hhigh hlow hc rest
    simp only [List.cons_append, List.append_assoc, Json.readCharacter, readEscape, hr, bind,
      Except.bind]

theorem SpellsText.readCharacters {cs body : List Char} (h : SpellsText cs body) {fuel : Nat}
    (hf : cs.length < fuel) (rest : List Char) :
    readCharacters fuel (body ++ '"' :: rest) = .ok (cs, rest) := by
  induction h generalizing fuel with
  | nil =>
    obtain ⟨fuel, rfl⟩ := exists_fuel_left hf
    rfl
  | cons hc _ ih =>
    obtain ⟨fuel, rfl⟩ := exists_fuel_left hf
    have hi := ih (Nat.lt_of_succ_lt_succ hf)
    rw [List.append_assoc]
    simp only [Json.readCharacters, hc.readCharacter, hi, bind, Except.bind]

theorem SpellsChar.length_pos {c : Char} {spelling : List Char} (h : SpellsChar c spelling) :
    0 < spelling.length := by
  cases h <;> exact Nat.zero_lt_succ _

theorem SpellsText.length_le {cs body : List Char} (h : SpellsText cs body) :
    cs.length ≤ body.length := by
  induction h with
  | nil => exact Nat.le_refl 0
  | cons hc _ ih =>
    have hp := hc.length_pos
    rw [List.length_append, List.length_cons]
    omega

theorem SpellsText.readText {s : String} {body : List Char} (h : SpellsText s.toList body)
    (rest : List Char) : readText (body ++ '"' :: rest) = .ok (s, rest) := by
  have hl : s.toList.length < (body ++ '"' :: rest).length + 1 := by
    have hb := h.length_le
    rw [List.length_append]
    omega
  simp only [Json.readText, h.readCharacters hl, bind, Except.bind, String.ofList_toList]

theorem skipEscape_code {n : Nat} {ds : List Char} (h : Hex n ds) (rest : List Char) :
    skipEscape ('u' :: (ds ++ rest)) = .ok rest := by
  simp only [skipEscape, h.readHex, bind, Except.bind]

theorem skipEscape_letter {d : Char} (hu : d ≠ 'u') (he : (escaped? d).isSome) (rest : List Char) :
    skipEscape (d :: rest) = .ok rest := by
  rw [skipEscape.eq_def]
  split
  case h_1 h => cases h
  case h_2 h => cases h; exact absurd rfl hu
  case h_3 h => cases h; rw [if_pos he]

theorem skipCharacters_plain {c : Char} (hq : c ≠ '"') (hb : c ≠ '\\') (hc : ¬c.toNat < 0x20)
    (fuel : Nat) (rest : List Char) :
    skipCharacters (fuel + 1) (c :: rest) = skipCharacters fuel rest := by
  rw [skipCharacters.eq_def]
  split
  case h_1 h => cases h
  case h_2 h => cases h
  case h_3 h => cases h; exact absurd rfl hq
  case h_4 h => cases h; exact absurd rfl hb
  case h_5 h he => cases h; cases he; rw [if_neg hc]

/-- A pair of halves takes two rounds, any other spelling takes one. -/
theorem SpellsChar.skipCharacters {c : Char} {spelling : List Char} (h : SpellsChar c spelling)
    {fuel : Nat} (rest : List Char) (hf : spelling.length ≤ fuel) :
    ∃ left, fuel ≤ left + spelling.length ∧
      skipCharacters fuel (spelling ++ rest) = skipCharacters left rest := by
  cases h with
  | plain hq hb hc =>
    obtain ⟨fuel, rfl⟩ := exists_fuel_left hf
    exact ⟨fuel, Nat.le_refl _, skipCharacters_plain hq hb hc fuel rest⟩
  | letter hd =>
    obtain ⟨fuel, rfl⟩ := Nat.exists_eq_add_of_le hf
    obtain ⟨hu, he⟩ := escaped?_letter hd
    have hs := skipEscape_letter hu (he ▸ rfl) rest
    refine ⟨fuel + 1, by simp only [List.length_cons, List.length_nil]; omega, ?_⟩
    rw [Nat.add_comm]
    simp only [List.length_cons, List.length_nil, List.cons_append, List.nil_append,
      Json.skipCharacters, hs, bind, Except.bind]
  | code hx =>
    obtain ⟨fuel, rfl⟩ := exists_fuel_left hf
    refine ⟨fuel, by simp only [List.length_cons]; omega, ?_⟩
    simp only [List.cons_append, Json.skipCharacters, skipEscape_code hx, bind, Except.bind]
  | pair hh hl _ _ _ =>
    simp only [List.length_cons, List.length_append] at hf
    obtain ⟨fuel, rfl⟩ := Nat.exists_eq_add_of_le' (show 2 ≤ fuel by omega)
    refine ⟨fuel, by simp only [List.length_cons, List.length_append]; omega, ?_⟩
    simp only [List.cons_append, List.append_assoc, Json.skipCharacters, skipEscape_code hh,
      skipEscape_code hl, bind, Except.bind]

theorem SpellsText.skipCharacters {cs body : List Char} (h : SpellsText cs body) {fuel : Nat}
    (hf : body.length < fuel) (rest : List Char) :
    skipCharacters fuel (body ++ '"' :: rest) = .ok rest := by
  induction h generalizing fuel with
  | nil =>
    obtain ⟨fuel, rfl⟩ := exists_fuel_left hf
    rfl
  | @cons _ _ spelling body hc _ ih =>
    rw [List.length_append] at hf
    have hspelling : spelling.length ≤ fuel := by omega
    obtain ⟨left, hl, hs⟩ := hc.skipCharacters (body ++ '"' :: rest) hspelling
    rw [List.append_assoc, hs]
    exact ih (by omega)

theorem SpellsText.skipText {cs body : List Char} (h : SpellsText cs body) (rest : List Char) :
    skipText (body ++ '"' :: rest) = .ok rest :=
  h.skipCharacters (by rw [List.length_append]; omega) rest

end Strings

section Numbers

theorem Numeral.toDigits {ds : List Char} (h : Numeral ds) : Digits ds := ⟨h.nonempty, h.digits⟩

theorem Digits.opens {ds : List Char} (h : Digits ds) : ∃ c cs, ds = c :: cs ∧ c.isDigit := by
  obtain ⟨hne, hd⟩ := h
  cases ds with
  | nil => exact absurd rfl hne
  | cons c cs => exact ⟨c, cs, rfl, hd c List.mem_cons_self⟩

theorem Digits.startsWithDigit {ds : List Char} (h : Digits ds) (rest : List Char) :
    startsWithDigit (ds ++ rest) = true := by
  obtain ⟨c, cs, rfl, hc⟩ := h.opens
  exact hc

theorem skipDigits_append {ds rest : List Char} (hd : ∀ c ∈ ds, c.isDigit)
    (hr : startsWithDigit rest = false) : skipDigits (ds ++ rest) = rest := by
  rw [skipDigits, List.dropWhile_append_of_pos hd]
  cases rest with
  | nil => rfl
  | cons c rest =>
    have hc : c.isDigit = false := hr
    simp [hc]

theorem takeWhile_digits_append {ds rest : List Char} (hd : ∀ c ∈ ds, c.isDigit)
    (hr : startsWithDigit rest = false) : (ds ++ rest).takeWhile Char.isDigit = ds := by
  rw [List.takeWhile_append_of_pos hd]
  cases rest with
  | nil => simp
  | cons c rest =>
    have hc : c.isDigit = false := hr
    simp [hc]

/-- What may follow the whole part of a number, and what may follow its fraction. -/
theorem startsWithDigit_exponent {exponent rest : List Char} (he : Exponent exponent)
    (hr : Delimited rest) : startsWithDigit (exponent ++ rest) = false := by
  cases he with
  | none => exact hr.startsWithDigit
  | mark hc _ _ => rcases hc with rfl | rfl <;> rfl

theorem startsWithDigit_fraction {fraction exponent rest : List Char} (hf : Fraction fraction)
    (he : Exponent exponent) (hr : Delimited rest) :
    startsWithDigit (fraction ++ (exponent ++ rest)) = false := by
  cases hf with
  | none =>
    rw [List.nil_append]
    exact startsWithDigit_exponent he hr
  | point _ => rfl

theorem no_point {exponent rest : List Char} (he : Exponent exponent) (hr : Delimited rest)
    (tail : List Char) : exponent ++ rest ≠ '.' :: tail := by
  intro h
  cases he with
  | none => exact (hr '.' (by rw [← List.nil_append rest, h]; rfl)).2.1 rfl
  | mark hc _ _ => rcases hc with rfl | rfl <;> cases h

theorem exponentSign_append {sign ds : List Char} (hs : sign = [] ∨ sign = ['+'] ∨ sign = ['-'])
    (hd : Digits ds) (rest : List Char) :
    exponentSign (sign ++ (ds ++ rest)) = (decide (sign = ['-']), ds ++ rest) := by
  obtain ⟨c, cs, rfl, hc⟩ := hd.opens
  rcases hs with rfl | rfl | rfl
  · have hp : c ≠ '+' := by rintro rfl; cases hc
    have hm : c ≠ '-' := by rintro rfl; cases hc
    simp [exponentSign, hp, hm]
  · rfl
  · rfl

theorem skipScale_exponent {exponent rest : List Char} (he : Exponent exponent)
    (hr : Delimited rest) : skipScale (exponent ++ rest) = .ok rest := by
  cases he with
  | none =>
    cases rest with
    | nil => rfl
    | cons c rest => simp [skipScale, (hr c rfl).2.2]
  | @mark c sign ds hc hs hd =>
    have hm : isExponentMark c = true := by rcases hc with rfl | rfl <;> rfl
    have he := exponentSign_append hs hd rest
    have hk := skipDigits_append hd.digits hr.startsWithDigit
    simp only [List.cons_append, List.append_assoc, skipScale, hm, if_true, skipExponent, he,
      hd.startsWithDigit, hk]

theorem skipFraction_parts {fraction exponent rest : List Char} (hf : Fraction fraction)
    (he : Exponent exponent) (hr : Delimited rest) :
    skipFraction (fraction ++ (exponent ++ rest)) = .ok rest := by
  have hs := skipScale_exponent he hr
  cases hf with
  | none =>
    rw [List.nil_append, skipFraction.eq_def]
    split
    case h_1 h => exact absurd h (no_point he hr _)
    case h_2 => exact hs
  | @point ds hd =>
    have hk := skipDigits_append hd.digits (startsWithDigit_exponent he hr)
    simp only [List.cons_append, skipFraction, hd.startsWithDigit, if_true, hk, hs]

theorem skipNumber_parts {whole fraction exponent rest : List Char} (hw : Numeral whole)
    (hf : Fraction fraction) (he : Exponent exponent) (hr : Delimited rest) :
    skipNumber (whole ++ (fraction ++ (exponent ++ rest))) = .ok rest := by
  have hs := skipFraction_parts hf he hr
  have ht := startsWithDigit_fraction hf he hr
  have hk := skipDigits_append hw.digits ht
  have hd := hw.toDigits.startsWithDigit (fraction ++ (exponent ++ rest))
  obtain ⟨c, cs, rfl, -⟩ := hw.toDigits.opens
  by_cases h0 : c = '0'
  · subst c
    obtain rfl : cs = [] := List.tail_eq_of_cons_eq (hw.noLeadingZero rfl)
    simp only [List.cons_append, List.nil_append, skipNumber, ht, Bool.false_eq_true, if_false, hs]
  · rw [skipNumber.eq_def]
    split
    case h_1 h => cases h; exact absurd rfl h0
    case h_2 => rw [if_pos hd, hk, hs]

/-- The reader takes exactly the text, with a result that what follows has no part in. -/
def Takes {α : Type} (read : Reader α) (text : List Char) : Prop :=
  ∃ result : Except Reason α, ∀ rest, Delimited rest →
    (read (text ++ rest)).mapError Fault.reason = result.map fun a => (a, rest)

theorem takes_finishFloat (negative : Bool) (significand : Nat) (exponent : Int) :
    Takes (finishFloat negative significand exponent) [] := by
  cases h : scaleFloat 3 (UInt64.ofNat significand).toFloat exponent with
  | none => exact ⟨.error .numberOutOfRange, fun rest _ => by simp [finishFloat, h]; rfl⟩
  | some x => exact ⟨.ok (.float (signed negative x)), fun rest _ => by simp [finishFloat, h]; rfl⟩

/-- Digits are taken up to the limit, and those that are left are digits still. -/
theorem takeDigits_digits (limit : Nat) {ds : List Char} (hd : ∀ c ∈ ds, c.isDigit) (n taken : Nat) :
    ∃ m k more, (∀ c ∈ more, c.isDigit) ∧ ∀ rest, startsWithDigit rest = false →
      takeDigits limit n taken (ds ++ rest) = (m, k, more ++ rest) := by
  induction ds generalizing n taken with
  | nil =>
    refine ⟨n, taken, [], nofun, fun rest hr => ?_⟩
    cases rest with
    | nil => rfl
    | cons c rest =>
      have hc : c.isDigit = false := hr
      simp [takeDigits, hc]
  | cons c ds ih =>
    have hc : c.isDigit = true := hd c List.mem_cons_self
    by_cases hl : 10 * n + digitValue c < limit
    · obtain ⟨m, k, more, hm, ht⟩ :=
        ih (fun x hx => hd x (List.mem_cons_of_mem c hx)) (10 * n + digitValue c) (taken + 1)
      exact ⟨m, k, more, hm, fun rest hr => by simp [takeDigits, hc, hl, ht rest hr]⟩
    · exact ⟨n, taken, c :: ds, hd, fun rest _ => by simp [takeDigits, hc, hl]⟩

theorem takes_readExponent (negative : Bool) (significand : Nat) (start : Int) {sign ds : List Char}
    (hs : sign = [] ∨ sign = ['+'] ∨ sign = ['-']) (hd : Digits ds) :
    Takes (readExponent negative significand start) (sign ++ ds) := by
  obtain ⟨size, k, more, hm, ht⟩ := takeDigits_digits exponentLimit hd.digits 0 0
  obtain ⟨c, cs, hc, hdigit⟩ := hd.opens
  have hread : ∀ rest, Delimited rest →
      readExponent negative significand start (sign ++ ds ++ rest) =
        if startsWithDigit (more ++ rest) then
          if significand ≠ 0 && !decide (sign = ['-']) then
            .error (.atNext .numberOutOfRange (more ++ rest))
          else .ok (.float (signed negative 0), skipDigits (more ++ rest))
        else finishFloat negative significand
          (if decide (sign = ['-']) then start - size else start + size) (more ++ rest) := by
    intro rest hr
    have he := exponentSign_append hs hd rest
    have ht := ht rest hr.startsWithDigit
    rw [hc, List.cons_append] at he ht
    rw [hc, List.append_assoc, List.cons_append]
    simp only [readExponent, he, hdigit, if_true, ht]
  cases more with
  | nil =>
    obtain ⟨result, hf⟩ := takes_finishFloat negative significand
      (if decide (sign = ['-']) then start - size else start + size)
    refine ⟨result, fun rest hr => ?_⟩
    rw [hread rest hr, List.nil_append, hr.startsWithDigit]
    exact hf rest hr
  | cons d more =>
    have hstart : ∀ rest, startsWithDigit (d :: more ++ rest) = true := fun _ =>
      hm d List.mem_cons_self
    by_cases ho : (significand ≠ 0 && !decide (sign = ['-'])) = true
    · refine ⟨.error .numberOutOfRange, fun rest hr => ?_⟩
      rw [hread rest hr, if_pos (hstart rest), if_pos ho]
      rfl
    · refine ⟨.ok (.float (signed negative 0)), fun rest hr => ?_⟩
      rw [hread rest hr, if_pos (hstart rest), if_neg ho, skipDigits_append hm hr.startsWithDigit]
      rfl

theorem takes_readScale (negative : Bool) (significand : Nat) (start : Int) {exponent : List Char}
    (he : Exponent exponent) : Takes (readScale negative significand start) exponent := by
  cases he with
  | none =>
    obtain ⟨result, hf⟩ := takes_finishFloat negative significand start
    refine ⟨result, fun rest hr => ?_⟩
    rw [← hf rest hr]
    cases rest with
    | nil => rfl
    | cons c rest => simp [readScale, (hr c rfl).2.2]
  | @mark c sign ds hc hs hd =>
    have hm : isExponentMark c = true := by rcases hc with rfl | rfl <;> rfl
    obtain ⟨result, hr⟩ := takes_readExponent negative significand start hs hd
    refine ⟨result, fun rest hrest => ?_⟩
    rw [← hr rest hrest, List.cons_append, readScale, if_pos hm]

theorem takes_readFraction (negative : Bool) (significand : Nat) (start : Int)
    {ds exponent : List Char} (hd : Digits ds) (he : Exponent exponent) :
    Takes (readFraction negative significand start) (ds ++ exponent) := by
  obtain ⟨m, k, more, hm, ht⟩ := takeDigits_digits significandLimit hd.digits significand 0
  obtain ⟨result, hs⟩ := takes_readScale negative m (start - k) he
  refine ⟨result, fun rest hr => ?_⟩
  have hstart := startsWithDigit_exponent he hr
  rw [← hs rest hr, List.append_assoc, readFraction, if_pos (hd.startsWithDigit _), ht _ hstart]
  simp only [skipDigits_append hm hstart]

/-- What follows the digits that fit: those that did not, the fraction and the exponent. -/
theorem takes_readAfterDigits (negative : Bool) (significand : Nat) {more fraction exponent : List Char}
    (hm : ∀ c ∈ more, c.isDigit) (hf : Fraction fraction) (he : Exponent exponent) :
    Takes (readAfterDigits negative significand) (more ++ (fraction ++ exponent)) := by
  have hsplit : ∀ rest, Delimited rest →
      (more ++ (fraction ++ (exponent ++ rest))).takeWhile Char.isDigit = more ∧
        skipDigits (more ++ (fraction ++ (exponent ++ rest))) = fraction ++ (exponent ++ rest) :=
    fun rest hr =>
      have hs := startsWithDigit_fraction hf he hr
      ⟨takeWhile_digits_append hm hs, skipDigits_append hm hs⟩
  cases hf with
  | @point ds hd =>
    obtain ⟨result, hr⟩ := takes_readFraction negative significand more.length hd he
    refine ⟨result, fun rest hrest => ?_⟩
    obtain ⟨ht, hk⟩ := hsplit rest hrest
    rw [← hr rest hrest, List.append_assoc, List.append_assoc, List.append_assoc, readAfterDigits]
    simp only [List.cons_append] at ht hk ⊢
    simp only [ht, hk]
  | none =>
    obtain ⟨result, hr⟩ := takes_readScale negative significand more.length he
    -- Without more digits and without an exponent the number is a whole one.
    by_cases hw : more = [] ∧ exponent = []
    · obtain ⟨rfl, rfl⟩ := hw
      refine ⟨.ok (wholeNumber negative significand), fun rest hrest => ?_⟩
      exact congrArg _ (readAfterDigits_delimited negative significand hrest)
    · refine ⟨result, fun rest hrest => ?_⟩
      obtain ⟨ht, hk⟩ := hsplit rest hrest
      have hscale : (!more.isEmpty || (exponent ++ rest).head?.any isExponentMark) = true := by
        cases he with
        | none =>
          have hne : more ≠ [] := fun hmore => hw ⟨hmore, rfl⟩
          simp [hne]
        | mark hc _ _ => rcases hc with rfl | rfl <;> simp [isExponentMark]
      have hpoint := no_point he hrest
      rw [List.nil_append] at ht hk
      rw [← hr rest hrest, List.nil_append, List.append_assoc, readAfterDigits]
      simp only [ht, hk]
      rw [if_pos hscale]

theorem takes_readNumber (negative : Bool) {whole fraction exponent : List Char} (hw : Numeral whole)
    (hf : Fraction fraction) (he : Exponent exponent) :
    Takes (readNumber negative) (whole ++ (fraction ++ exponent)) := by
  obtain ⟨c, cs, hc, hdigit⟩ := hw.toDigits.opens
  by_cases h0 : c = '0'
  · subst hc h0
    obtain rfl : cs = [] := List.tail_eq_of_cons_eq (hw.noLeadingZero rfl)
    have hnone : ∀ c ∈ ([] : List Char), c.isDigit := nofun
    obtain ⟨result, hr⟩ := takes_readAfterDigits negative 0 hnone hf he
    refine ⟨result, fun rest hrest => ?_⟩
    have hs := startsWithDigit_fraction hf he hrest
    rw [← hr rest hrest]
    simp only [List.cons_append, List.nil_append, List.append_assoc, readNumber, hs,
      Bool.false_eq_true, if_false]
  · obtain ⟨m, k, more, hm, ht⟩ := takeDigits_digits significandLimit hw.digits 0 0
    obtain ⟨result, hr⟩ := takes_readAfterDigits negative m hm hf he
    refine ⟨result, fun rest hrest => ?_⟩
    have ht := ht _ (startsWithDigit_fraction hf he hrest)
    rw [← hr rest hrest, List.append_assoc, List.append_assoc, List.append_assoc, List.append_assoc]
    rw [hc, List.cons_append] at ht ⊢
    rw [readNumber.eq_def]
    split
    case h_1 h => cases h
    case h_2 h => cases h; exact absurd rfl h0
    case h_3 h => cases h; simp only [hdigit, if_true, ht]

theorem NumberText.opens {text : List Char} (h : NumberText text) :
    ∃ c cs, text = c :: cs ∧ (c = '-' ∨ c.isDigit) := by
  obtain ⟨negative, hw, -, -⟩ := h
  obtain ⟨c, cs, rfl, hc⟩ := hw.toDigits.opens
  cases negative with
  | true => exact ⟨'-', _, rfl, .inl rfl⟩
  | false => exact ⟨c, _, rfl, .inr hc⟩

/-- What opens a number opens nothing else, ends nothing and is no blank. -/
structure NumberStart (c : Char) : Prop where
  notBlank : isBlank c = false
  notQuote : c ≠ '"'
  notNull : c ≠ 'n'
  notBracket : c ≠ '['
  notBrace : c ≠ '{'
  notClosing : c ≠ ']'

theorem numberStart {c : Char} (hc : c = '-' ∨ c.isDigit) : NumberStart c := by
  have hne : ∀ d, d ≠ '-' → d.isDigit = false → c ≠ d := by
    rintro d hd hdigit rfl
    rcases hc with hc | hc
    · exact hd hc
    · rw [hdigit] at hc
      cases hc
  have hb : isBlank c = false := by simp [isBlank, hne]
  refine ⟨hb, hne _ ?_ ?_, hne _ ?_ ?_, hne _ ?_ ?_, hne _ ?_ ?_, hne _ ?_ ?_⟩ <;> decide

theorem readFound_minus (negative : Bool) {ds : List Char} (h : Digits ds) (rest : List Char) :
    readFound (minus negative ++ (ds ++ rest)) = readNumber negative (ds ++ rest) := by
  cases negative with
  | true => rfl
  | false =>
    obtain ⟨c, cs, rfl, hc⟩ := h.opens
    exact readFound_digit hc _

theorem NumberText.takes {text : List Char} (h : NumberText text) : Takes readFound text := by
  obtain ⟨negative, hw, hf, he⟩ := h
  obtain ⟨result, hr⟩ := takes_readNumber negative hw hf he
  refine ⟨result, fun rest hrest => ?_⟩
  rw [← hr rest hrest, List.append_assoc, List.append_assoc, readFound_minus negative hw.toDigits]

end Numbers

end ExampleTests.Json
