import ExampleTests.Proofs.Json.Mending

/-! What numbers and words are taken for. A number that is read is one that is skipped,
and a scalar that is taken is one of the grammar. -/

namespace ExampleTests.Json

section Numbers

variable {rest rest' : List Char}

theorem exists_digits (h : startsWithDigit rest = true) :
    ∃ ds, Digits ds ∧ rest = ds ++ skipDigits rest := by
  refine ⟨rest.takeWhile Char.isDigit, ⟨?_, fun c hc => ?_⟩, List.takeWhile_append_dropWhile.symm⟩
  · cases rest with
    | nil => cases h
    | cons c rest =>
      have hc : c.isDigit = true := h
      rw [List.takeWhile_cons_of_pos hc]
      exact List.cons_ne_nil _ _
  · exact List.all_eq_true.mp List.all_takeWhile c hc

theorem exists_sign (rest : List Char) :
    ∃ sign, (sign = [] ∨ sign = ['+'] ∨ sign = ['-']) ∧ rest = sign ++ (exponentSign rest).2 := by
  rw [exponentSign.eq_def]
  split
  case h_1 => exact ⟨['+'], .inr (.inl rfl), rfl⟩
  case h_2 => exact ⟨['-'], .inr (.inr rfl), rfl⟩
  case h_3 => exact ⟨[], .inl rfl, rfl⟩

theorem skipScale_spelled (h : skipScale rest = .ok rest') :
    ∃ exponent, Exponent exponent ∧ rest = exponent ++ rest' := by
  cases rest with
  | nil => exact ⟨[], .none, Except.ok.inj h⟩
  | cons c rest =>
    rw [skipScale] at h
    split at h
    case isFalse => exact ⟨[], .none, Except.ok.inj h⟩
    case isTrue hc =>
      obtain ⟨sign, hs, hrest⟩ := exists_sign rest
      simp only [skipExponent] at h
      split at h
      case isFalse => cases h
      case isTrue hd =>
        obtain ⟨ds, hds, hdigits⟩ := exists_digits hd
        simp only [isExponentMark, Bool.or_eq_true, decide_eq_true_eq] at hc
        refine ⟨c :: (sign ++ ds), .mark hc hs hds, ?_⟩
        rw [List.cons_append, List.append_assoc, ← Except.ok.inj h, ← hdigits, ← hrest]

theorem skipFraction_spelled (h : skipFraction rest = .ok rest') :
    ∃ fraction exponent, Fraction fraction ∧ Exponent exponent ∧
      rest = fraction ++ (exponent ++ rest') := by
  rw [skipFraction.eq_def] at h
  split at h
  case h_1 rest =>
    split at h
    case isFalse => cases h
    case isTrue hd =>
      obtain ⟨ds, hds, hdigits⟩ := exists_digits hd
      obtain ⟨exponent, he, hrest⟩ := skipScale_spelled h
      refine ⟨'.' :: ds, exponent, .point hds, he, ?_⟩
      rw [List.cons_append, ← hrest, ← hdigits]
  case h_2 =>
    obtain ⟨exponent, he, hrest⟩ := skipScale_spelled h
    exact ⟨[], exponent, .none, he, hrest⟩

theorem NumberText.spells {text : List Char} (h : NumberText text) :
    Spells (.number (String.ofList text)) text := by
  have ht : (String.ofList text).toList = text := String.toList_ofList
  have hs := Spells.number (ht.symm ▸ h)
  rwa [ht] at hs

theorem skipNumber_spelled (h : skipNumber rest = .ok rest') (negative : Bool) :
    ∃ t text, Spells t text ∧ minus negative ++ rest = text ++ rest' := by
  have hparts : ∃ whole more, Numeral whole ∧ rest = whole ++ more ∧ skipFraction more = .ok rest' := by
    rw [skipNumber.eq_def] at h
    split at h
    case h_1 more =>
      split at h
      case isTrue => cases h
      case isFalse =>
        refine ⟨['0'], more, ⟨List.cons_ne_nil _ _, ?_, fun _ => rfl⟩, rfl, h⟩
        exact fun c hc => List.mem_singleton.mp hc ▸ rfl
    case h_2 hzero =>
      split at h
      case isFalse => cases h
      case isTrue hd =>
        obtain ⟨ds, hds, hdigits⟩ := exists_digits hd
        refine ⟨ds, skipDigits rest, ⟨hds.nonempty, hds.digits, fun h0 => ?_⟩, hdigits, h⟩
        obtain ⟨ds, rfl⟩ := List.head?_eq_some_iff.mp h0
        exact absurd hdigits (hzero _)
  obtain ⟨whole, more, hw, rfl, hmore⟩ := hparts
  obtain ⟨fraction, exponent, hf, he, rfl⟩ := skipFraction_spelled hmore
  exact ⟨_, _, (NumberText.parts negative hw hf he).spells, by simp only [List.append_assoc]⟩

theorem skipDigits_takeDigits (limit n taken : Nat) (rest : List Char) :
    skipDigits (takeDigits limit n taken rest).2.2 = skipDigits rest := by
  induction rest generalizing n taken with
  | nil => rfl
  | cons c rest ih =>
    simp only [takeDigits]
    split
    case isFalse => rfl
    case isTrue h =>
      rw [Bool.and_eq_true] at h
      rw [ih, skipDigits, skipDigits, List.dropWhile_cons_of_pos h.1]

theorem skipDigits_eq_self (h : startsWithDigit rest = false) : skipDigits rest = rest := by
  have hnone : ∀ c ∈ [], Char.isDigit c := nofun
  exact skipDigits_append hnone h

variable {negative : Bool} {significand : Nat} {start : Int} {found : Found}

theorem finishFloat_eq_ok (h : finishFloat negative significand start rest = .ok (found, rest')) :
    rest = rest' := by
  rw [finishFloat] at h
  split at h
  case h_1 => exact (Prod.mk.inj (Except.ok.inj h)).2
  case h_2 => cases h

theorem readExponent_skips (h : readExponent negative significand start rest = .ok (found, rest')) :
    skipExponent rest = .ok rest' := by
  simp only [readExponent] at h
  split at h
  case h_1 => cases h
  case h_2 c more hmore =>
    have hs := skipDigits_takeDigits exponentLimit 0 0 (exponentSign rest).2
    split at h
    case isFalse => cases h
    case isTrue hc =>
      have hd : startsWithDigit (exponentSign rest).2 = true := hmore ▸ hc
      simp only [skipExponent, hd, if_true]
      split at h
      case isTrue =>
        split at h
        case isTrue => cases h
        case isFalse =>
          rw [← hs, ← (Prod.mk.inj (Except.ok.inj h)).2]
      case isFalse hend =>
        rw [← hs, skipDigits_eq_self (Bool.eq_false_iff.mpr hend), finishFloat_eq_ok h]

theorem readScale_skips (h : readScale negative significand start rest = .ok (found, rest')) :
    skipScale rest = .ok rest' := by
  cases rest with
  | nil => exact congrArg Except.ok (finishFloat_eq_ok h)
  | cons c rest =>
    rw [readScale] at h
    rw [skipScale]
    split at h
    case isTrue hc => exact (if_pos hc).trans (readExponent_skips h)
    case isFalse hc => exact (if_neg hc).trans (congrArg Except.ok (finishFloat_eq_ok h))

theorem readFraction_skips (h : readFraction negative significand start rest = .ok (found, rest')) :
    skipFraction ('.' :: rest) = .ok rest' := by
  simp only [readFraction] at h
  split at h
  case isTrue hd =>
    rw [skipFraction, if_pos hd, ← skipDigits_takeDigits significandLimit significand 0]
    exact readScale_skips h
  case isFalse =>
    split at h <;> cases h

theorem readAfterDigits_skips (h : readAfterDigits negative significand rest = .ok (found, rest')) :
    skipFraction (skipDigits rest) = .ok rest' := by
  simp only [readAfterDigits] at h
  split at h
  case h_1 more hmore =>
    rw [hmore]
    exact readFraction_skips h
  case h_2 hpoint =>
    rw [skipFraction.eq_def]
    split
    case h_1 hmore => exact absurd hmore (hpoint _)
    case h_2 =>
      split at h
      case isTrue => exact readScale_skips h
      case isFalse hmark =>
        rw [Bool.or_eq_true, not_or] at hmark
        rw [← (Prod.mk.inj (Except.ok.inj h)).2]
        cases hs : skipDigits rest with
        | nil => rfl
        | cons c more =>
          rw [hs] at hmark
          exact if_neg hmark.2

theorem readNumber_skips (h : readNumber negative rest = .ok (found, rest')) :
    skipNumber rest = .ok rest' := by
  rw [readNumber.eq_def] at h
  rw [skipNumber.eq_def]
  split at h
  case h_1 => cases h
  case h_2 =>
    split at h
    case isTrue => cases h
    case isFalse hd =>
      have hs := readAfterDigits_skips h
      rw [skipDigits_eq_self (Bool.eq_false_iff.mpr hd)] at hs
      exact (if_neg hd).trans hs
  case h_3 c rest hzero =>
    split at h
    case isFalse => cases h
    case isTrue hc =>
      have hd := skipDigits_takeDigits significandLimit 0 0 (c :: rest)
      obtain ⟨⟨n, k, more⟩, ht⟩ : ∃ x, takeDigits significandLimit 0 0 (c :: rest) = x := ⟨_, rfl⟩
      rw [ht] at h hd
      have hs := hd ▸ readAfterDigits_skips h
      split
      case h_1 heq => exact absurd (List.cons.inj heq).1 hzero
      case h_2 => exact (if_pos hc).trans hs

end Numbers

section Scalars

variable {rest rest' : List Char}

theorem expectWord_eq_ok {word : List Char} (h : expectWord word rest = .ok rest') :
    rest = word ++ rest' := by
  induction word generalizing rest with
  | nil => exact Except.ok.inj h
  | cons w word ih =>
    cases rest with
    | nil => cases h
    | cons c rest =>
      rw [expectWord] at h
      split at h
      case isTrue hc => rw [hc, ih h, List.cons_append]
      case isFalse => cases h

/-- A scalar that is no string is skipped as its text. -/
theorem skipOpening_spelled (h : skipOpening rest = .ok (none, rest')) :
    (∃ tail, rest = '"' :: tail ∧ skipText tail = .ok rest') ∨
      ∃ t text, Spells t text ∧ rest = text ++ rest' := by
  rw [skipOpening.eq_def] at h
  split at h
  case h_1 | h_2 | h_3 => cases h
  case h_4 tail => exact .inl ⟨tail, rfl, (bind_pair_eq_ok.mp h).2⟩
  case h_5 =>
    have hw := expectWord_eq_ok (bind_pair_eq_ok.mp h).2
    exact .inr ⟨_, _, .null, congrArg ('n' :: ·) hw⟩
  case h_6 =>
    have hw := expectWord_eq_ok (bind_pair_eq_ok.mp h).2
    exact .inr ⟨_, _, .isTrue, congrArg ('t' :: ·) hw⟩
  case h_7 =>
    have hw := expectWord_eq_ok (bind_pair_eq_ok.mp h).2
    exact .inr ⟨_, _, .isFalse, congrArg ('f' :: ·) hw⟩
  case h_8 => exact .inr (skipNumber_spelled (bind_pair_eq_ok.mp h).2 true)
  case h_9 =>
    split at h
    case isFalse => cases h
    case isTrue => exact .inr (skipNumber_spelled (bind_pair_eq_ok.mp h).2 false)

theorem readFound_spelled {found : Found} (h : readFound rest = .ok (found, rest'))
    (ha : ∀ tail, rest ≠ '[' :: tail) (ho : ∀ tail, rest ≠ '{' :: tail) :
    ∃ t text, Spells t text ∧ rest = text ++ rest' := by
  rw [readFound.eq_def] at h
  split at h
  case h_1 => cases h
  case h_2 => exact absurd rfl (ha _)
  case h_3 => exact absurd rfl (ho _)
  case h_4 =>
    obtain ⟨⟨s, rest₁⟩, hs, h⟩ := bind_eq_ok.mp h
    cases h
    obtain ⟨body, hbody, rfl⟩ := readText_spelled hs
    exact ⟨_, _, .text hbody, framed_append _ _ _ _⟩
  case h_5 =>
    have hw := expectWord_eq_ok (bind_pair_eq_ok.mp h).2
    exact ⟨_, _, .null, congrArg ('n' :: ·) hw⟩
  case h_6 =>
    have hw := expectWord_eq_ok (bind_pair_eq_ok.mp h).2
    exact ⟨_, _, .isTrue, congrArg ('t' :: ·) hw⟩
  case h_7 =>
    have hw := expectWord_eq_ok (bind_pair_eq_ok.mp h).2
    exact ⟨_, _, .isFalse, congrArg ('f' :: ·) hw⟩
  case h_8 => exact skipNumber_spelled (readNumber_skips h) true
  case h_9 =>
    split at h
    case isFalse => cases h
    case isTrue => exact skipNumber_spelled (readNumber_skips h) false

end Scalars

end ExampleTests.Json
