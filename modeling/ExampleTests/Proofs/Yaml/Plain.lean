import ExampleTests.Proofs.Json.Number
import ExampleTests.Proofs.Yaml.Unquoted
import ExampleTests.Yaml.Plain

/-! Literals that a plain scalar gives back with the text that they were written with.
Integers are among them. -/

namespace ExampleTests.Yaml.Plain

open Json (Numeral numeral_repr repr_opens repr_toList)

/-- The literal that a plain scalar of this text stands for, if it stands for one. -/
def literal? (text : String) : Option Value := Value.ofFound? (resolve text.toList)

/-- A plain scalar of this text stands for a literal that is written with it. -/
def KeepsSpelling (text : String) : Prop := (literal? text).map Value.render = some text

instance (text : String) : Decidable (KeepsSpelling text) :=
  inferInstanceAs (Decidable (_ = _))

/-- What a number begins with. -/
def OpensNumber (text : List Char) : Prop :=
  ∃ c cs, text = c :: cs ∧ (c = '-' ∨ c.isDigit = true)

theorem contains_ofList {words : List String} {text : List Char}
    (h : ∀ w ∈ words, w.toList.head? ≠ text.head?) : words.contains (String.ofList text) = false := by
  rw [Bool.eq_false_iff, Ne, List.contains_iff_mem]
  intro hm
  exact h _ hm (by rw [String.toList_ofList])

/-- Words that begin with neither a sign nor a digit are no number. -/
theorem OpensNumber.not_word {text : List Char} (h : OpensNumber text) (words : List String)
    (hw : words.all (fun w => w.toList.head?.any fun c => c != '-' && !c.isDigit) = true) :
    words.contains (String.ofList text) = false := by
  obtain ⟨c, cs, rfl, hc⟩ := h
  refine contains_ofList fun w hm he => ?_
  have hn := List.all_eq_true.mp hw w hm
  rw [he] at hn
  rcases hc with rfl | hc <;> simp_all

theorem OpensNumber.not_boolean {text : List Char} (h : OpensNumber text) : boolean? text = none := by
  have ht := h.not_word ["true", "True", "TRUE"] (by decide)
  have hf := h.not_word ["false", "False", "FALSE"] (by decide)
  simp only [boolean?, ht, hf, Bool.false_eq_true, if_false]

theorem OpensNumber.resolve_eq {text : List Char} (h : OpensNumber text) {found : Found}
    (hf : (if let some w := word? text then .integer w
      else if let some x := (if hasLeadingZero text then none else float? text) then .float x
      else .text (String.ofList text)) = found) : resolve text = found := by
  have he : text.isEmpty = false := by
    obtain ⟨c, cs, rfl, -⟩ := h
    rfl
  have hn : isNull text = false := h.not_word _ (by decide)
  unfold resolve
  rw [he, hn, h.not_boolean]
  exact hf

section Numbers

theorem digit_ne {c d : Char} (hc : c.isDigit = true) (hd : d.isDigit = false) : c ≠ d := by
  rintro rfl
  rw [hc] at hd
  cases hd

theorem not_isSpace_digit {c : Char} (h : c.isDigit = true) : isSpace c = false := by
  simp only [isSpace, isBlank, isBreak, Bool.or_eq_false_iff, decide_eq_false_iff_not]
  refine ⟨⟨?_, ?_⟩, ⟨⟨⟨?_, ?_⟩, ?_⟩, ?_⟩, ?_⟩ <;> exact digit_ne h (by decide)

theorem isSolid_digit {c : Char} (h : c.isDigit = true) : isSolid c = true := by
  have hallowed : isAllowed c = true := by
    have hdigit : 48 ≤ c.toNat ∧ c.toNat ≤ 57 := Char.isDigit_iff_toNat.mp h
    have hrange : 0x20 ≤ c.toNat ∧ c.toNat ≤ 0x7E := by omega
    simp [isAllowed, hrange]
  simp [isSolid, hallowed, not_isSpace_digit h, digit_ne h]

theorem startsPlain_digit {c : Char} (h : c.isDigit = true) (rest : List Char) :
    startsPlain (c :: rest) = true := by
  have hindicators : Stream.indicators.contains c = false := by
    rw [Bool.eq_false_iff, Ne, List.contains_iff_mem]
    intro hm
    have hnot : Stream.indicators.all (fun d => !d.isDigit) = true := by decide
    have hc := List.all_eq_true.mp hnot c hm
    rw [h] at hc
    cases hc
  rw [startsPlain, not_isSpace_digit h, hindicators]
  rfl

/-- Digits with points among them, after a sign or without one. -/
def IsNumber (text : List Char) : Prop :=
  ∃ c cs, c.isDigit = true ∧ (∀ d ∈ cs, d.isDigit = true ∨ d = '.') ∧
    (text = c :: cs ∨ text = '-' :: c :: cs)

variable {text : List Char}

theorem IsNumber.opens (h : IsNumber text) : OpensNumber text := by
  obtain ⟨c, cs, hc, -, rfl | rfl⟩ := h
  · exact ⟨c, cs, rfl, .inr hc⟩
  · exact ⟨'-', c :: cs, rfl, .inl rfl⟩

theorem IsNumber.isQuiet (h : IsNumber text) : ∀ d ∈ text, isQuiet d = true ∧ isSolid d = true := by
  have hdigit : ∀ {d : Char}, d.isDigit = true → Yaml.isQuiet d = true ∧ isSolid d = true := by
    intro d hd
    have hs := isSolid_digit hd
    exact ⟨by simp [Yaml.isQuiet, hs, digit_ne hd], hs⟩
  obtain ⟨c, cs, hc, hs, ht⟩ := h
  have htext : ∀ d ∈ c :: cs, Yaml.isQuiet d = true ∧ isSolid d = true := by
    intro d hd
    rcases List.mem_cons.mp hd with rfl | hd
    · exact hdigit hc
    · rcases hs d hd with hd | rfl
      · exact hdigit hd
      · decide
  intro d hd
  rcases ht with rfl | rfl
  · exact htext d hd
  · rcases List.mem_cons.mp hd with rfl | hd
    · decide
    · exact htext d hd

theorem IsNumber.isPlain (h : IsNumber text) : IsPlain text := by
  have hstarts : startsPlain text = true := by
    obtain ⟨c, cs, hc, -, rfl | rfl⟩ := h
    · exact startsPlain_digit hc cs
    · simp [startsPlain, not_isSpace_digit hc]
      decide
  exact isPlain_of_solid hstarts fun d hd => (h.isQuiet d hd).2

end Numbers

section Integers

theorem digit?_ten {c : Char} (h : c.isDigit = true) : digit? 10 c = some (c.toNat - '0'.toNat) := by
  have h9 : c.toNat ≤ 57 := (Char.isDigit_iff_toNat.mp h).2
  simp [digit?, h]
  omega

theorem natural?_digits {ds : List Char} (hne : ds ≠ []) (hd : ∀ c ∈ ds, c.isDigit = true) :
    natural? 10 ds = some (Nat.ofDigitChars 10 ds 0) := by
  have hm : ds.mapM (digit? 10) = some (ds.map fun c => c.toNat - '0'.toNat) := by
    clear hne
    induction ds with
    | nil => rfl
    | cons c ds ih =>
      rw [List.mapM_cons, digit?_ten (hd c List.mem_cons_self),
        ih fun x hx => hd x (List.mem_cons_of_mem c hx)]
      rfl
  rw [natural?, List.isEmpty_eq_false_iff.mpr hne, hm]
  simp [Nat.ofDigitChars, List.foldl_map]

/-- Digits alone name no base. -/
theorem splitBase_digits {ds : List Char} (hd : ∀ c ∈ ds, c.isDigit = true) :
    splitBase ds = (10, ds) := by
  unfold splitBase
  split
  case h_1 => exact absurd (hd 'x' (by simp)) (by decide)
  case h_2 => exact absurd (hd 'o' (by simp)) (by decide)
  case h_3 => exact absurd (hd 'b' (by simp)) (by decide)
  case h_4 => rfl

theorem magnitude?_digits {ds : List Char} (hne : ds ≠ []) (hd : ∀ c ∈ ds, c.isDigit = true) :
    magnitude? ds = some (Nat.ofDigitChars 10 ds 0) := by
  rw [magnitude?, splitBase_digits hd]
  exact natural?_digits hne hd

theorem hasLeadingZero_numeral {ds : List Char} (h : Numeral ds) :
    hasLeadingZero ds = false ∧ hasLeadingZero ('-' :: ds) = false := by
  obtain ⟨hne, hdigits, hzero⟩ := h
  obtain ⟨c, ds, rfl⟩ := List.exists_cons_of_ne_nil hne
  have hc : c.isDigit = true := hdigits c List.mem_cons_self
  by_cases h0 : c = '0'
  · subst h0
    rw [List.tail_eq_of_cons_eq (hzero rfl)]
    decide
  · have hm : c ≠ '-' := by
      rintro rfl
      exact absurd hc (by decide)
    have hp : c ≠ '+' := by
      rintro rfl
      exact absurd hc (by decide)
    simp [hasLeadingZero, h0, hm, hp]

theorem integer?_numeral {ds : List Char} (h : Numeral ds) :
    integer? ds = some (Nat.ofDigitChars 10 ds 0 : Int) ∧
      integer? ('-' :: ds) = some (-(Nat.ofDigitChars 10 ds 0 : Int)) := by
  obtain ⟨hz, hzneg⟩ := hasLeadingZero_numeral h
  have hv := magnitude?_digits h.nonempty h.digits
  constructor
  · rw [integer?.eq_def, hz, if_neg Bool.false_ne_true]
    split
    case h_1 => exact absurd (h.digits '-' List.mem_cons_self) (by decide)
    case h_2 => exact absurd (h.digits '+' List.mem_cons_self) (by decide)
    case h_3 =>
      rw [hv]
      rfl
  · rw [integer?, hzneg, if_neg Bool.false_ne_true, hv]
    rfl

theorem integer?_repr (n : Int) : integer? n.repr.toList = some n := by
  obtain ⟨hpos, hneg⟩ := integer?_numeral (numeral_repr n.natAbs)
  rw [Nat.toList_repr, Nat.ofDigitChars_ten_toDigits, ← Nat.toList_repr] at hpos hneg
  rw [repr_toList]
  by_cases hn : n < 0
  · rw [if_pos hn, List.singleton_append, hneg]
    congr 1
    omega
  · rw [if_neg hn, List.nil_append, hpos]
    congr 1
    omega

/-- An integer of 64 bits has a word. -/
theorem exists_word (n : Int64) : ∃ w, Word.ofInt? n.toInt = some w ∧ w.toInt = n.toInt := by
  have hlo := n.minValue_le_toInt
  have hhi := n.toInt_le
  rw [Int64.toInt_minValue] at hlo
  rw [Int64.toInt_maxValue] at hhi
  by_cases hn : 0 ≤ n.toInt
  · have hs : n.toInt.natAbs < 1 <<< 64 := by omega
    refine ⟨.uint64 (UInt64.ofNat n.toInt.natAbs), by simp only [Word.ofInt?, hn, hs, if_true], ?_⟩
    rw [Word.toInt, UInt64.toNat_ofNat', Nat.mod_eq_of_lt (by omega)]
    omega
  · have hs : n.toInt.natAbs ≤ 1 <<< 63 := by omega
    refine ⟨.int64 (Int64.ofInt n.toInt), by simp only [Word.ofInt?, hn, hs, if_true, if_false], ?_⟩
    rw [Word.toInt, Int64.ofInt_toInt]

theorem literal?_integer (n : Int64) : literal? n.toInt.repr = some (.integer n) := by
  obtain ⟨w, hw, hv⟩ := exists_word n
  have hword : word? n.toInt.repr.toList = some w := by
    rw [word?, integer?_repr]
    exact hw
  have hresolve : resolve n.toInt.repr.toList = .integer w :=
    OpensNumber.resolve_eq (repr_opens n.toInt) (by rw [hword])
  rw [literal?, hresolve, Value.ofFound?, Value.ofWord_eq_ofInt, hv, Value.ofInt_toInt]

theorem isNumber_integer (n : Int) : IsNumber n.repr.toList := by
  obtain ⟨hne, hdigits, -⟩ := numeral_repr n.natAbs
  obtain ⟨c, cs, ht⟩ := List.exists_cons_of_ne_nil hne
  rw [ht] at hdigits
  refine ⟨c, cs, hdigits c List.mem_cons_self,
    fun d hd => .inl (hdigits d (List.mem_cons_of_mem c hd)), ?_⟩
  rw [repr_toList, ht]
  by_cases hn : n < 0
  · rw [if_pos hn]
    exact .inr rfl
  · rw [if_neg hn]
    exact .inl rfl

theorem keepsSpelling_integer (n : Int64) : KeepsSpelling n.toInt.repr := by
  rw [KeepsSpelling, literal?_integer]
  rfl

end Integers

end ExampleTests.Yaml.Plain
