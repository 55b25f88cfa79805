import ExampleTests.Json.Text

/-! Strings as they are written. Each character is escaped on its own and read
back on its own, so a written string is read up to the quote that closes it. -/

namespace ExampleTests.Json

theorem hexValue?_digitChar : ∀ d < 16, hexValue? (Nat.digitChar d) = some d := by decide

theorem hexValue?_hexDigit (n : Nat) : hexValue? (hexDigit n) = some (n % 16) :=
  hexValue?_digitChar (n % 16) (Nat.mod_lt n (by decide))

theorem length_le_byteCount (cs : List Char) : cs.length ≤ byteCount cs := by
  induction cs with
  | nil => exact Nat.le_refl 0
  | cons c cs ih =>
    have hc := c.utf8Size_pos
    simp only [byteCount, List.foldr_cons, List.length_cons] at ih ⊢
    omega

theorem readHex_digits {a b c d : Char} {i j k l : Nat} (ha : hexValue? a = some i)
    (hb : hexValue? b = some j) (hc : hexValue? c = some k) (hd : hexValue? d = some l)
    (rest : List Char) :
    readHex (a :: b :: c :: d :: rest) = .ok (((i * 16 + j) * 16 + k) * 16 + l, rest) := by
  have hl := length_le_byteCount (a :: b :: c :: d :: rest)
  simp only [List.length_cons] at hl
  simp only [readHex, ha, hb, hc, hd]
  rw [if_neg (by omega)]

theorem readEscape_control {c : Char} (h : c.toNat < 0x20) (rest : List Char) :
    readEscape ('u' :: '0' :: '0' :: hexDigit (c.toNat / 16) :: hexDigit c.toNat :: rest) =
      .ok (c, rest) := by
  have hn : ((0 * 16 + 0) * 16 + c.toNat / 16 % 16) * 16 + c.toNat % 16 = c.toNat := by omega
  have hz : hexValue? '0' = some 0 := by decide
  have hh := readHex_digits hz hz (hexValue?_hexDigit (c.toNat / 16)) (hexValue?_hexDigit c.toNat)
    rest
  have hlow : isLowSurrogate c.toNat = false := by simp [isLowSurrogate]; omega
  have hhigh : isHighSurrogate c.toNat = false := by simp [isHighSurrogate]; omega
  rw [hn] at hh
  simp [readEscape, readUnicode, hh, bind, Except.bind, hlow, hhigh, Char.ofNat_toNat]

/-- A character is escaped by a letter, by its number, or not at all. -/
theorem escapeChar_cases (c : Char) :
    (∃ d, d ≠ 'u' ∧ escaped? d = some c ∧ escapeChar c = ['\\', d]) ∨
    (c.toNat < 0x20 ∧
      escapeChar c = ['\\', 'u', '0', '0', hexDigit (c.toNat / 16), hexDigit c.toNat]) ∨
    (c ≠ '"' ∧ c ≠ '\\' ∧ ¬c.toNat < 0x20 ∧ escapeChar c = [c]) := by
  obtain ⟨text, ht⟩ : ∃ text, escapeChar c = text := ⟨_, rfl⟩
  rw [ht]
  unfold escapeChar at ht
  iterate 7
    split at ht
    case isTrue hc =>
      subst hc ht
      exact .inl ⟨_, by decide, rfl, rfl⟩
  split at ht
  case isTrue hc =>
    subst ht
    exact .inr (.inl ⟨hc, rfl⟩)
  case isFalse hq hb _ _ _ _ _ hc =>
    subst ht
    exact .inr (.inr ⟨hq, hb, hc, rfl⟩)

theorem readEscape_letter {c d : Char} (hd : d ≠ 'u') (h : escaped? d = some c)
    (rest : List Char) : readEscape (d :: rest) = .ok (c, rest) := by
  rw [readEscape.eq_def]
  split
  case h_1 => simp_all
  case h_2 hu => cases hu; exact absurd rfl hd
  case h_3 hu => cases hu; simp only [h]

theorem readCharacter_plain {c : Char} (hq : c ≠ '"') (hb : c ≠ '\\') (hc : ¬c.toNat < 0x20)
    (rest : List Char) : readCharacter (c :: rest) = .ok (some c, rest) := by
  rw [readCharacter.eq_def]
  split <;> simp_all

theorem readCharacter_escapeChar (c : Char) (rest : List Char) :
    readCharacter (escapeChar c ++ rest) = .ok (some c, rest) := by
  rcases escapeChar_cases c with ⟨d, hu, hd, he⟩ | ⟨hc, he⟩ | ⟨hq, hb, hc, he⟩
  · simp only [he, List.cons_append, List.nil_append, readCharacter, readEscape_letter hu hd,
      bind, Except.bind]
  · simp only [he, List.cons_append, List.nil_append, readCharacter, readEscape_control hc,
      bind, Except.bind]
  · rw [he]
    exact readCharacter_plain hq hb hc rest

theorem readCharacters_escape (cs rest : List Char) {fuel : Nat} (h : cs.length < fuel) :
    readCharacters fuel (cs.flatMap escapeChar ++ '"' :: rest) = .ok (cs, rest) := by
  induction cs generalizing fuel with
  | nil =>
    obtain ⟨fuel, rfl⟩ := Nat.exists_eq_add_one_of_ne_zero (Nat.ne_of_gt h)
    rfl
  | cons c cs ih =>
    obtain ⟨fuel, rfl⟩ := Nat.exists_eq_add_one_of_ne_zero (Nat.ne_of_gt (Nat.zero_lt_of_lt h))
    have hi := ih (Nat.lt_of_succ_lt_succ h)
    rw [List.flatMap_cons, List.append_assoc]
    simp only [readCharacters, readCharacter_escapeChar, hi, bind, Except.bind]

theorem escapeChar_ne_nil (c : Char) : escapeChar c ≠ [] := by
  rcases escapeChar_cases c with ⟨d, _, _, he⟩ | ⟨_, he⟩ | ⟨_, _, _, he⟩ <;> simp [he]

theorem length_le_length_escape (cs : List Char) :
    cs.length ≤ (cs.flatMap escapeChar).length := by
  induction cs with
  | nil => exact Nat.le_refl 0
  | cons c cs ih =>
    have hc := List.length_pos_iff.mpr (escapeChar_ne_nil c)
    rw [List.flatMap_cons, List.length_append, List.length_cons]
    omega

theorem writeText_append (s : String) (rest : List Char) :
    writeText s ++ rest = '"' :: (s.toList.flatMap escapeChar ++ '"' :: rest) := by
  simp [writeText]

theorem readText_escape (s : String) (rest : List Char) :
    readText (s.toList.flatMap escapeChar ++ '"' :: rest) = .ok (s, rest) := by
  have hl : s.toList.length < (s.toList.flatMap escapeChar ++ '"' :: rest).length + 1 := by
    have he := length_le_length_escape s.toList
    rw [List.length_append]
    omega
  simp only [readText, readCharacters_escape s.toList rest hl, bind, Except.bind,
    String.ofList_toList]

end ExampleTests.Json
