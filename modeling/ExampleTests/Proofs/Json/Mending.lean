import ExampleTests.Proofs.Json.Ignored
import ExampleTests.Proofs.Json.Integer

/-! What strings are taken for. A string that is read is one of the grammar. One that is
skipped may hold halves of surrogate pairs, and is one of the grammar when these are
put right. -/

namespace ExampleTests.Json

/-- Escapes of halves of surrogate pairs replaced by that of U+FFFD. -/
inductive Mends : List Char → List Char → Prop where
  | nil : Mends [] []
  | keep {cs ds : List Char} (c : Char) (h : Mends cs ds) : Mends (c :: cs) (c :: ds)
  | half {n : Nat} {xs cs ds : List Char} (hx : Hex n xs) (hn : 0xD800 ≤ n ∧ n < 0xE000)
      (h : Mends cs ds) : Mends ('\\' :: 'u' :: (xs ++ cs)) ('\\' :: 'u' :: 'f' :: 'f' :: 'f' :: 'd' :: ds)

theorem Mends.refl (cs : List Char) : Mends cs cs := by
  induction cs with
  | nil => exact .nil
  | cons c _ ih => exact .keep c ih

theorem Mends.append {cs ds cs' ds' : List Char} (h : Mends cs ds) (h' : Mends cs' ds') :
    Mends (cs ++ cs') (ds ++ ds') := by
  induction h with
  | nil => exact h'
  | keep c _ ih => exact .keep c ih
  | half hx hn _ ih =>
    rw [List.cons_append, List.cons_append, List.append_assoc]
    exact .half hx hn ih

theorem Mends.append_left (cs : List Char) {ds ds' : List Char} (h : Mends ds ds') :
    Mends (cs ++ ds) (cs ++ ds') := (Mends.refl cs).append h

theorem Mends.head?_eq {cs ds : List Char} (h : Mends cs ds) : cs.head? = ds.head? := by
  cases h <;> rfl

/-- A text that its mending makes one of a kind. -/
def Shown (kind : List Char → Prop) (text : List Char) : Prop :=
  ∃ mended, Mends text mended ∧ kind mended

theorem Shown.of {kind : List Char → Prop} {text : List Char} (h : kind text) : Shown kind text :=
  ⟨text, .refl text, h⟩

theorem framed_append (opening closing : Char) (text rest : List Char) :
    opening :: (text ++ closing :: rest) = opening :: (text ++ [closing]) ++ rest := by
  rw [List.cons_append, List.append_assoc, List.singleton_append]

/-- A bind succeeds where both of its parts do. -/
theorem bind_eq_ok {ε α β : Type} {x : Except ε α} {next : α → Except ε β} {b : β} :
    x >>= next = .ok b ↔ ∃ a, x = .ok a ∧ next a = .ok b := by
  cases x with
  | error e => exact ⟨nofun, nofun⟩
  | ok a => exact ⟨fun h => ⟨a, rfl, h⟩, fun ⟨_, ha, h⟩ => Except.ok.inj ha ▸ h⟩

theorem bind_pair_eq_ok {ε α β : Type} {x : Except ε α} {a : α} {b b' : β} :
    (x >>= fun a => Except.ok (b, a)) = .ok (b', a) ↔ b = b' ∧ x = .ok a := by
  rw [bind_eq_ok]
  constructor
  · rintro ⟨a, ha, h⟩
    cases h
    exact ⟨rfl, ha⟩
  · rintro ⟨rfl, ha⟩
    exact ⟨a, ha, rfl⟩

section Strings

variable {rest rest' : List Char}

theorem hexDigit_of_hexValue? {c : Char} {d : Nat} (h : hexValue? c = some d) : HexDigit d c := by
  have hlower : ∀ d < 16, 10 ≤ d → (Nat.digitChar d).toNat = d + 87 := by decide
  have hupper : ∀ d < 16, 10 ≤ d → (Nat.digitChar d).toUpper.toNat = d + 55 := by decide
  simp only [hexValue?, Char.le_def, UInt32.le_iff_toNat_le] at h
  split at h
  case isTrue hdigit =>
    obtain ⟨hd, hc⟩ := digitChar_digitValue hdigit
    cases h
    have hx := HexDigit.lower (Nat.lt_trans hd (by omega : 10 < 16))
    rwa [hc] at hx
  split at h
  case isTrue hc =>
    obtain ⟨lo, hi⟩ : 97 ≤ c.toNat ∧ c.toNat ≤ 102 := hc
    have hd : c.toNat - 97 + 10 = d := Option.some.inj h
    have ht : (Nat.digitChar d).toNat = c.toNat := by
      rw [hlower d (by omega) (by omega)]
      omega
    exact Char.toNat_inj.mp ht ▸ .lower (by omega)
  split at h
  case isTrue hc =>
    obtain ⟨lo, hi⟩ : 65 ≤ c.toNat ∧ c.toNat ≤ 70 := hc
    have hd : c.toNat - 65 + 10 = d := Option.some.inj h
    have ht : (Nat.digitChar d).toUpper.toNat = c.toNat := by
      rw [hupper d (by omega) (by omega)]
      omega
    exact Char.toNat_inj.mp ht ▸ .upper (by omega)
  case isFalse => cases h

theorem HexDigit.lt {d : Nat} {c : Char} (h : HexDigit d c) : d < 16 := by
  cases h <;> assumption

theorem Hex.lt {n : Nat} {ds : List Char} (h : Hex n ds) : n < 0x10000 := by
  obtain ⟨ha, hb, hc, hd⟩ := h
  have ha := ha.lt
  have hb := hb.lt
  have hc := hc.lt
  have hd := hd.lt
  omega

theorem readHex_spelled {n : Nat} (h : readHex rest = .ok (n, rest')) :
    ∃ ds, Hex n ds ∧ rest = ds ++ rest' := by
  rw [readHex] at h
  split at h
  case isTrue => cases h
  dsimp only at h
  split at h
  case h_2 => cases h
  split at h
  case h_2 => cases h
  case h_1 ha hb hc hd =>
    cases h
    exact ⟨_, .digits (hexDigit_of_hexValue? ha) (hexDigit_of_hexValue? hb)
      (hexDigit_of_hexValue? hc) (hexDigit_of_hexValue? hd), rfl⟩

theorem toNat_ofNat {n : Nat} (h : n.isValidChar) : (Char.ofNat n).toNat = n := by
  rw [Char.ofNat, dif_pos h]
  rfl

theorem Hex.spellsChar {n : Nat} {ds : List Char} (h : Hex n ds) (hn : ¬(0xD800 ≤ n ∧ n < 0xE000)) :
    SpellsChar (Char.ofNat n) ('\\' :: 'u' :: ds) := by
  have hlt := h.lt
  have hvalid : n.isValidChar := by
    simp only [Nat.isValidChar]
    omega
  exact .code ((toNat_ofNat hvalid).symm ▸ h)

theorem expectInPair_eq_ok {c : Char} (h : expectInPair c rest = .ok rest') : rest = c :: rest' := by
  cases rest with
  | nil => cases h
  | cons d rest =>
    rw [expectInPair] at h
    split at h
    case isTrue hd => rw [hd, Except.ok.inj h]
    case isFalse => cases h

theorem readUnicode_spelled {c : Char} (h : readUnicode rest = .ok (c, rest')) :
    ∃ spelling, SpellsChar c ('\\' :: 'u' :: spelling) ∧ rest = spelling ++ rest' := by
  rw [readUnicode, bind_eq_ok] at h
  obtain ⟨⟨n, rest₁⟩, hn, h⟩ := h
  obtain ⟨ds, hds, rfl⟩ := readHex_spelled hn
  dsimp only at h
  split at h
  case isTrue => cases h
  case isFalse hlow =>
  split at h
  case isTrue hhigh =>
    simp only [bind_eq_ok] at h
    obtain ⟨rest₂, hslash, rest₃, hu, ⟨low, rest₄⟩, hl, h⟩ := h
    obtain rfl := expectInPair_eq_ok hslash
    obtain rfl := expectInPair_eq_ok hu
    obtain ⟨es, hes, rfl⟩ := readHex_spelled hl
    dsimp only at h
    split at h
    case isFalse => cases h
    case isTrue hl =>
      obtain ⟨rfl, rfl⟩ := Prod.mk.inj (Except.ok.inj h)
      simp only [isHighSurrogate, isLowSurrogate, Bool.and_eq_true, decide_eq_true_eq] at hhigh hl
      have hvalid : ((n - 0xD800) * 0x400 + (low - 0xDC00) + 0x10000).isValidChar := by
        simp only [Nat.isValidChar]
        omega
      refine ⟨ds ++ '\\' :: 'u' :: es, .pair hds hes (by omega) (by omega) ?_, by simp⟩
      rw [toNat_ofNat hvalid]
      omega
  case isFalse hhigh =>
    cases h
    simp only [isHighSurrogate, isLowSurrogate, Bool.and_eq_true, decide_eq_true_eq] at hhigh hlow
    exact ⟨ds, hds.spellsChar (by omega), rfl⟩

theorem letter_of_escaped? {c d : Char} (h : escaped? d = some c) : (d, c) ∈ letterEscapes := by
  rw [escaped?.eq_def] at h
  split at h
  case h_9 => cases h
  all_goals
    cases h
    decide

theorem readEscape_spelled {c : Char} (h : readEscape rest = .ok (c, rest')) :
    ∃ spelling, SpellsChar c ('\\' :: spelling) ∧ rest = spelling ++ rest' := by
  rw [readEscape.eq_def] at h
  split at h
  case h_1 => cases h
  case h_2 =>
    obtain ⟨spelling, hs, rfl⟩ := readUnicode_spelled h
    exact ⟨'u' :: spelling, hs, rfl⟩
  case h_3 d rest _ =>
    split at h
    case h_2 => cases h
    case h_1 hd =>
      cases h
      exact ⟨[d], .letter (letter_of_escaped? hd), rfl⟩

theorem readCharacter_spelled {o : Option Char} (h : readCharacter rest = .ok (o, rest')) :
    match o with
    | none => rest = '"' :: rest'
    | some c => ∃ spelling, SpellsChar c spelling ∧ rest = spelling ++ rest' := by
  rw [readCharacter.eq_def] at h
  split at h
  case h_1 => cases h
  case h_2 =>
    cases h
    rfl
  case h_3 =>
    obtain ⟨⟨c, rest₁⟩, hc, h⟩ := bind_eq_ok.mp h
    cases h
    obtain ⟨spelling, hs, rfl⟩ := readEscape_spelled hc
    exact ⟨'\\' :: spelling, hs, rfl⟩
  case h_4 c rest hq hb _ =>
    split at h
    case isTrue => cases h
    case isFalse hc =>
      cases h
      exact ⟨[c], .plain hq hb hc, rfl⟩

theorem readCharacters_spelled {fuel : Nat} {cs : List Char}
    (h : readCharacters fuel rest = .ok (cs, rest')) :
    ∃ body, SpellsText cs body ∧ rest = body ++ '"' :: rest' := by
  induction fuel generalizing rest cs with
  | zero => cases h
  | succ fuel ih =>
    obtain ⟨⟨o, rest₁⟩, ho, h⟩ := bind_eq_ok.mp h
    have hs := readCharacter_spelled ho
    cases o with
    | none =>
      cases h
      exact ⟨[], .nil, hs⟩
    | some c =>
      obtain ⟨⟨cs, rest₂⟩, hcs, h⟩ := bind_eq_ok.mp h
      cases h
      obtain ⟨spelling, hc, rfl⟩ := hs
      obtain ⟨body, hbody, rfl⟩ := ih hcs
      exact ⟨spelling ++ body, .cons hc hbody, (List.append_assoc _ _ _).symm⟩

theorem readText_spelled {s : String} (h : readText rest = .ok (s, rest')) :
    ∃ body, SpellsText s.toList body ∧ rest = body ++ '"' :: rest' := by
  obtain ⟨⟨cs, rest₁⟩, hcs, h⟩ := bind_eq_ok.mp h
  cases h
  rw [String.toList_ofList]
  exact readCharacters_spelled hcs

theorem Hex.mends {n : Nat} {ds : List Char} (h : Hex n ds) :
    ∃ mended c, Mends ('\\' :: 'u' :: ds) mended ∧ SpellsChar c mended := by
  by_cases hn : 0xD800 ≤ n ∧ n < 0xE000
  · -- A half is put right even where the other half follows, as the skipper sees one at a time.
    have hm := Mends.half h hn .nil
    rw [List.append_nil] at hm
    have hf : HexDigit 15 'f' := .lower (by omega)
    have hd : HexDigit 13 'd' := .lower (by omega)
    exact ⟨_, '\uFFFD', hm, .code (.digits hf hf hf hd)⟩
  · exact ⟨_, Char.ofNat n, .refl _, h.spellsChar hn⟩

theorem skipEscape_mends (h : skipEscape rest = .ok rest') :
    ∃ spelling mended c, Mends ('\\' :: spelling) mended ∧ SpellsChar c mended ∧
      rest = spelling ++ rest' := by
  rw [skipEscape.eq_def] at h
  split at h
  case h_1 => cases h
  case h_2 =>
    obtain ⟨⟨n, rest₁⟩, hn, h⟩ := bind_eq_ok.mp h
    cases h
    obtain ⟨ds, hds, rfl⟩ := readHex_spelled hn
    obtain ⟨mended, c, hm, hc⟩ := hds.mends
    exact ⟨'u' :: ds, mended, c, hm, hc, rfl⟩
  case h_3 d rest _ =>
    split at h
    case isFalse => cases h
    case isTrue hd =>
      cases h
      obtain ⟨c, hc⟩ := Option.isSome_iff_exists.mp hd
      exact ⟨[d], _, c, .refl _, .letter (letter_of_escaped? hc), rfl⟩

theorem skipCharacters_shown {fuel : Nat} (h : skipCharacters fuel rest = .ok rest') :
    ∃ cs body, Shown (SpellsText cs) body ∧ rest = body ++ '"' :: rest' := by
  induction fuel generalizing rest with
  | zero => cases h
  | succ fuel ih =>
    have hnext : ∀ {c spelling mended rest₁}, Mends spelling mended → SpellsChar c mended →
        skipCharacters fuel rest₁ = .ok rest' →
        ∃ cs body, Shown (SpellsText cs) body ∧ spelling ++ rest₁ = body ++ '"' :: rest' := by
      intro c spelling mended rest₁ hm hc h
      obtain ⟨cs, body, ⟨mended', hm', hcs⟩, rfl⟩ := ih h
      exact ⟨c :: cs, spelling ++ body, ⟨_, hm.append hm', .cons hc hcs⟩,
        (List.append_assoc _ _ _).symm⟩
    rw [skipCharacters.eq_def] at h
    split at h
    case h_1 hf => cases hf
    case h_2 => cases h
    case h_3 =>
      cases h
      exact ⟨[], [], .of .nil, rfl⟩
    case h_4 hf =>
      cases hf
      obtain ⟨rest₁, he, hs⟩ := bind_eq_ok.mp h
      obtain ⟨spelling, mended, c, hm, hc, rfl⟩ := skipEscape_mends he
      exact hnext hm hc hs
    case h_5 c rest hq hb hf =>
      cases hf
      split at h
      case isTrue => cases h
      case isFalse hc =>
        exact hnext (.refl [c]) (.plain hq hb hc) h

theorem skipText_shown (h : skipText rest = .ok rest') :
    ∃ cs body, Shown (SpellsText cs) body ∧ rest = body ++ '"' :: rest' :=
  skipCharacters_shown h

end Strings

end ExampleTests.Json
