import ExampleTests.Text.Utf8

/-! Text from its own bytes. A character is read from the bytes it is encoded in, whatever
stands behind them, so what has been encoded is decoded as it was. -/

namespace ExampleTests.Text

theorem toList_loop (bytes : ByteArray) (i : Nat) (taken : Bytes) :
    ByteArray.toList.loop bytes i taken = taken.reverse ++ bytes.data.toList.drop i := by
  fun_induction ByteArray.toList.loop bytes i taken with
  | case1 i taken h ih =>
    have hi : i < bytes.data.toList.length := by simpa using h
    rw [ih, List.drop_eq_getElem_cons hi]
    simp [ByteArray.get!, h]
  | case2 i taken h =>
    rw [List.drop_eq_nil_of_le (by simpa using Nat.le_of_not_lt h), List.append_nil]

theorem encode_eq (s : String) : encode s = s.toList.flatMap String.utf8EncodeChar := by
  have hb : s.toUTF8 = s.toList.utf8Encode := by
    rw [String.toUTF8_eq_toByteArray, String.utf8Encode_toList]
  rw [encode, hb, ByteArray.toList, toList_loop]
  simp [List.utf8Encode]

section Machine

variable {p q : Pending} {b : UInt8} {c : Char} {rest : Bytes}

theorem decodeFrom_start_done (h : start b = .done c) :
    decodeFrom none (b :: rest) = (decodeFrom none rest).map (c :: ·) := by
  simp [decodeFrom, h]

theorem decodeFrom_start_more (h : start b = .more p) :
    decodeFrom none (b :: rest) = decodeFrom (some p) rest := by
  simp [decodeFrom, h]

theorem decodeFrom_follow_done (h : follow p b = .done c) :
    decodeFrom (some p) (b :: rest) = (decodeFrom none rest).map (c :: ·) := by
  simp [decodeFrom, h]

theorem decodeFrom_follow_more (h : follow p b = .more q) :
    decodeFrom (some p) (b :: rest) = decodeFrom (some q) rest := by
  simp [decodeFrom, h]

end Machine

theorem start_one {n : Nat} (h : n < 0x80) : start (UInt8.ofNat n) = .done (Char.ofNat n) := by
  have hc : ∀ n < 0x80, continuation? (UInt8.ofNat n) = some (0, 0x80, 0xBF) ∧
      (UInt8.ofNat n).toNat = n := by decide
  obtain ⟨hcontinuation, hn⟩ := hc n h
  simp only [start, hcontinuation, hn]

theorem start_more {b low high : UInt8} {n : Nat} (h : continuation? b = some (n + 1, low, high)) :
    start b = .more ⟨n + 1, low, high, leadingBits b (n + 1)⟩ := by
  simp only [start, h]

theorem start_two {k : Nat} (h : k < 0x20) (h2 : 2 ≤ k) :
    start (UInt8.ofNat (k + 0xC0)) = .more ⟨1, 0x80, 0xBF, k⟩ := by
  have hc : ∀ k < 0x20, 2 ≤ k → continuation? (UInt8.ofNat (k + 0xC0)) = some (1, 0x80, 0xBF) ∧
      leadingBits (UInt8.ofNat (k + 0xC0)) 1 = k := by decide
  obtain ⟨hcontinuation, hk⟩ := hc k h h2
  rw [start_more hcontinuation, hk]

/-- The second byte is bounded where the code point would be too small or a surrogate. -/
theorem start_three {k : Nat} (h : k < 0x10) : start (UInt8.ofNat (k + 0xE0)) =
    .more ⟨2, if k = 0 then 0xA0 else 0x80, if k = 0xD then 0x9F else 0xBF, k⟩ := by
  have hc : ∀ k < 0x10, continuation? (UInt8.ofNat (k + 0xE0)) =
      some (2, if k = 0 then 0xA0 else 0x80, if k = 0xD then 0x9F else 0xBF) ∧
      leadingBits (UInt8.ofNat (k + 0xE0)) 2 = k := by decide
  obtain ⟨hcontinuation, hk⟩ := hc k h
  rw [start_more hcontinuation, hk]

/-- The second byte is bounded where the code point would be too small or too large. -/
theorem start_four {k : Nat} (h : k < 5) : start (UInt8.ofNat (k + 0xF0)) =
    .more ⟨3, if k = 0 then 0x90 else 0x80, if k = 4 then 0x8F else 0xBF, k⟩ := by
  have hc : ∀ k < 5, continuation? (UInt8.ofNat (k + 0xF0)) =
      some (3, if k = 0 then 0x90 else 0x80, if k = 4 then 0x8F else 0xBF) ∧
      leadingBits (UInt8.ofNat (k + 0xF0)) 3 = k := by decide
  obtain ⟨hcontinuation, hk⟩ := hc k h
  rw [start_more hcontinuation, hk]

section Following

variable {low high : UInt8} {bits j : Nat}

theorem follow_step (owed : Nat) (hj : j < 0x40) (lo : low.toNat ≤ j + 0x80)
    (hi : j + 0x80 ≤ high.toNat) : follow ⟨owed, low, high, bits⟩ (UInt8.ofNat (j + 0x80)) =
      if owed = 1 then .done (Char.ofNat (bits * 0x40 + j))
      else .more ⟨owed - 1, 0x80, 0xBF, bits * 0x40 + j⟩ := by
  have hb : (UInt8.ofNat (j + 0x80)).toNat = j + 0x80 := by
    rw [UInt8.toNat_ofNat', Nat.mod_eq_of_lt (by omega)]
  have hm : (j + 0x80) % 0x40 = j := by omega
  have hr : low ≤ UInt8.ofNat (j + 0x80) ∧ UInt8.ofNat (j + 0x80) ≤ high := by
    rw [UInt8.le_iff_toNat_le, UInt8.le_iff_toNat_le, hb]
    exact ⟨lo, hi⟩
  rw [follow, if_pos hr, hb, hm]

theorem follow_more (n : Nat) (hj : j < 0x40) (lo : low.toNat ≤ j + 0x80)
    (hi : j + 0x80 ≤ high.toNat) : follow ⟨n + 2, low, high, bits⟩ (UInt8.ofNat (j + 0x80)) =
      .more ⟨n + 1, 0x80, 0xBF, bits * 0x40 + j⟩ :=
  (follow_step (n + 2) hj lo hi).trans (if_neg (by omega))

theorem any_following (hj : j < 0x40) :
    (0x80 : UInt8).toNat ≤ j + 0x80 ∧ j + 0x80 ≤ (0xBF : UInt8).toNat := by
  have hlo : (0x80 : UInt8).toNat = 0x80 := rfl
  have hhi : (0xBF : UInt8).toNat = 0xBF := rfl
  omega

/-- A byte in range where a first byte asks for more of it than any. -/
theorem following_bounds {p q : Prop} [Decidable p] [Decidable q] (hj : j < 0x40)
    (hp : p → low.toNat ≤ j + 0x80) (hq : q → j + 0x80 ≤ high.toNat) :
    (if p then low else 0x80).toNat ≤ j + 0x80 ∧ j + 0x80 ≤ (if q then high else 0xBF).toNat := by
  constructor
  · by_cases h : p
    · rw [if_pos h]
      exact hp h
    · rw [if_neg h]
      exact (any_following hj).1
  · by_cases h : q
    · rw [if_pos h]
      exact hq h
    · rw [if_neg h]
      exact (any_following hj).2

theorem follow_last (hj : j < 0x40) :
    follow ⟨1, 0x80, 0xBF, bits⟩ (UInt8.ofNat (j + 0x80)) = .done (Char.ofNat (bits * 0x40 + j)) :=
  follow_step 1 hj (any_following hj).1 (any_following hj).2

end Following

section Characters

variable {v : Nat} (rest : Bytes)

theorem decodeFrom_two (lo : 0x7F < v) (hi : v ≤ 0x7FF) :
    decodeFrom none (UInt8.ofNat (v / 64 % 32 + 192) :: UInt8.ofNat (v % 64 + 128) :: rest) =
      (decodeFrom none rest).map (Char.ofNat v :: ·) := by
  have hfirst : v / 64 % 32 = v / 64 := by omega
  have hbits : v / 64 * 0x40 + v % 64 = v := by omega
  rw [hfirst, decodeFrom_start_more (start_two (by omega) (by omega)),
    decodeFrom_follow_done (follow_last (by omega)), hbits]

theorem decodeFrom_three (lo : 0x7FF < v) (hi : v ≤ 0xFFFF) (hv : v < 0xD800 ∨ 0xDFFF < v) :
    decodeFrom none (UInt8.ofNat (v / 4096 % 16 + 224) :: UInt8.ofNat (v / 64 % 64 + 128) ::
      UInt8.ofNat (v % 64 + 128) :: rest) = (decodeFrom none rest).map (Char.ofNat v :: ·) := by
  have hfirst : v / 4096 % 16 = v / 4096 := by omega
  have hbits : (v / 4096 * 0x40 + v / 64 % 64) * 0x40 + v % 64 = v := by omega
  have hsecond : (if v / 4096 = 0 then (0xA0 : UInt8) else 0x80).toNat ≤ v / 64 % 64 + 0x80 ∧
      v / 64 % 64 + 0x80 ≤ (if v / 4096 = 0xD then (0x9F : UInt8) else 0xBF).toNat :=
    following_bounds (by omega) (fun _ => show 0xA0 ≤ _ by omega) (fun _ => show _ ≤ 0x9F by omega)
  rw [hfirst, decodeFrom_start_more (start_three (by omega)),
    decodeFrom_follow_more (follow_more 0 (by omega) hsecond.1 hsecond.2),
    decodeFrom_follow_done (follow_last (by omega)), hbits]

theorem decodeFrom_four (lo : 0xFFFF < v) (hi : v < 0x110000) :
    decodeFrom none (UInt8.ofNat (v / 262144 % 8 + 240) :: UInt8.ofNat (v / 4096 % 64 + 128) ::
      UInt8.ofNat (v / 64 % 64 + 128) :: UInt8.ofNat (v % 64 + 128) :: rest) =
      (decodeFrom none rest).map (Char.ofNat v :: ·) := by
  have hfirst : v / 262144 % 8 = v / 262144 := by omega
  have hbits : ((v / 262144 * 0x40 + v / 4096 % 64) * 0x40 + v / 64 % 64) * 0x40 + v % 64 = v := by
    omega
  have hsecond : (if v / 262144 = 0 then (0x90 : UInt8) else 0x80).toNat ≤ v / 4096 % 64 + 0x80 ∧
      v / 4096 % 64 + 0x80 ≤ (if v / 262144 = 4 then (0x8F : UInt8) else 0xBF).toNat :=
    following_bounds (by omega) (fun _ => show 0x90 ≤ _ by omega) (fun _ => show _ ≤ 0x8F by omega)
  have hmiddle := any_following (j := v / 64 % 64) (by omega)
  rw [hfirst, decodeFrom_start_more (start_four (by omega)),
    decodeFrom_follow_more (follow_more 1 (by omega) hsecond.1 hsecond.2),
    decodeFrom_follow_more (follow_more 0 (by omega) hmiddle.1 hmiddle.2),
    decodeFrom_follow_done (follow_last (by omega)), hbits]

theorem decodeFrom_utf8EncodeChar (c : Char) :
    decodeFrom none (String.utf8EncodeChar c ++ rest) = (decodeFrom none rest).map (c :: ·) := by
  have hvalid : c.val.toNat < 0xD800 ∨ 0xDFFF < c.val.toNat ∧ c.val.toNat < 0x110000 := c.valid
  have hc : Char.ofNat c.val.toNat = c := Char.ofNat_toNat c
  have hencode := String.utf8EncodeChar.eq_1 c
  by_cases h1 : c.val.toNat ≤ 0x7F
  · rw [hencode, if_pos h1, List.singleton_append,
      decodeFrom_start_done (start_one (Nat.lt_succ_of_le h1)), hc]
  rw [if_neg h1] at hencode
  by_cases h2 : c.val.toNat ≤ 0x7FF
  · rw [hencode, if_pos h2]
    exact (decodeFrom_two rest (by omega) h2).trans (by rw [hc])
  rw [if_neg h2] at hencode
  by_cases h3 : c.val.toNat ≤ 0xFFFF
  · rw [hencode, if_pos h3]
    exact (decodeFrom_three rest (by omega) h3 (by omega)).trans (by rw [hc])
  · rw [hencode, if_neg h3]
    exact (decodeFrom_four rest (by omega) (by omega)).trans (by rw [hc])

end Characters

theorem decode?_encode (s : String) : decode? (encode s) = some s := by
  have hall : ∀ cs : List Char, decodeFrom none (cs.flatMap String.utf8EncodeChar) = some cs := by
    intro cs
    induction cs with
    | nil => rfl
    | cons c cs ih => rw [List.flatMap_cons, decodeFrom_utf8EncodeChar, ih, Option.map_some]
  rw [decode?, encode_eq, hall, Option.map_some, String.ofList_toList]

end ExampleTests.Text
