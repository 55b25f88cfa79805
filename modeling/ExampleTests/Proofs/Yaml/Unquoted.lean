import ExampleTests.Proofs.Yaml.Token.Plain
import Mathlib.Data.List.Basic

/-! Texts that an unquoted scalar can hold on one line. A comment may cut such a
text short; what stands in front of it is a row of words. -/

namespace ExampleTests.Yaml

/-- A text up to its comment, which begins with a blank and a `#`. -/
def beforeComment : List Char → List Char
  | [] => []
  | c :: rest => if isBlank c && rest.head? = some '#' then [] else c :: beforeComment rest

/-- Whether a plain scalar begins with the text. -/
def startsPlain : List Char → Bool
  | [] => false
  | c :: rest =>
    !isSpace c &&
      (!Stream.indicators.contains c || (['-', '?', ':'].contains c && !rest.head?.all isSpace))

/-- One line in which no colon ends a key in front of a comment. -/
structure IsLine (text : List Char) : Prop where
  allowed : ∀ c ∈ text, isAllowed c = true
  noBreak : ∀ c ∈ text, isBreak c = false
  noKey : endsKey (beforeComment text) = false

/-- One line that is a plain scalar as a whole. -/
structure IsPlain (text : List Char) : Prop extends IsLine text where
  starts : startsPlain text = true
  stops : text.getLast?.any isBlank = false
  noComment : beforeComment text = text

theorem isLine_iff (text : List Char) :
    IsLine text ↔ text.all isAllowed = true ∧ text.any isBreak = false ∧
      endsKey (beforeComment text) = false := by
  simp only [List.all_eq_true, List.any_eq_false, Bool.not_eq_true]
  exact ⟨fun h => ⟨h.allowed, h.noBreak, h.noKey⟩, fun ⟨ha, hb, hk⟩ => ⟨ha, hb, hk⟩⟩

instance (text : List Char) : Decidable (IsLine text) :=
  decidable_of_iff' _ (isLine_iff text)

instance (text : List Char) : Decidable (IsPlain text) :=
  decidable_of_iff (IsLine text ∧ startsPlain text = true ∧ text.getLast?.any isBlank = false ∧
      beforeComment text = text)
    ⟨fun ⟨h, hs, hl, hc⟩ => ⟨h, hs, hl, hc⟩, fun h => ⟨h.toIsLine, h.starts, h.stops, h.noComment⟩⟩

/-- What may follow the words of a line: nothing, or a comment. -/
def IsComment (tail : List Char) : Prop :=
  tail = [] ∨ ∃ gap rest, tail = gap ++ '#' :: rest ∧ Blanks gap ∧ gap ≠ []

theorem endsKey_left {w rest : List Char} (hr : rest.head?.all isSpace = true)
    (h : endsKey (w ++ rest) = false) : endsKey w = false := by
  induction w with
  | nil => rfl
  | cons x w ih =>
    simp only [List.cons_append, endsKey, Bool.or_eq_false_iff] at h ⊢
    refine ⟨?_, ih h.2⟩
    cases w with
    | nil => simpa [hr] using h.1
    | cons y w => exact h.1

theorem endsKey_right {w rest : List Char} (h : endsKey (w ++ rest) = false) :
    endsKey rest = false := by
  induction w with
  | nil => exact h
  | cons x w ih =>
    simp only [List.cons_append, endsKey, Bool.or_eq_false_iff] at h
    exact ih h.2

theorem beforeComment_word {w : List Char} (hw : ∀ c ∈ w, isBlank c = false) (rest : List Char) :
    beforeComment (w ++ rest) = w ++ beforeComment rest := by
  induction w with
  | nil => rfl
  | cons x w ih =>
    have hx : isBlank x = false := hw x List.mem_cons_self
    have hi := ih fun c hc => hw c (List.mem_cons_of_mem x hc)
    simp [beforeComment, hx, hi]

theorem beforeComment_blanks {gap text : List Char} (hg : Blanks gap) (hc : text.head? ≠ some '#') :
    beforeComment (gap ++ text) = gap ++ beforeComment text := by
  induction gap with
  | nil => rfl
  | cons x gap ih =>
    have hi := ih fun c hc => hg c (List.mem_cons_of_mem x hc)
    have hn : (gap ++ text).head? ≠ some '#' := by
      cases gap with
      | nil => exact hc
      | cons y gap =>
        have hy : isBlank y = true := hg y (by simp)
        intro he
        cases he
        exact absurd hy (by decide)
    have hx : ¬ (isBlank x && (gap ++ text).head? = some '#') := by simp only [hn]; simp
    rw [List.cons_append, beforeComment, if_neg hx, hi, List.cons_append]

theorem head_beforeComment {text : List Char} (h : text.head?.all isSpace = true) :
    (beforeComment text).head?.all isSpace = true := by
  cases text with
  | nil => rfl
  | cons x text =>
    rw [beforeComment]
    split
    · rfl
    · simpa using h

theorem length_beforeComment_lt (u : List Char) {gap : List Char} (rest : List Char) (hg : Blanks gap)
    (hne : gap ≠ []) :
    (beforeComment (u ++ (gap ++ '#' :: rest))).length < (u ++ (gap ++ '#' :: rest)).length := by
  induction u with
  | nil =>
    induction gap with
    | nil => exact absurd rfl hne
    | cons x gap ih =>
      have hx : isBlank x = true := hg x List.mem_cons_self
      cases gap with
      | nil => simp [beforeComment, hx]
      | cons y gap =>
        have hi := ih (fun c hc => hg c (List.mem_cons_of_mem x hc)) (by simp)
        simp only [List.nil_append, List.cons_append] at hi ⊢
        rw [beforeComment]
        split
        · simp
        · simpa using hi
  | cons x u ih =>
    rw [List.cons_append, beforeComment]
    split
    · simp
    · simpa using ih

/-- The longest start of a text with a property that its first character has. -/
theorem exists_span {p : Char → Bool} {text : List Char} (h : text.head?.any p = true) :
    ∃ taken rest, text = taken ++ rest ∧ (∀ c ∈ taken, p c = true) ∧ taken ≠ [] ∧
      rest.head?.any p = false := by
  refine ⟨_, _, (List.takeWhile_append_dropWhile (p := p)).symm,
    List.all_eq_true.mp List.all_takeWhile, ?_, ?_⟩
  · cases text with
    | nil => cases h
    | cons x text =>
      have hx : p x = true := by simpa using h
      simp [hx]
  · have hd := List.head?_dropWhile_not p text
    cases he : (text.dropWhile p).head? with
    | none => rfl
    | some x => simpa [he] using hd

/-- The words of a line, and the comment that may follow them. -/
theorem exists_words {text : List Char} (hs : text.head?.any (!isBlank ·) = true)
    (hl : text.getLast?.any isBlank = false) (hb : ∀ c ∈ text, isBreak c = false)
    (hk : endsKey (beforeComment text) = false) :
    ∃ t tail, text = t ++ tail ∧ Words t ∧ IsComment tail := by
  -- One word and the gap after it are taken off at a time.
  generalize hn : text.length = n
  induction n using Nat.strongRecOn generalizing text with
  | _ n ih =>
    obtain ⟨w, rest, rfl, hwb, hwne, hr⟩ := exists_span hs
    simp only [Bool.not_eq_true'] at hwb
    have hrs : rest.head?.all isSpace = true := by
      cases rest with
      | nil => rfl
      | cons x rest => exact isSpace_of_isBlank (by simpa using hr)
    rw [beforeComment_word hwb] at hk
    have hw : IsWord w :=
      ⟨hwne, fun c hc => by simp [isSpace, hwb c hc, hb c (List.mem_append_left rest hc)],
        endsKey_left (head_beforeComment hrs) hk⟩
    by_cases hrest : rest = []
    · exact ⟨w, [], by rw [hrest], .word hw, .inl rfl⟩
    have hrb : rest.head?.any isBlank = true := by
      obtain ⟨x, rest, rfl⟩ := List.exists_cons_of_ne_nil hrest
      simpa using hr
    obtain ⟨gap, next, rfl, hg, hgne, hx⟩ := exists_span hrb
    rw [List.getLast?_append_of_ne_nil w hrest] at hl
    have hnext : next ≠ [] := by
      rintro rfl
      rw [List.append_nil, List.getLast?_eq_some_getLast hgne] at hl
      simp [hg _ (List.getLast_mem hgne)] at hl
    rw [List.getLast?_append_of_ne_nil gap hnext] at hl
    have hsn : next.head?.any (!isBlank ·) = true := by
      obtain ⟨y, next, rfl⟩ := List.exists_cons_of_ne_nil hnext
      simpa using hx
    by_cases hc : next.head? = some '#'
    · obtain ⟨y, next, rfl⟩ := List.exists_cons_of_ne_nil hnext
      cases hc
      exact ⟨w, _, rfl, .word hw, .inr ⟨gap, next, rfl, hg, hgne⟩⟩
    · rw [beforeComment_blanks hg hc] at hk
      have hlen : next.length < n := by
        have hwl := List.length_pos_iff.mpr hwne
        simp only [List.length_append] at hn
        omega
      obtain ⟨t, tail, rfl, ht, htail⟩ := ih next.length hlen hsn hl
        (fun c hc => hb c (by simp [hc])) (endsKey_right (endsKey_right hk)) rfl
      refine ⟨w ++ (gap ++ t), tail, by simp, .cons hw hg hgne ?_ ht, htail⟩
      obtain ⟨y, t, rfl⟩ := List.exists_cons_of_ne_nil ht.ne_nil
      exact hc

theorem head_of_startsPlain {text : List Char} (h : startsPlain text = true) :
    text.head?.any (!isBlank ·) = true := by
  cases text with
  | nil => cases h
  | cons x text =>
    simp only [startsPlain, isSpace, Bool.and_eq_true, Bool.not_eq_true', Bool.or_eq_false_iff] at h
    simp [h.1.1]

theorem startsPlain_left {text tail : List Char} (hne : text ≠ [])
    (ht : tail.head?.all isSpace = true) (h : startsPlain (text ++ tail) = true) :
    startsPlain text = true := by
  match text with
  | [] => exact absurd rfl hne
  | [x] => simpa [startsPlain, ht] using h
  | x :: y :: text => exact h

theorem IsComment.head {tail : List Char} (h : IsComment tail) : tail.head?.all isSpace = true := by
  obtain rfl | ⟨gap, rest, rfl, hg, hne⟩ := h
  · rfl
  · obtain ⟨x, gap, rfl⟩ := List.exists_cons_of_ne_nil hne
    exact isSpace_of_isBlank (hg x List.mem_cons_self)

theorem IsPlain.words {text : List Char} (h : IsPlain text) : Words text := by
  obtain ⟨t, tail, rfl, hw, rfl | ⟨gap, rest, rfl, hg, hne⟩⟩ :=
    exists_words (head_of_startsPlain h.starts) h.stops h.noBreak h.noKey
  · rwa [List.append_nil]
  · have hlt := length_beforeComment_lt t rest hg hne
    rw [h.noComment] at hlt
    exact absurd hlt (Nat.lt_irrefl _)

/-- A character that goes on with a word, whatever follows it. -/
def isSolid (c : Char) : Bool := isAllowed c && !isSpace c && c != ':'

theorem endsKey_solid {text : List Char} (h : ∀ c ∈ text, isSolid c = true) : endsKey text = false := by
  induction text with
  | nil => rfl
  | cons c text ih =>
    have hc : c ≠ ':' := by
      rintro rfl
      exact absurd (h ':' List.mem_cons_self) (by decide)
    have hi := ih fun x hx => h x (List.mem_cons_of_mem c hx)
    simp [endsKey, hc, hi]

/-- A text without spaces and colons is plain if it begins so. -/
theorem isPlain_of_solid {text : List Char} (hs : startsPlain text = true)
    (h : ∀ c ∈ text, isSolid c = true) : IsPlain text := by
  have hsolid : ∀ c ∈ text, isAllowed c = true ∧ isBlank c = false ∧ isBreak c = false := by
    intro c hc
    have hs := h c hc
    simp only [isSolid, isSpace, Bool.and_eq_true, Bool.not_eq_true', Bool.or_eq_false_iff] at hs
    exact ⟨hs.1.1, hs.1.2⟩
  have hcomment : beforeComment text = text := by
    have hw := beforeComment_word (fun c hc => (hsolid c hc).2.1) []
    rwa [List.append_nil, beforeComment, List.append_nil] at hw
  refine ⟨⟨fun c hc => (hsolid c hc).1, fun c hc => (hsolid c hc).2.2, ?_⟩, hs, ?_, hcomment⟩
  · rw [hcomment]
    exact endsKey_solid h
  · cases hl : text.getLast? with
    | none => rfl
    | some c => exact (hsolid c (List.mem_of_getLast? hl)).2.1

section Quiet

/-- A character of a line that ends no key and begins no comment. -/
def isQuiet (c : Char) : Bool := (isSolid c || c = ' ') && c != '#'

theorem isQuiet_spec {c : Char} (h : isQuiet c = true) :
    isAllowed c = true ∧ isBreak c = false ∧ c ≠ ':' ∧ c ≠ '#' := by
  have hspace : isAllowed ' ' = true ∧ isBreak ' ' = false := by decide
  simp only [isQuiet, isSolid, isSpace, Bool.and_eq_true, Bool.or_eq_true, Bool.not_eq_true',
    Bool.or_eq_false_iff, decide_eq_true_eq, bne_iff_ne] at h
  obtain ⟨⟨⟨ha, -, hb⟩, hk⟩ | rfl, hc⟩ := h
  · exact ⟨ha, hb, hk, hc⟩
  · exact ⟨hspace.1, hspace.2, by decide, hc⟩

theorem endsKey_append {text next : List Char} (ht : endsKey text = false) (hn : endsKey next = false) :
    endsKey (text ++ next) = false := by
  induction text with
  | nil => exact hn
  | cons c text ih =>
    simp only [endsKey, List.cons_append, Bool.or_eq_false_iff] at ht ⊢
    refine ⟨?_, ih ht.2⟩
    cases text with
    | nil =>
      have hc : c ≠ ':' := by simpa using ht.1
      simp [hc]
    | cons d text => exact ht.1

theorem beforeComment_append {text next : List Char} (ht : beforeComment text = text)
    (hn : next.head? ≠ some '#') : beforeComment (text ++ next) = text ++ beforeComment next := by
  induction text with
  | nil => rfl
  | cons c text ih =>
    rw [beforeComment] at ht
    split at ht
    · cases ht
    · rename_i hc
      have hhead : ¬ (isBlank c && (text ++ next).head? = some '#') := by
        cases text with
        | nil => simp only [List.nil_append, hn]; simp
        | cons d text => exact hc
      rw [List.cons_append, beforeComment, if_neg hhead, ih (List.tail_eq_of_cons_eq ht), List.cons_append]

theorem beforeComment_quiet {text : List Char} (h : ∀ c ∈ text, isQuiet c = true) :
    beforeComment text = text ∧ endsKey text = false := by
  induction text with
  | nil => exact ⟨rfl, rfl⟩
  | cons c text ih =>
    obtain ⟨-, -, hk, -⟩ := isQuiet_spec (h c List.mem_cons_self)
    obtain ⟨hi, he⟩ := ih fun x hx => h x (List.mem_cons_of_mem c hx)
    have hhead : text.head? ≠ some '#' := by
      intro hd
      obtain ⟨rest, rfl⟩ := List.head?_eq_some_iff.mp hd
      exact (isQuiet_spec (h '#' (by simp))).2.2.2 rfl
    constructor
    · simp [beforeComment, hhead, hi]
    · simp [endsKey, hk, he]

/-- A line goes on after a text without a comment. -/
theorem isLine_append {text next : List Char} (ht : IsLine text) (hc : beforeComment text = text)
    (hn : ∀ c ∈ next, isQuiet c = true) : IsLine (text ++ next) := by
  obtain ⟨hb, hk⟩ := beforeComment_quiet hn
  have hhead : next.head? ≠ some '#' := by
    intro hd
    obtain ⟨rest, rfl⟩ := List.head?_eq_some_iff.mp hd
    exact (isQuiet_spec (hn '#' List.mem_cons_self)).2.2.2 rfl
  refine ⟨fun c hm => ?_, fun c hm => ?_, ?_⟩
  · rcases List.mem_append.mp hm with hm | hm
    · exact ht.allowed c hm
    · exact (isQuiet_spec (hn c hm)).1
  · rcases List.mem_append.mp hm with hm | hm
    · exact ht.noBreak c hm
    · exact (isQuiet_spec (hn c hm)).2.1
  · have htext := ht.noKey
    rw [hc] at htext
    rw [beforeComment_append hc hhead, hb]
    exact endsKey_append htext hk

end Quiet

end ExampleTests.Yaml
