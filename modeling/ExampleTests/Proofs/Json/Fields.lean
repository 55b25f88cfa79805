import ExampleTests.Proofs.Json.Integer
import Mathlib.Data.List.Forall2

/-! Specs from objects. Each field is read from what stands under its key, if that
occurs once at most and has the shape that is wanted. -/

namespace ExampleTests.Json

namespace Tree

variable {α β γ : Type}

def items? : Tree → Option (List Tree)
  | array items => some items
  | null | boolean _ | number _ | text _ | object _ => none

def members? : Tree → Option (List (String × Tree))
  | object members => some members
  | null | boolean _ | number _ | text _ | array _ => none

/-- The integer of digits behind an optional sign. -/
def integerOf : List Char → Int
  | '-' :: ds => -(Nat.ofDigitChars 10 ds 0 : Int)
  | ds => Nat.ofDigitChars 10 ds 0

def wholeNumber? (literal : String) : Option Value := some (.ofInt (integerOf literal.toList))

/-- A string, a boolean or an integer. -/
def literal? : Tree → Option Value := value? wholeNumber?

structure IsExample (members : List (String × Tree)) : Prop where
  argumentsOnce : (valuesAt "arguments" members).length ≤ 1
  returnOnce : (valuesAt "return" members).length ≤ 1
  arguments : ∀ t ∈ valuesAt "arguments" members,
    t = null ∨ ∃ items, t = array items ∧ ∀ i ∈ items, i.literal?.isSome
  returned : ∀ t ∈ valuesAt "return" members, t = null ∨ t.literal?.isSome

structure IsSpec (members : List (String × Tree)) : Prop where
  subjectOnce : (valuesAt "subject" members).length ≤ 1
  examplesOnce : (valuesAt "examples" members).length ≤ 1
  subject : ∀ t ∈ valuesAt "subject" members, ∃ s, t = text s
  examples : ∀ t ∈ valuesAt "examples" members,
    t = null ∨ ∃ items, t = array items ∧ ∀ i ∈ items, ∃ ms, i = object ms ∧ IsExample ms

def exampleOf (t : Tree) : Example :=
  let members := t.members?.getD []
  { arguments := ((valuesAt "arguments" members).head?.bind items?).map (·.filterMap literal?)
    returns := (valuesAt "return" members).head?.bind literal? }

/-- Each field from its own key: no subject is an empty one, and a list that is
absent or null is none. -/
def specOf (members : List (String × Tree)) : Spec :=
  { subject := ((valuesAt "subject" members).head?.bind text?).getD ""
    examples := ((valuesAt "examples" members).head?.bind items?).map (·.map exampleOf) }

theorem readOnce?_eq_some_iff {read? : Tree → Option α} {ts : List Tree} {a : Option α} :
    readOnce? read? none ts = some a ↔
      (ts.length ≤ 1 ∧ ∀ t ∈ ts, (read? t).isSome) ∧ a = ts.head?.bind read? := by
  cases ts with
  | nil => simpa [readOnce?] using eq_comm
  | cons t ts =>
    cases ht : read? t with
    | none => simp [readOnce?, ht]
    | some b =>
      cases ts with
      | nil => simpa [readOnce?, ht] using eq_comm
      | cons u us => simp [readOnce?, ht]

theorem record?_object_eq_some_iff {key₁ key₂ : String} {read₁? : Tree → Option α}
    {read₂? : Tree → Option β} {missing₁ : α} {missing₂ : β} {build : α → β → γ}
    {members : List (String × Tree)} {c : γ} :
    record? key₁ key₂ read₁? read₂? missing₁ missing₂ build (object members) = some c ↔
      ((valuesAt key₁ members).length ≤ 1 ∧ ∀ t ∈ valuesAt key₁ members, (read₁? t).isSome) ∧
      ((valuesAt key₂ members).length ≤ 1 ∧ ∀ t ∈ valuesAt key₂ members, (read₂? t).isSome) ∧
      c = build (((valuesAt key₁ members).head?.bind read₁?).getD missing₁)
        (((valuesAt key₂ members).head?.bind read₂?).getD missing₂) := by
  simp only [record?, parts?, Option.bind_some, Option.bind_eq_some_iff, Option.map_eq_some_iff,
    readOnce?_eq_some_iff]
  constructor
  · rintro ⟨a, ⟨h₁, rfl⟩, b, ⟨h₂, rfl⟩, rfl⟩
    exact ⟨h₁, h₂, rfl⟩
  · rintro ⟨h₁, h₂, rfl⟩
    exact ⟨_, ⟨h₁, rfl⟩, _, ⟨h₂, rfl⟩, rfl⟩

theorem mapM_eq_filterMap {read? : Tree → Option α} {items : List Tree}
    (h : ∀ i ∈ items, (read? i).isSome) : items.mapM read? = some (items.filterMap read?) := by
  induction items with
  | nil => rfl
  | cons i items ih =>
    obtain ⟨a, ha⟩ := Option.isSome_iff_exists.mp (h i List.mem_cons_self)
    rw [List.mapM_cons, ih fun j hj => h j (List.mem_cons_of_mem i hj), ha,
      List.filterMap_cons_some ha]
    rfl

theorem mapM_isSome {read? : Tree → Option α} {items : List Tree} :
    (items.mapM read?).isSome ↔ ∀ i ∈ items, (read? i).isSome := by
  refine ⟨fun h => ?_, fun h => mapM_eq_filterMap h ▸ rfl⟩
  induction items with
  | nil => exact nofun
  | cons i items ih =>
    rw [List.mapM_cons] at h
    cases hi : read? i with
    | none => simp [hi] at h
    | some a =>
      cases hs : items.mapM read? with
      | none => simp [hi, hs] at h
      | some as => exact List.forall_mem_cons.mpr ⟨hi ▸ rfl, ih (hs ▸ rfl)⟩

theorem list?_isSome {read? : Tree → Option α} {t : Tree} : (list? read? t).isSome ↔
    ∃ items, t = array items ∧ ∀ i ∈ items, (read? i).isSome := by
  cases t with
  | array items => simp [list?, mapM_isSome]
  | null | boolean | number | text | object => simp [list?]

theorem optional?_isSome {read? : Tree → Option α} {t : Tree} :
    (optional? read? t).isSome ↔ t = null ∨ (read? t).isSome := by
  cases t <;> simp [optional?]

theorem head?_optional {read? : Tree → Option α} (hn : read? null = none) (ts : List Tree) :
    (ts.head?.bind (optional? read?)).getD none = ts.head?.bind read? := by
  cases ts with
  | nil => rfl
  | cons t ts =>
    cases t with
    | null => exact hn.symm
    | boolean | number | text | array | object =>
      simp only [List.head?_cons, Option.bind_some, optional?]
      cases read? _ <;> rfl

/-- A list that is read is one of all that its items are read as. -/
theorem head?_list {read? : Tree → Option α} {ts : List Tree}
    (h : ∀ t ∈ ts, t = null ∨ (list? read? t).isSome) :
    ts.head?.bind (list? read?) = (ts.head?.bind items?).map (·.filterMap read?) := by
  cases ts with
  | nil => rfl
  | cons t ts =>
    rcases h t List.mem_cons_self with rfl | ht
    · rfl
    · obtain ⟨items, rfl, hitems⟩ := list?_isSome.mp ht
      exact mapM_eq_filterMap hitems

theorem example?_object_eq_some_iff {members : List (String × Tree)} {e : Example} :
    example? wholeNumber? (object members) = some e ↔
      IsExample members ∧ e = exampleOf (object members) := by
  rw [example?, record?_object_eq_some_iff, head?_optional rfl, head?_optional rfl]
  simp only [optional?_isSome]
  constructor
  · rintro ⟨⟨ha, hargs⟩, ⟨hr, hret⟩, rfl⟩
    have hshape := fun t ht => (hargs t ht).imp_right list?_isSome.mp
    exact ⟨⟨ha, hr, hshape, hret⟩, congrArg (Example.mk · _) (head?_list hargs)⟩
  · rintro ⟨⟨ha, hr, hargs, hret⟩, rfl⟩
    have hlist := fun t ht => (hargs t ht).imp_right list?_isSome.mpr
    exact ⟨⟨ha, hlist⟩, ⟨hr, hret⟩, congrArg (Example.mk · _) (head?_list hlist).symm⟩

/-- What stands in the place of an example. -/
def exampleTrees (members : List (String × Tree)) : List Tree :=
  (valuesAt "examples" members).flatMap fun t => t.items?.getD []

/-- What stands in the place of a literal. -/
def literalTrees (members : List (String × Tree)) : List Tree :=
  ((valuesAt "arguments" members).flatMap fun t => t.items?.getD []) ++ valuesAt "return" members

/-- Examples are no arrays and their numbers are integers of 64 bits, with a sign or without. -/
structure Regular (members : List (String × Tree)) : Prop where
  noArrays : ∀ items, array items ∉ exampleTrees members
  integers : ∀ ms, object ms ∈ exampleTrees members → ∀ literal, number literal ∈ literalTrees ms →
    ∃ n : Int, Int64.minValue.toInt ≤ n ∧ n < UInt64.size ∧ literal = n.repr

theorem example?_isSome {t : Tree} (h : ∀ items, t ≠ array items) :
    (example? wholeNumber? t).isSome ↔ ∃ ms, t = object ms ∧ IsExample ms := by
  cases t with
  | object ms =>
    simp [Option.isSome_iff_exists, example?_object_eq_some_iff]
  | array items => exact absurd rfl (h items)
  | null | boolean | number | text => simp [example?, record?, parts?]

theorem filterMap_example {items : List Tree}
    (h : ∀ i ∈ items, ∃ ms, i = object ms ∧ IsExample ms) :
    items.filterMap (example? wholeNumber?) = items.map exampleOf := by
  rw [← List.filterMap_eq_map]
  refine List.filterMap_congr fun i hi => ?_
  obtain ⟨ms, rfl, hms⟩ := h i hi
  exact example?_object_eq_some_iff.mpr ⟨hms, rfl⟩

theorem mem_exampleTrees {members : List (String × Tree)} {items : List Tree} {i : Tree}
    (ht : array items ∈ valuesAt "examples" members) (hi : i ∈ items) : i ∈ exampleTrees members :=
  List.mem_flatMap.mpr ⟨array items, ht, hi⟩

theorem Regular.examples_isSome {members : List (String × Tree)} (h : Regular members) {t : Tree}
    (ht : t ∈ valuesAt "examples" members) : (list? (example? wholeNumber?) t).isSome ↔
      ∃ items, t = array items ∧ ∀ i ∈ items, ∃ ms, i = object ms ∧ IsExample ms := by
  rw [list?_isSome]
  refine exists_congr fun items => and_congr_right ?_
  rintro rfl
  refine forall₂_congr fun i hi => example?_isSome ?_
  rintro is rfl
  exact h.noArrays is (mem_exampleTrees ht hi)

theorem Regular.head?_examples {members : List (String × Tree)} (h : Regular members)
    (hs : ∀ t ∈ valuesAt "examples" members, t = null ∨ (list? (example? wholeNumber?) t).isSome) :
    (valuesAt "examples" members).head?.bind (list? (example? wholeNumber?)) =
      (specOf members).examples := by
  rw [head?_list hs, specOf]
  cases ht : (valuesAt "examples" members).head? with
  | none => rfl
  | some t =>
    have hm := List.mem_of_mem_head? ht
    rcases hs t hm with rfl | hl
    · rfl
    · obtain ⟨items, rfl, hitems⟩ := (h.examples_isSome hm).mp hl
      exact congrArg some (filterMap_example hitems)

theorem Regular.spec?_eq_some_iff {members : List (String × Tree)} (h : Regular members)
    {s : Spec} : spec? wholeNumber? (object members) = some s ↔
      IsSpec members ∧ s = specOf members := by
  have htext : ∀ t : Tree, t.text?.isSome ↔ ∃ s, t = text s := fun t => by cases t <;> simp [text?]
  rw [spec?, record?_object_eq_some_iff, head?_optional rfl]
  simp only [optional?_isSome, htext]
  constructor
  · rintro ⟨⟨hn, hsubject⟩, ⟨he, hexamples⟩, rfl⟩
    have hshape := fun t ht => (hexamples t ht).imp_right (h.examples_isSome ht).mp
    exact ⟨⟨hn, he, hsubject, hshape⟩, congrArg (Spec.mk _) (h.head?_examples hexamples)⟩
  · rintro ⟨⟨hn, he, hsubject, hexamples⟩, rfl⟩
    have hlist := fun t ht => (hexamples t ht).imp_right (h.examples_isSome ht).mpr
    exact ⟨⟨hn, hsubject⟩, ⟨he, hlist⟩, congrArg (Spec.mk _) (h.head?_examples hlist).symm⟩

section Congruence

variable {read? read?' : Tree → Option α} {number? number?' : String → Option Value}

theorem mapM_congr {items items' : List Tree}
    (h : List.Forall₂ (fun i i' => read? i = read?' i') items items') :
    items.mapM read? = items'.mapM read?' := by
  induction h with
  | nil => rfl
  | cons hi _ ih => rw [List.mapM_cons, List.mapM_cons, hi, ih]

theorem readOnce?_congr {ts ts' : List Tree}
    (h : List.Forall₂ (fun t t' => read? t = read?' t') ts ts') (present : Option α) :
    readOnce? read? present ts = readOnce? read?' present ts' := by
  induction h generalizing present with
  | nil => rfl
  | cons ht _ ih =>
    cases present with
    | none => simp only [readOnce?, ht, ih]
    | some _ => rfl

theorem optional?_congr {t : Tree} (h : read? t = read?' t) :
    optional? read? t = optional? read?' t := by
  cases t with
  | null => rfl
  | boolean | number | text | array | object => exact congrArg (Option.map some) h

theorem list?_congr {t : Tree} (h : ∀ i ∈ t.items?.getD [], read? i = read?' i) :
    list? read? t = list? read?' t := by
  cases t with
  | array items => exact mapM_congr (List.forall₂_same.mpr h)
  | null | boolean | number | text | object => rfl

theorem value?_congr {t : Tree} (h : ∀ literal, t = number literal → number? literal = number?' literal) :
    value? number? t = value? number?' t := by
  cases t with
  | number literal => exact h literal rfl
  | null | boolean | text | array | object => rfl

theorem record?_object_congr {key₁ key₂ : String} {read₂? read₂?' : Tree → Option β} {missing₁ : α}
    {missing₂ : β} {build : α → β → γ} {members : List (String × Tree)}
    (h₁ : ∀ t ∈ valuesAt key₁ members, read? t = read?' t)
    (h₂ : ∀ t ∈ valuesAt key₂ members, read₂? t = read₂?' t) :
    record? key₁ key₂ read? read₂? missing₁ missing₂ build (object members) =
      record? key₁ key₂ read?' read₂?' missing₁ missing₂ build (object members) := by
  have h₁ := readOnce?_congr (List.forall₂_same.mpr h₁) none
  have h₂ := readOnce?_congr (List.forall₂_same.mpr h₂) none
  simp only [record?, parts?, Option.bind_some, h₁, h₂]

theorem example?_congr {members : List (String × Tree)}
    (h : ∀ literal, number literal ∈ literalTrees members → number? literal = number?' literal) :
    example? number? (object members) = example? number?' (object members) := by
  apply record?_object_congr
  · intro t ht
    refine optional?_congr (list?_congr fun i hi => value?_congr fun literal hl => h literal ?_)
    subst hl
    exact List.mem_append_left _ (List.mem_flatMap.mpr ⟨t, ht, hi⟩)
  · intro t ht
    refine optional?_congr (value?_congr fun literal hl => h literal ?_)
    subst hl
    exact List.mem_append_right _ ht

theorem spec?_congr {members : List (String × Tree)}
    (ha : ∀ items, array items ∉ exampleTrees members)
    (h : ∀ ms, object ms ∈ exampleTrees members → ∀ literal, number literal ∈ literalTrees ms →
      number? literal = number?' literal) :
    spec? number? (object members) = spec? number?' (object members) := by
  apply record?_object_congr
  · exact fun _ _ => rfl
  · intro t ht
    refine optional?_congr (list?_congr fun i hi => ?_)
    have hi : i ∈ exampleTrees members := List.mem_flatMap.mpr ⟨t, ht, hi⟩
    cases i with
    | object ms => exact example?_congr (h ms hi)
    | array items => exact absurd hi (ha items)
    | null | boolean | number | text => rfl

end Congruence

end Tree

theorem integerOf_repr (n : Int) : Tree.integerOf n.repr.toList = n := by
  have hv : Nat.ofDigitChars 10 n.natAbs.repr.toList 0 = n.natAbs := by
    rw [Nat.toList_repr, Nat.ofDigitChars_ten_toDigits]
  rw [repr_toList]
  by_cases hn : n < 0
  · rw [if_pos hn, List.cons_append, List.nil_append, Tree.integerOf, hv]
    omega
  · obtain ⟨c, cs, ht, hc⟩ := repr_opens_digit n.natAbs
    rw [if_neg hn, List.nil_append, ht, Tree.integerOf, ← ht, hv]
    · omega
    · rintro ds h
      cases h
      cases hc

theorem numberAlone?_repr {n : Int} (lo : Int64.minValue.toInt ≤ n) (hi : n < UInt64.size) :
    numberAlone? n.repr = Tree.wholeNumber? n.repr := by
  rw [numberAlone?, parseValue_repr lo hi, Tree.wholeNumber?, integerOf_repr]
  rfl

/-- What is read from a regular object, as it stands. -/
theorem Tree.Regular.spec?_numberAlone {members : List (String × Tree)} (h : Regular members) :
    spec? numberAlone? (object members) = spec? wholeNumber? (object members) := by
  refine spec?_congr h.noArrays fun ms hms literal hl => ?_
  obtain ⟨n, lo, hi, rfl⟩ := h.integers ms hms literal hl
  exact numberAlone?_repr lo hi

end ExampleTests.Json
