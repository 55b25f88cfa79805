import ExampleTests.Proofs.Call
import ExampleTests.Proofs.Rendering
import ExampleTests.Text.Alphanumeric

/-! How a curried call reads as an expression. Application is juxtaposition and binds
tighter than subtraction, so each number must be a word of its own kind: behind a
sign it is no argument but what is subtracted. -/

namespace ExampleTests

open Json (Digits Numeral minus)

/-- Words that have a meaning of their own and are no names. -/
def reservedWords : List String :=
  ["case", "class", "data", "default", "deriving", "do", "else", "foreign", "if", "import", "in",
    "infix", "infixl", "infixr", "instance", "let", "module", "newtype", "of", "then", "type",
    "where", "_"]

structure IsIdentifier (name : String) : Prop where
  notReserved : name ∉ reservedWords
  starts : ∃ c ∈ name.toList.head?, c = '_' ∨ Text.isAlphanumeric c = true ∧ c.isDigit = false
  chars : ∀ c ∈ name.toList, c = '_' ∨ c = '\'' ∨ Text.isAlphanumeric c = true

/-- Numbers without a sign. -/
inductive IsLiteral : List Char → Prop where
  | integer {ds : List Char} (h : Digits ds) : IsLiteral ds
  | decimal {whole fraction : List Char} (hw : Digits whole) (hf : Digits fraction) :
      IsLiteral (whole ++ '.' :: fraction)

/-- What stands for a single argument. -/
inductive IsAtom : List Char → Prop where
  | literal {word : List Char} (h : IsLiteral word) : IsAtom word
  | parenthesized (inner : List Char) : IsAtom ('(' :: (inner ++ [')']))

inductive Expression where
  | atom (word : List Char)
  | apply (function argument : Expression)
  | minus (left right : Expression)
deriving DecidableEq

namespace Expression

/-- One argument more, for what stands behind the last minus. -/
def give : Expression → List Char → Expression
  | minus left right, word => minus left (right.give word)
  | function, word => apply function (atom word)

/-- One word more; a minus in front of it ends the argument list. -/
def goOn (e : Expression) : List Char → Expression
  | '-' :: word => minus e (atom word)
  | word => e.give word

def ofWords : List (List Char) → Option Expression
  | [] => none
  | word :: words => some (words.foldl goOn (atom word))

/-- A name applied to words, one after the other. -/
def application (name : List Char) (words : List (List Char)) : Expression :=
  words.foldl (fun function word => apply function (atom word)) (atom name)

def IsMinus (e : Expression) : Prop := ∃ left right, e = minus left right

theorem not_isMinus_atom (word : List Char) : ¬ (atom word).IsMinus := by
  rintro ⟨left, right, h⟩
  cases h

theorem not_isMinus_apply (function argument : Expression) : ¬ (apply function argument).IsMinus := by
  rintro ⟨left, right, h⟩
  cases h

theorem give_of_not_isMinus {e : Expression} (h : ¬ e.IsMinus) (word : List Char) :
    e.give word = apply e (atom word) := by
  cases e with
  | minus left right => exact absurd ⟨left, right, rfl⟩ h
  | atom | apply => rfl

theorem goOn_isMinus {e : Expression} (h : e.IsMinus) (word : List Char) : (e.goOn word).IsMinus := by
  obtain ⟨left, right, rfl⟩ := h
  unfold goOn
  split
  · exact ⟨_, _, rfl⟩
  · exact ⟨_, _, rfl⟩

theorem foldl_goOn_isMinus {e : Expression} (h : e.IsMinus) (words : List (List Char)) :
    (words.foldl goOn e).IsMinus := by
  induction words generalizing e with
  | nil => exact h
  | cons word words ih => exact ih (goOn_isMinus h word)

theorem goOn_unsigned {e : Expression} (h : ¬ e.IsMinus) {word : List Char}
    (hw : word.head? ≠ some '-') : e.goOn word = apply e (atom word) := by
  unfold goOn
  split
  · exact absurd rfl hw
  · exact give_of_not_isMinus h word

theorem foldl_goOn_unsigned {e : Expression} (h : ¬ e.IsMinus) {words : List (List Char)}
    (hw : ∀ word ∈ words, word.head? ≠ some '-') :
    words.foldl goOn e = words.foldl (fun function word => apply function (atom word)) e := by
  induction words generalizing e with
  | nil => rfl
  | cons word words ih =>
    rw [List.foldl_cons, List.foldl_cons, goOn_unsigned h (hw word List.mem_cons_self)]
    exact ih (not_isMinus_apply _ _) fun w hm => hw w (List.mem_cons_of_mem word hm)

theorem foldl_goOn_signed {e : Expression} {words : List (List Char)}
    (hw : ∃ word ∈ words, word.head? = some '-') : (words.foldl goOn e).IsMinus := by
  induction words generalizing e with
  | nil =>
    obtain ⟨_, hm, -⟩ := hw
    cases hm
  | cons word words ih =>
    obtain ⟨signed, hm, hs⟩ := hw
    rcases List.mem_cons.mp hm with rfl | hm
    · obtain ⟨rest, rfl⟩ := List.head?_eq_some_iff.mp hs
      exact foldl_goOn_isMinus ⟨e, atom rest, rfl⟩ words
    · exact ih ⟨signed, hm, hs⟩

theorem application_not_isMinus (name : List Char) (words : List (List Char)) :
    ¬ (application name words).IsMinus := by
  rcases List.eq_nil_or_concat words with rfl | ⟨init, last, rfl⟩
  · exact not_isMinus_atom name
  · rw [application, List.concat_eq_append, List.foldl_append]
    exact not_isMinus_apply _ _

/-- Words read as an application unless one of those behind the first has a minus. -/
theorem ofWords_eq_application_iff (name : List Char) (words : List (List Char)) :
    ofWords (name :: words) = some (application name words) ↔
      ∀ word ∈ words, word.head? ≠ some '-' := by
  refine ⟨fun h word hm hs => ?_, fun h =>
    congrArg some (foldl_goOn_unsigned (not_isMinus_atom name) h)⟩
  refine application_not_isMinus name words ?_
  rw [← Option.some.inj h]
  exact foldl_goOn_signed ⟨word, hm, hs⟩

end Expression

namespace Value

/-- Integers and finite floats. -/
def isFiniteNumber : Value → Bool
  | integer _ => true
  | float x => x.isFinite
  | raw _ => false

def isSigned : Value → Bool
  | integer n => n.toInt < 0
  | float x => Binary64.signBit x
  | raw _ => false

theorem isNumeric_of_isFiniteNumber {v : Value} (h : v.isFiniteNumber = true) : v.isNumeric = true := by
  cases v with
  | integer n => rfl
  | float x => rfl
  | raw text => cases h

theorem render_finiteNumber {v : Value} (h : v.isFiniteNumber = true) :
    ∃ literal, IsLiteral literal ∧ v.render.toList = minus v.isSigned ++ literal := by
  cases v with
  | integer n =>
    obtain ⟨hne, hd, -⟩ := Json.numeral_repr n.toInt.natAbs
    exact ⟨_, .integer ⟨hne, hd⟩, Json.repr_eq_minus n.toInt⟩
  | float x =>
    obtain ⟨negative, m, q, hx⟩ := Binary64.isFinite_iff.mp h
    obtain rfl := Binary64.eq_signBit (.inr ⟨m, q, hx⟩)
    obtain ⟨whole, fraction, ht, ⟨hne, hd, -⟩, hf⟩ := isDecimal_floatText hx
    exact ⟨_, .decimal ⟨hne, hd⟩ hf, ht⟩
  | raw text => cases h

end Value

theorem IsLiteral.head_isDigit {word : List Char} (h : IsLiteral word) :
    ∃ c rest, word = c :: rest ∧ c.isDigit = true := by
  cases h with
  | integer h =>
    obtain ⟨c, cs, rfl⟩ := List.exists_cons_of_ne_nil h.nonempty
    exact ⟨c, cs, rfl, h.digits c List.mem_cons_self⟩
  | decimal hw hf =>
    obtain ⟨c, cs, rfl⟩ := List.exists_cons_of_ne_nil hw.nonempty
    exact ⟨c, _, rfl, hw.digits c List.mem_cons_self⟩

theorem IsLiteral.head_ne_minus {word : List Char} (h : IsLiteral word) : word.head? ≠ some '-' := by
  obtain ⟨c, rest, rfl, hc⟩ := h.head_isDigit
  rintro ⟨⟩
  cases hc

/-- A sign makes a number more than an atom. -/
theorem isAtom_signed_iff {literal : List Char} (h : IsLiteral literal) (signed : Bool) :
    IsAtom (minus signed ++ literal) ↔ signed = false := by
  cases signed with
  | false => exact iff_of_true (.literal h) rfl
  | true =>
    refine iff_of_false (fun ha => ?_) nofun
    cases ha with
    | literal h => exact h.head_ne_minus rfl

theorem head?_signed_iff {literal : List Char} (h : IsLiteral literal) (signed : Bool) :
    (minus signed ++ literal).head? ≠ some '-' ↔ signed = false := by
  cases signed with
  | false => exact iff_of_true h.head_ne_minus rfl
  | true => exact iff_of_false (fun ha => ha rfl) nofun

theorem IsIdentifier.ascii {name : String} (hr : name ∉ reservedWords)
    (hs : ∃ c ∈ name.toList.head?, c.isDigit = false)
    (hc : name.toList.all fun c => c.toNat < 0x80 && c.isAlphanum) : IsIdentifier name := by
  have hall : ∀ c ∈ name.toList, Text.isAlphanumeric c = true := by
    intro c hm
    have h := List.all_eq_true.mp hc c hm
    rw [Bool.and_eq_true, decide_eq_true_eq] at h
    exact (if_pos h.1).trans h.2
  obtain ⟨c, hm, hd⟩ := hs
  exact ⟨hr, ⟨c, hm, .inr ⟨hall c (List.mem_of_mem_head? hm), hd⟩⟩, fun c hm => .inr (.inr (hall c hm))⟩

theorem IsIdentifier.blank_not_mem {name : String} (h : IsIdentifier name) : ' ' ∉ name.toList := by
  intro hm
  rcases h.chars ' ' hm with hc | hc | hc
  · cases hc
  · cases hc
  · exact absurd hc (by decide)

/-- A curried call in words: its name and the texts of its arguments. -/
theorem splitOn_haskell_call {subject : String} {e : Example} (hs : ' ' ∉ subject.toList)
    (ha : ∀ v ∈ e.argumentList, ' ' ∉ v.render.toList) :
    (Language.haskell.call subject e).toList.splitOn ' ' =
      subject.toList :: e.argumentList.map (·.render.toList) := by
  rw [Language.call_eq_application, Language.application, String.toList_intercalate]
  have hall : ∀ word ∈ (subject :: e.argumentList.map Value.render).map String.toList, ' ' ∉ word := by
    simpa using ⟨hs, ha⟩
  exact (List.splitOn_intercalate ' ' hall (List.cons_ne_nil _ _)).trans (by simp)

/-- A call with numbers is its name and one word for each of them. The word of a number
without a sign is an atom and that of one with a sign is not, so the call reads as an
application if there is none with a sign, and as a subtraction otherwise. -/
theorem call_numbers {subject : String} (hs : IsIdentifier subject) {e : Example}
    (hn : ∀ v ∈ e.argumentList, v.isFiniteNumber = true) :
    let words := (Language.haskell.call subject e).toList.splitOn ' '
    let texts := e.argumentList.map (·.render.toList)
    words = subject.toList :: texts ∧
    (∀ v ∈ e.argumentList, ∃ literal, IsLiteral literal ∧
      v.render.toList = minus v.isSigned ++ literal ∧ (IsAtom v.render.toList ↔ v.isSigned = false)) ∧
    (Expression.ofWords words = some (.application subject.toList texts) ↔
      ∀ v ∈ e.argumentList, v.isSigned = false) ∧
    ((∃ v ∈ e.argumentList, v.isSigned = true) →
      ∃ left right, Expression.ofWords words = some (.minus left right)) := by
  intro words texts
  have hw : words = subject.toList :: texts := splitOn_haskell_call hs.blank_not_mem fun v hv =>
    Value.blank_not_mem_render (Value.isNumeric_of_isFiniteNumber (hn v hv))
  have hhead : ∀ v ∈ e.argumentList, (v.render.toList.head? ≠ some '-' ↔ v.isSigned = false) := by
    intro v hv
    obtain ⟨literal, hl, ht⟩ := Value.render_finiteNumber (hn v hv)
    rw [ht]
    exact head?_signed_iff hl v.isSigned
  refine ⟨hw, fun v hv => ?_, ?_, ?_⟩
  · obtain ⟨literal, hl, ht⟩ := Value.render_finiteNumber (hn v hv)
    exact ⟨literal, hl, ht, ht ▸ isAtom_signed_iff hl v.isSigned⟩
  · rw [hw, Expression.ofWords_eq_application_iff, List.forall_mem_map]
    exact forall₂_congr hhead
  · rintro ⟨v, hv, hsigned⟩
    have hminus : v.render.toList.head? = some '-' := by
      by_contra h
      rw [(hhead v hv).mp h] at hsigned
      cases hsigned
    have hmem : ∃ word ∈ texts, word.head? = some '-' :=
      ⟨v.render.toList, List.mem_map.mpr ⟨v, hv, rfl⟩, hminus⟩
    obtain ⟨left, right, h⟩ := Expression.foldl_goOn_signed (e := .atom subject.toList) hmem
    exact ⟨left, right, hw ▸ congrArg some h⟩

theorem call_numbers_zeros :
    let e : Example := { arguments := some [.integer 2, .float (Float.ofBits 0x8000000000000000)] }
    IsIdentifier "sumar" ∧ (∀ v ∈ e.argumentList, v.isFiniteNumber = true) ∧
      (∃ v ∈ e.argumentList, v.isSigned = true) ∧ ∃ left right,
        Expression.ofWords ((Language.haskell.call "sumar" e).toList.splitOn ' ') =
          some (.minus left right) := by
  intro e
  have hs : IsIdentifier "sumar" := .ascii (by decide) ⟨'s', rfl, rfl⟩ (by decide)
  have hn : ∀ v ∈ e.argumentList, v.isFiniteNumber = true := by decide +kernel
  have hsigned : ∃ v ∈ e.argumentList, v.isSigned = true := by decide +kernel
  exact ⟨hs, hn, hsigned, (call_numbers hs hn).2.2.2 hsigned⟩

/-- A negative number is subtracted from the name of the function. -/
theorem call_with_minus_seven :
    let e : Example := { arguments := some [.integer (-7)] }
    let words := (Language.haskell.call "f" e).toList.splitOn ' '
    IsIdentifier "f" ∧ (∀ v ∈ e.argumentList, v.isFiniteNumber = true) ∧
      words = [['f'], ['-', '7']] ∧ ¬ IsAtom ['-', '7'] ∧
      Expression.ofWords words = some (.minus (.atom ['f']) (.atom ['7'])) := by
  intro e words
  have hw : words = [['f'], ['-', '7']] := by decide
  have hs : IsIdentifier "f" := .ascii (by decide) ⟨'f', rfl, rfl⟩ (by decide)
  refine ⟨hs, by decide, hw, fun h => ?_, by rw [hw]; rfl⟩
  cases h with
  | literal h => exact h.head_ne_minus rfl

end ExampleTests
