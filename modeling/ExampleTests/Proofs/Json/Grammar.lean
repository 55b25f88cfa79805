import ExampleTests.Proofs.Json.Number

/-! The texts of JSON. A tree is what a text says: members keep their order and
may repeat a key, and a number is kept as it is spelled. Texts of one tree
differ in their blanks and in the escapes of their strings. -/

namespace ExampleTests.Json

inductive Tree where
  | null
  | boolean (b : Bool)
  | number (literal : String)
  | text (s : String)
  | array (items : List Tree)
  | object (members : List (String × Tree))

def Blanks (blanks : List Char) : Prop := ∀ c ∈ blanks, isBlank c = true

structure Digits (ds : List Char) : Prop where
  nonempty : ds ≠ []
  digits : ∀ c ∈ ds, c.isDigit

def minus (negative : Bool) : List Char := if negative then ['-'] else []

inductive Fraction : List Char → Prop where
  | none : Fraction []
  | point {ds : List Char} (h : Digits ds) : Fraction ('.' :: ds)

inductive Exponent : List Char → Prop where
  | none : Exponent []
  | mark {c : Char} {sign ds : List Char} (hc : c = 'e' ∨ c = 'E')
      (hs : sign = [] ∨ sign = ['+'] ∨ sign = ['-']) (h : Digits ds) : Exponent (c :: (sign ++ ds))

inductive NumberText : List Char → Prop where
  | parts (negative : Bool) {whole fraction exponent : List Char} (hw : Numeral whole)
      (hf : Fraction fraction) (he : Exponent exponent) :
      NumberText (minus negative ++ (whole ++ (fraction ++ exponent)))

inductive HexDigit : Nat → Char → Prop where
  | lower {d : Nat} (h : d < 16) : HexDigit d (Nat.digitChar d)
  | upper {d : Nat} (h : d < 16) : HexDigit d (Nat.digitChar d).toUpper

inductive Hex : Nat → List Char → Prop where
  | digits {i j k l : Nat} {a b c d : Char} (ha : HexDigit i a) (hb : HexDigit j b)
      (hc : HexDigit k c) (hd : HexDigit l d) :
      Hex (((i * 16 + j) * 16 + k) * 16 + l) [a, b, c, d]

/-- The letters that stand for a character behind a backslash. -/
def letterEscapes : List (Char × Char) :=
  [('"', '"'), ('\\', '\\'), ('/', '/'), ('b', '\x08'), ('f', '\x0c'), ('n', '\n'), ('r', '\r'),
    ('t', '\t')]

inductive SpellsChar : Char → List Char → Prop where
  | plain {c : Char} (hq : c ≠ '"') (hb : c ≠ '\\') (hc : ¬c.toNat < 0x20) : SpellsChar c [c]
  | letter {c d : Char} (h : (d, c) ∈ letterEscapes) : SpellsChar c ['\\', d]
  | code {c : Char} {ds : List Char} (h : Hex c.toNat ds) : SpellsChar c ('\\' :: 'u' :: ds)
  | pair {c : Char} {high low : Nat} {ds es : List Char} (hh : Hex high ds) (hl : Hex low es)
      (hhigh : 0xD800 ≤ high ∧ high < 0xDC00) (hlow : 0xDC00 ≤ low ∧ low < 0xE000)
      (hc : c.toNat = 0x10000 + (high - 0xD800) * 0x400 + (low - 0xDC00)) :
      SpellsChar c ('\\' :: 'u' :: (ds ++ '\\' :: 'u' :: es))

/-- The characters of a string and what stands for them between its quotes. -/
inductive SpellsText : List Char → List Char → Prop where
  | nil : SpellsText [] []
  | cons {c : Char} {cs spelling body : List Char} (hc : SpellsChar c spelling)
      (h : SpellsText cs body) : SpellsText (c :: cs) (spelling ++ body)

def comma (first : Bool) : List Char := if first then [] else [',']

mutual

/-- The texts of a tree, without blanks around them. -/
inductive Spells : Tree → List Char → Prop where
  | null : Spells .null ['n', 'u', 'l', 'l']
  | isTrue : Spells (.boolean true) ['t', 'r', 'u', 'e']
  | isFalse : Spells (.boolean false) ['f', 'a', 'l', 's', 'e']
  | number {literal : String} (h : NumberText literal.toList) :
      Spells (.number literal) literal.toList
  | text {s : String} {body : List Char} (h : SpellsText s.toList body) :
      Spells (.text s) ('"' :: (body ++ ['"']))
  | array {items : List Tree} {text : List Char} (h : SpellsItems true items text) :
      Spells (.array items) ('[' :: (text ++ [']']))
  | object {members : List (String × Tree)} {text : List Char}
      (h : SpellsMembers true members text) : Spells (.object members) ('{' :: (text ++ ['}']))

/-- Items from one of them on, with the comma in front of each but the first of
all, up to the closing bracket. -/
inductive SpellsItems : Bool → List Tree → List Char → Prop where
  | done {first : Bool} {blanks : List Char} (hb : Blanks blanks) : SpellsItems first [] blanks
  | next {first : Bool} {before after text more : List Char} {item : Tree} {items : List Tree}
      (hb : Blanks before) (ha : Blanks after) (hi : Spells item text)
      (h : SpellsItems false items more) :
      SpellsItems first (item :: items) (before ++ (comma first ++ (after ++ (text ++ more))))

inductive SpellsMembers : Bool → List (String × Tree) → List Char → Prop where
  | done {first : Bool} {blanks : List Char} (hb : Blanks blanks) : SpellsMembers first [] blanks
  | next {first : Bool} {before after body gap lead text more : List Char} {key : String}
      {value : Tree} {members : List (String × Tree)}
      (hb : Blanks before) (ha : Blanks after) (hk : SpellsText key.toList body)
      (hg : Blanks gap) (hl : Blanks lead) (hv : Spells value text)
      (h : SpellsMembers false members more) :
      SpellsMembers first ((key, value) :: members)
        (before ++ (comma first ++ (after ++ ('"' :: (body ++ ('"' ::
          (gap ++ (':' :: (lead ++ (text ++ more))))))))))

end

/-- The texts of a tree as a whole source, with blanks around it. -/
inductive SpellsSource (tree : Tree) : List Char → Prop where
  | intro {before text after : List Char} (hb : Blanks before) (ht : Spells tree text)
      (ha : Blanks after) : SpellsSource tree (before ++ (text ++ after))

instance (blanks : List Char) : Decidable (Blanks blanks) :=
  decidable_of_iff (blanks.all isBlank = true) List.all_eq_true

theorem SpellsText.plain {cs : List Char}
    (h : cs.all fun c => c ≠ '"' ∧ c ≠ '\\' ∧ ¬c.toNat < 0x20) : SpellsText cs cs := by
  induction cs with
  | nil => exact .nil
  | cons c cs ih =>
    rw [List.all_cons, Bool.and_eq_true, decide_eq_true_eq] at h
    obtain ⟨⟨hq, hb, hc⟩, h⟩ := h
    exact .cons (.plain hq hb hc) (ih h)

theorem Numeral.numberText {ds : List Char} (h : Numeral ds) (negative : Bool) :
    NumberText (minus negative ++ ds) := by
  have ht := NumberText.parts negative h .none .none
  rwa [List.append_nil, List.append_nil] at ht

theorem repr_eq_minus (n : Int) : n.repr.toList = minus (n < 0) ++ n.natAbs.repr.toList := by
  rw [repr_toList]
  by_cases hn : n < 0
  · rw [if_pos hn, decide_eq_true hn]
    rfl
  · rw [if_neg hn, decide_eq_false hn]
    rfl

theorem numberText_repr (n : Int) : NumberText n.repr.toList := by
  rw [repr_eq_minus]
  exact (numeral_repr n.natAbs).numberText _

theorem exists_fuel_left {n fuel : Nat} (h : n < fuel) : ∃ left, fuel = left + 1 :=
  Nat.exists_eq_add_one_of_ne_zero (Nat.ne_of_gt (Nat.zero_lt_of_lt h))

theorem skipBlanks_append {blanks : List Char} (hb : Blanks blanks) (rest : List Char) :
    skipBlanks (blanks ++ rest) = skipBlanks rest := List.dropWhile_append_of_pos hb

theorem skipBlanks_blanks {blanks : List Char} (hb : Blanks blanks) : skipBlanks blanks = [] := by
  have h := skipBlanks_append hb []
  rwa [List.append_nil] at h

end ExampleTests.Json
