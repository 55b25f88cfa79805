import ExampleTests.Proofs.Json.Ignored

/-! What is read from a tree. Blanks and escapes have no part in it: a reader gives
the same for all texts of one tree, whatever follows them. -/

namespace ExampleTests.Json

variable {α β : Type}

namespace Tree

def text? : Tree → Option String
  | text s => some s
  | null | boolean _ | number _ | array _ | object _ => none

/-- A literal; the numbers are given by what each spelling stands for. -/
def value? (number? : String → Option Value) : Tree → Option Value
  | boolean b => some (.ofBool b)
  | number literal => number? literal
  | text s => some (.raw s)
  | null | array _ | object _ => none

def optional? (read? : Tree → Option α) : Tree → Option (Option α)
  | null => some none
  | t => (read? t).map some

def list? (read? : Tree → Option α) : Tree → Option (List α)
  | array items => items.mapM read?
  | null | boolean _ | number _ | text _ | object _ => none

end Tree

theorem toOption_bind {ε : Type} (x : Except ε α) (next : α → Except ε β) :
    (x >>= next).toOption = x.toOption.bind fun a => (next a).toOption := by
  cases x <;> rfl

theorem toOption_mapError {ε ε' : Type} (x : Except ε α) (f : ε → ε') :
    (x.mapError f).toOption = x.toOption := by
  cases x <;> rfl

theorem toOption_map {ε : Type} (x : Except ε α) (f : α → β) :
    (x.map f).toOption = x.toOption.map f := by
  cases x <;> rfl

/-- On each text of a tree, behind any blanks, the reader gives what the tree means. -/
structure Realizes (read : Reader α) (meaning : Tree → Option α) : Prop where
  blanks : ∀ {blanks : List Char} (rest : List Char), Blanks blanks →
    read (blanks ++ rest) = read rest
  spelled : ∀ {t : Tree} {text : List Char} (rest : List Char), Spells t text → Delimited rest →
    (read (text ++ rest)).toOption = (meaning t).map fun a => (a, rest)

theorem toOption_readMismatch (wanted : Wanted) (rest : List Char) :
    (readMismatch wanted rest : Except Fault (α × List Char)).toOption = none := by
  rw [readMismatch, toOption_bind]
  cases (readFound rest).toOption <;> rfl

theorem toOption_readAll (read : Reader α) (source : String) :
    (readAll read source).toOption = (read source.toList).toOption.bind fun x =>
      if skipBlanks x.2 = [] then some x.1 else none := by
  rw [readAll]
  cases hr : read source.toList with
  | error e => rfl
  | ok x =>
    obtain ⟨a, rest⟩ := x
    simp only [bind, Except.bind, Except.toOption, Option.bind_some]
    cases hs : skipBlanks rest with
    | nil => rfl
    | cons c cs => rfl

section Scalars

theorem readString_other {c : Char} (hb : isBlank c = false) (hq : c ≠ '"') (rest : List Char) :
    readString (c :: rest) = readMismatch .text (c :: rest) := by
  simp only [readString, skipBlanks_cons hb]
  split
  case h_1 h => cases h; exact absurd rfl hq
  case h_2 => rfl

theorem realizes_readString : Realizes readString Tree.text? where
  blanks rest hb := by simp only [readString, skipBlanks_append hb]
  spelled rest h _ := by
    cases h with
    | @text s body hk =>
      have hr : readString ('"' :: (body ++ '"' :: rest)) = _ := hk.readText rest
      rw [List.cons_append, List.append_assoc, List.cons_append, List.nil_append, hr]
      rfl
    | number h =>
      obtain ⟨c, cs, ht, hc⟩ := h.opens
      have hs := numberStart hc
      rw [ht, List.cons_append, readString_other hs.notBlank hs.notQuote, toOption_readMismatch]
      rfl
    | null | isTrue | isFalse | array | object => exact toOption_readMismatch .text _

theorem readValue_scalar {c : Char} (hb : isBlank c = false) (ha : c ≠ '[') (ho : c ≠ '{')
    (rest : List Char) : readValue (c :: rest) = readFound (c :: rest) >>= fun x =>
      match Value.ofFound x.1 with
      | .ok v => .ok (v, x.2)
      | .error m => .error (.before (.mismatch m) x.2) := by
  simp only [readValue, skipBlanks_cons hb]
  split
  case h_1 h => cases h; exact absurd rfl ha
  case h_2 h => cases h; exact absurd rfl ho
  case h_3 => rfl

theorem toOption_readValue_scalar {c : Char} (hb : isBlank c = false) (ha : c ≠ '[') (ho : c ≠ '{')
    (rest : List Char) :
    (readValue (c :: rest)).toOption = (readFound (c :: rest)).toOption.bind fun found =>
      (Value.ofFound? found.1).map fun v => (v, found.2) := by
  rw [readValue_scalar hb ha ho, toOption_bind]
  congr 1
  funext ⟨found, rest⟩
  cases h : Value.ofFound? found <;> simp only [Value.ofFound, h] <;> rfl

/-- What a number is read as on its own. -/
def numberAlone? (literal : String) : Option Value := (parseValue literal).toOption

theorem readValue_number {literal : String} (h : NumberText literal.toList) {rest : List Char}
    (hr : Delimited rest) : (readValue (literal.toList ++ rest)).toOption =
      (numberAlone? literal).map fun v => (v, rest) := by
  obtain ⟨result, hread⟩ := h.takes
  obtain ⟨c, cs, ht, hc⟩ := h.opens
  have hs := numberStart hc
  have hfound : ∀ rest, Delimited rest →
      (readFound (literal.toList ++ rest)).toOption = result.toOption.map fun f => (f, rest) := by
    intro rest hr
    have hr := congrArg Except.toOption (hread rest hr)
    rwa [toOption_mapError, toOption_map] at hr
  have hvalue : ∀ rest, Delimited rest → (readValue (literal.toList ++ rest)).toOption =
      (result.toOption.bind Value.ofFound?).map fun v => (v, rest) := by
    intro rest hr
    have hf := hfound rest hr
    rw [ht, List.cons_append] at hf ⊢
    rw [toOption_readValue_scalar hs.notBlank hs.notBracket hs.notBrace, hf]
    cases result.toOption <;> rfl
  have halone := hvalue [] nofun
  rw [List.append_nil] at halone
  rw [hvalue rest hr, numberAlone?, parseValue, toOption_readAll, halone]
  cases result.toOption.bind Value.ofFound? <;> rfl

theorem realizes_readValue : Realizes readValue (Tree.value? numberAlone?) where
  blanks rest hb := by simp only [readValue, skipBlanks_append hb]
  spelled rest h hr := by
    cases h with
    | number h => exact readValue_number h hr
    | @text s body hk =>
      have hf : readFound ('"' :: (body ++ '"' :: rest)) = .ok (.text s, rest) := by
        simp only [readFound, hk.readText, bind, Except.bind]
      rw [List.cons_append, List.append_assoc, List.cons_append, List.nil_append,
        toOption_readValue_scalar rfl (by decide) (by decide), hf]
      rfl
    | null | isTrue | isFalse | array | object => rfl

end Scalars

section Optional

theorem readOptional_other {c : Char} (hb : isBlank c = false) (hn : c ≠ 'n') (read : Reader α)
    (rest : List Char) : (readOptional read (c :: rest)).toOption =
      (read (c :: rest)).toOption.map fun x => (some x.1, x.2) := by
  simp only [readOptional, skipBlanks_cons hb]
  split
  case h_1 h => cases h; exact absurd rfl hn
  case h_2 =>
    rw [toOption_bind]
    cases (read (c :: rest)).toOption <;> rfl

theorem Realizes.optional {read : Reader α} {read? : Tree → Option α} (hr : Realizes read read?) :
    Realizes (readOptional read) (Tree.optional? read?) where
  blanks rest hb := by simp only [readOptional, skipBlanks_append hb]
  spelled {t text} rest h hrest := by
    have hs := hr.spelled rest h hrest
    have hother : ∀ c cs, text = c :: cs → isBlank c = false → c ≠ 'n' →
        (readOptional read (text ++ rest)).toOption =
          ((read? t).map some).map fun a => (a, rest) := by
      rintro c cs rfl hb hn
      rw [List.cons_append] at hs ⊢
      rw [readOptional_other hb hn, hs]
      cases read? t <;> rfl
    cases h with
    | null => rfl
    | number h =>
      obtain ⟨c, cs, ht, hc⟩ := h.opens
      exact hother c cs ht (numberStart hc).notBlank (numberStart hc).notNull
    | isTrue | isFalse | text | array | object => exact hother _ _ rfl rfl (by decide)

end Optional

section Lists

theorem nextElement_done (first : Bool) {blanks : List Char} (hb : Blanks blanks) (rest : List Char) :
    nextElement first (blanks ++ ']' :: rest) = .ok none := by
  have hs : skipBlanks (']' :: rest) = ']' :: rest := skipBlanks_cons rfl rest
  simp only [nextElement, skipBlanks_append hb, hs]

theorem nextElement_next (first : Bool) {before after : List Char} (hb : Blanks before)
    (ha : Blanks after) {c : Char} (hc : isBlank c = false) (hne : c ≠ ']') (rest : List Char) :
    nextElement first (before ++ (comma first ++ (after ++ c :: rest))) = .ok (some (c :: rest)) := by
  have hs : skipBlanks (after ++ c :: rest) = c :: rest := by
    rw [skipBlanks_append ha, skipBlanks_cons hc]
  rw [nextElement, skipBlanks_append hb]
  cases first with
  | true => simp only [comma, if_true, List.nil_append, hs]
  | false =>
    have hcomma : skipBlanks (',' :: (after ++ c :: rest)) = ',' :: (after ++ c :: rest) := rfl
    simp only [comma, Bool.false_eq_true, if_false, List.cons_append, List.nil_append, hcomma]
    split
    case h_1 he => cases he
    case h_2 he => cases he
    case h_3 he =>
      cases he
      rw [if_pos rfl, hs]
      split <;> simp_all

theorem endArray_done {blanks : List Char} (hb : Blanks blanks) (rest : List Char) :
    endArray (blanks ++ ']' :: rest) = .ok rest := by
  have hs : skipBlanks (']' :: rest) = ']' :: rest := skipBlanks_cons rfl rest
  simp only [endArray, skipBlanks_append hb, hs]

theorem readElements_spells {read : Reader α} {read? : Tree → Option α} (hr : Realizes read read?)
    {first : Bool} {items : List Tree} {text : List Char} (h : SpellsItems first items text)
    {fuel : Nat} (hf : items.length < fuel) (rest : List Char) :
    (readElements read fuel first (text ++ ']' :: rest)).toOption =
      (items.mapM read?).map fun as => (as, rest) := by
  induction items generalizing first text fuel with
  | nil =>
    obtain ⟨fuel, rfl⟩ := exists_fuel_left hf
    cases h with
    | done hb =>
      simp only [readElements, nextElement_done first hb, endArray_done hb, bind, Except.bind]
      rfl
  | cons item items ih =>
    obtain ⟨fuel, rfl⟩ := exists_fuel_left hf
    cases h with
    | @next _ before after text more _ _ hb ha hi h =>
      have ih := ih h (Nat.lt_of_succ_lt_succ hf)
      have hs := hr.spelled (more ++ ']' :: rest) hi (h.delimited rest)
      obtain ⟨c, cs, rfl, hblank, hne⟩ := hi.opens
      have hn := nextElement_next first hb ha hblank hne (cs ++ (more ++ ']' :: rest))
      simp only [List.append_assoc, List.cons_append] at hs ⊢
      rw [readElements, hn]
      refine (toOption_bind (read _) _).trans ?_
      rw [hs, List.mapM_cons]
      cases read? item with
      | none => rfl
      | some a =>
        refine (toOption_bind (readElements read fuel false _) _).trans ?_
        rw [ih]
        cases items.mapM read? <;> rfl

theorem SpellsItems.length_le {first : Bool} {items : List Tree} {text : List Char}
    (h : SpellsItems first items text) : items.length ≤ text.length := by
  induction items generalizing first text with
  | nil => exact Nat.zero_le _
  | cons item items ih =>
    cases h with
    | next _ _ hi h =>
      obtain ⟨c, cs, rfl, -⟩ := hi.opens
      have hl := ih h
      simp only [List.length_append, List.length_cons]
      omega

theorem readList_other {c : Char} (hb : isBlank c = false) (ha : c ≠ '[') (read : Reader α)
    (rest : List Char) : readList read (c :: rest) = readMismatch .sequence (c :: rest) := by
  simp only [readList, skipBlanks_cons hb]
  split
  case h_1 h => cases h; exact absurd rfl ha
  case h_2 => rfl

theorem Realizes.list {read : Reader α} {read? : Tree → Option α} (hr : Realizes read read?) :
    Realizes (readList read) (Tree.list? read?) where
  blanks rest hb := by simp only [readList, skipBlanks_append hb]
  spelled rest h _ := by
    cases h with
    | @array items text h =>
      have hl : items.length < (text ++ ']' :: rest).length + 1 := by
        have hi := h.length_le
        rw [List.length_append]
        omega
      rw [List.cons_append, List.append_assoc, List.cons_append, List.nil_append]
      exact readElements_spells hr h hl rest
    | number h =>
      obtain ⟨c, cs, ht, hc⟩ := h.opens
      have hs := numberStart hc
      rw [ht, List.cons_append, readList_other hs.notBlank hs.notBracket, toOption_readMismatch]
      rfl
    | null | isTrue | isFalse | text | object => exact toOption_readMismatch .sequence _

end Lists

end ExampleTests.Json
