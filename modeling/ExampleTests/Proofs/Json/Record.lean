import ExampleTests.Loading
import ExampleTests.Proofs.Json.Meaning

/-! Records from objects and arrays. What stands under a key of an object is read
wherever it stands, and the members of other keys are skipped. -/

namespace ExampleTests.Json

variable {α β γ σ : Type}

namespace Tree

/-- What stands under a key, as often as it occurs. -/
def valuesAt (key : String) (members : List (String × Tree)) : List Tree :=
  (members.filter (·.1 = key)).map (·.2)

/-- A place that takes one value at most. -/
def readOnce? (read? : Tree → Option α) : Option α → List Tree → Option (Option α)
  | present, [] => some present
  | none, t :: ts => (read? t).bind fun a => readOnce? read? (some a) ts
  | some _, _ :: _ => none

/-- What is there for the two parts of a record: members of an object by their
keys, or items of an array, the second part in all places but the first. -/
def parts? (key₁ key₂ : String) : Tree → Option (List Tree × List Tree)
  | object members => some (valuesAt key₁ members, valuesAt key₂ members)
  | array items => some (items.take 1, items.drop 1)
  | null | boolean _ | number _ | text _ => none

def record? (key₁ key₂ : String) (read₁? : Tree → Option α) (read₂? : Tree → Option β)
    (missing₁ : α) (missing₂ : β) (build : α → β → γ) (t : Tree) : Option γ :=
  (parts? key₁ key₂ t).bind fun (ts₁, ts₂) =>
    (readOnce? read₁? none ts₁).bind fun a =>
      (readOnce? read₂? none ts₂).map fun b => build (a.getD missing₁) (b.getD missing₂)

def example? (number? : String → Option Value) : Tree → Option Example :=
  record? "arguments" "return" (optional? (list? (value? number?))) (optional? (value? number?))
    none none Example.mk

def spec? (number? : String → Option Value) : Tree → Option Spec :=
  record? "subject" "examples" text? (optional? (list? (example? number?))) "" none Spec.mk

theorem valuesAt_cons (key : String) (m : String × Tree) (members : List (String × Tree)) :
    valuesAt key (m :: members) =
      if m.1 = key then m.2 :: valuesAt key members else valuesAt key members := by
  by_cases h : m.1 = key <;> simp [valuesAt, h]

end Tree

section Objects

theorem nextKey_done (first : Bool) {blanks : List Char} (hb : Blanks blanks) (rest : List Char) :
    nextKey first (blanks ++ '}' :: rest) = .ok none := by
  have hs : skipBlanks ('}' :: rest) = '}' :: rest := skipBlanks_cons rfl rest
  simp only [nextKey, skipBlanks_append hb, hs]

theorem nextKey_next (first : Bool) {before after : List Char} (hb : Blanks before)
    (ha : Blanks after) (rest : List Char) :
    nextKey first (before ++ (comma first ++ (after ++ '"' :: rest))) = .ok (some rest) := by
  have hs : skipBlanks (after ++ '"' :: rest) = '"' :: rest := by
    rw [skipBlanks_append ha, skipBlanks_cons rfl]
  rw [nextKey, skipBlanks_append hb]
  cases first with
  | true => simp [comma, hs]
  | false =>
    have hcomma : skipBlanks (',' :: (after ++ '"' :: rest)) = ',' :: (after ++ '"' :: rest) := rfl
    simp [comma, hcomma, hs]

theorem endObject_done {blanks : List Char} (hb : Blanks blanks) (rest : List Char) :
    endObject (blanks ++ '}' :: rest) = .ok rest := by
  have hs : skipBlanks ('}' :: rest) = '}' :: rest := skipBlanks_cons rfl rest
  simp only [endObject, skipBlanks_append hb, hs]

theorem expectColon_gap {gap : List Char} (hg : Blanks gap) (rest : List Char) :
    expectColon (gap ++ ':' :: rest) = .ok rest := by
  have hs : skipBlanks (':' :: rest) = ':' :: rest := skipBlanks_cons rfl rest
  simp only [expectColon, skipBlanks_append hg, hs]

/-- The fields of a record are two, each with its key and its reader. -/
structure TwoFields (field : σ → String → Field σ) (make : Option α → Option β → σ)
    (key₁ key₂ : String) (read₁ : Reader α) (read₂ : Reader β) : Prop where
  ne : key₂ ≠ key₁
  first : ∀ a b, field (make a b) key₁ = .once a read₁ fun x => make (some x) b
  second : ∀ a b, field (make a b) key₂ = .once b read₂ fun y => make a (some y)
  other : ∀ a b key, key ≠ key₁ → key ≠ key₂ → field (make a b) key = .unknown

theorem readMembers_next (field : σ → String → Field σ) (fuel : Nat) (first : Bool) (fields : σ)
    {before after body gap : List Char} {key : String} (hb : Blanks before) (ha : Blanks after)
    (hk : SpellsText key.toList body) (hg : Blanks gap) (rest : List Char) :
    readMembers field (fuel + 1) first fields (before ++ (comma first ++ (after ++ '"' ::
      (body ++ '"' :: (gap ++ ':' :: rest))))) =
      match field fields key with
      | .repeated => .error (.before (.duplicateField key) (afterClosingObject (gap ++ ':' :: rest)))
      | .value read => read rest >>= fun next => readMembers field fuel false next.1 next.2
      | .unknown => skipValue rest >>= fun rest => readMembers field fuel false fields rest := by
  have hc := expectColon_gap hg rest
  rw [readMembers, nextKey_next first hb ha]
  simp only [bind, Except.bind, hk.readText]
  cases field fields key with
  | repeated => rfl
  | value read | unknown => simp only [hc]

section Fields

variable {field : σ → String → Field σ} {make : Option α → Option β → σ} {key₁ key₂ : String}
  {read₁ : Reader α} {read₂ : Reader β} {read₁? : Tree → Option α} {read₂? : Tree → Option β}

theorem Realizes.place {read : Reader α} {read? : Tree → Option α} (hr : Realizes read read?)
    {value : Tree} {lead text more : List Char} (hl : Blanks lead) (hv : Spells value text)
    (hm : Delimited more) (set : α → σ) :
    (read (lead ++ (text ++ more)) >>= fun x => Except.ok (set x.1, x.2)).toOption =
      (read? value).map fun a => (set a, more) := by
  rw [toOption_bind, hr.blanks _ hl, hr.spelled more hv hm]
  cases read? value <;> rfl

theorem readMembers_spells (hfields : TwoFields field make key₁ key₂ read₁ read₂)
    (h₁ : Realizes read₁ read₁?) (h₂ : Realizes read₂ read₂?) {first : Bool}
    {members : List (String × Tree)} {text : List Char} (h : SpellsMembers first members text)
    {fuel : Nat} (hf : members.length < fuel) (a : Option α) (b : Option β) (rest : List Char) :
    (readMembers field fuel first (make a b) (text ++ '}' :: rest)).toOption =
      (Tree.readOnce? read₁? a (Tree.valuesAt key₁ members)).bind fun a =>
        (Tree.readOnce? read₂? b (Tree.valuesAt key₂ members)).map fun b => (make a b, rest) := by
  induction members generalizing first text fuel a b with
  | nil =>
    obtain ⟨fuel, rfl⟩ := exists_fuel_left hf
    cases h with
    | done hb =>
      simp only [readMembers, nextKey_done first hb, endObject_done hb, bind, Except.bind]
      rfl
  | cons member members ih =>
    obtain ⟨fuel, rfl⟩ := exists_fuel_left hf
    cases h with
    | @next _ before after body gap lead text more key value _ hb ha hk hg hl hv h =>
      have ih := ih h (Nat.lt_of_succ_lt_succ hf)
      have hm := h.delimited rest
      simp only [List.append_assoc, List.cons_append]
      rw [readMembers_next field fuel first (make a b) hb ha hk hg, Tree.valuesAt_cons,
        Tree.valuesAt_cons]
      by_cases hkey₁ : key = key₁
      · subst hkey₁
        rw [hfields.first, if_pos rfl, if_neg hfields.ne.symm]
        cases a with
        | some a => rfl
        | none =>
          have hp := h₁.place hl hv hm fun x => make (some x) b
          refine (toOption_bind _ _).trans ((congrArg (Option.bind · _) hp).trans ?_)
          cases hvalue : read₁? value with
          | none => simp [Tree.readOnce?, hvalue]
          | some x => simpa [Tree.readOnce?, hvalue] using ih (some x) b
      by_cases hkey₂ : key = key₂
      · subst hkey₂
        rw [hfields.second, if_pos rfl, if_neg hkey₁]
        cases b with
        | some b =>
          cases Tree.readOnce? read₁? a (Tree.valuesAt key₁ members) <;> rfl
        | none =>
          have hp := h₂.place hl hv hm fun y => make a (some y)
          refine (toOption_bind _ _).trans ((congrArg (Option.bind · _) hp).trans ?_)
          cases hvalue : read₂? value with
          | none =>
            cases Tree.readOnce? read₁? a (Tree.valuesAt key₁ members) <;>
              simp [Tree.readOnce?, hvalue]
          | some y => simpa [Tree.readOnce?, hvalue] using ih a (some y)
      · rw [hfields.other _ _ _ hkey₁ hkey₂, if_neg hkey₁, if_neg hkey₂, ← ih a b]
        refine (toOption_bind (skipValue _) _).trans ?_
        rw [hv.skipValue hl hm]
        rfl

theorem SpellsMembers.length_le {first : Bool} {members : List (String × Tree)} {text : List Char}
    (h : SpellsMembers first members text) : members.length ≤ text.length := by
  induction members generalizing first text with
  | nil => exact Nat.zero_le _
  | cons member members ih =>
    cases h with
    | next _ _ _ _ _ _ h =>
      have hl := ih h
      simp only [List.length_append, List.length_cons]
      omega

theorem readObject_spells (hfields : TwoFields field make key₁ key₂ read₁ read₂)
    (h₁ : Realizes read₁ read₁?) (h₂ : Realizes read₂ read₂?) {members : List (String × Tree)}
    {text : List Char} (h : SpellsMembers true members text) (rest : List Char) :
    (readObject field (make none none) (text ++ '}' :: rest)).toOption =
      (Tree.readOnce? read₁? none (Tree.valuesAt key₁ members)).bind fun a =>
        (Tree.readOnce? read₂? none (Tree.valuesAt key₂ members)).map fun b => (make a b, rest) := by
  have hl := h.length_le
  refine readMembers_spells hfields h₁ h₂ h ?_ none none rest
  rw [List.length_append]
  omega

end Fields

end Objects

section Records

theorem readPart_spells {read : Reader α} {read? : Tree → Option α} (hr : Realizes read read?)
    (missing : α) {first : Bool} {items : List Tree} {text : List Char}
    (h : SpellsItems first items text) (rest : List Char) :
    ∃ more, SpellsItems false (items.drop 1) more ∧
      (readPart first missing read (text ++ ']' :: rest)).toOption =
        (Tree.readOnce? read? none (items.take 1)).map fun a =>
          (a.getD missing, more ++ ']' :: rest) := by
  cases h with
  | done hb =>
    refine ⟨_, .done hb, ?_⟩
    simp only [readPart, nextElement_done first hb, bind, Except.bind]
    rfl
  | @next _ before after text more item items hb ha hi h =>
    refine ⟨more, h, ?_⟩
    have hs := hr.spelled (more ++ ']' :: rest) hi (h.delimited rest)
    obtain ⟨c, cs, rfl, hblank, hne⟩ := hi.opens
    have hn := nextElement_next first hb ha hblank hne (cs ++ (more ++ ']' :: rest))
    simp only [List.append_assoc, List.cons_append] at hs ⊢
    simp only [readPart, hn, bind, Except.bind, hs]
    cases hitem : read? item <;> simp [Tree.readOnce?, hitem]

theorem endArray_spells {items : List Tree} {text : List Char} (h : SpellsItems false items text)
    (rest : List Char) :
    (endArray (text ++ ']' :: rest)).toOption = if items = [] then some rest else none := by
  cases h with
  | done hb =>
    rw [endArray_done hb, if_pos rfl]
    rfl
  | @next _ before after text more _ _ hb _ _ _ =>
    have hs : skipBlanks (',' :: (after ++ (text ++ more) ++ ']' :: rest)) =
        ',' :: (after ++ (text ++ more) ++ ']' :: rest) := rfl
    rw [if_neg (List.cons_ne_nil _ _), List.append_assoc, endArray, skipBlanks_append hb]
    simp only [comma, Bool.false_eq_true, if_false, List.cons_append, List.nil_append, hs]
    split <;> rfl

variable {field : σ → String → Field σ} {make : Option α → Option β → σ} {key₁ key₂ : String}
  {read₁ : Reader α} {read₂ : Reader β} {read₁? : Tree → Option α} {read₂? : Tree → Option β}

theorem readParts_spells (h₁ : Realizes read₁ read₁?) (h₂ : Realizes read₂ read₂?)
    (missing₁ : α) (missing₂ : β) (build : α → β → γ) {items : List Tree} {text : List Char}
    (h : SpellsItems true items text) (rest : List Char) :
    (readPart true missing₁ read₁ (text ++ ']' :: rest) >>= fun x =>
      readPart false missing₂ read₂ x.2 >>= fun y =>
        endArray y.2 >>= fun rest => Except.ok (build x.1 y.1, rest)).toOption =
      (Tree.readOnce? read₁? none (items.take 1)).bind fun a =>
        (Tree.readOnce? read₂? none (items.drop 1)).map fun b =>
          (build (a.getD missing₁) (b.getD missing₂), rest) := by
  obtain ⟨more, hmore, hr₁⟩ := readPart_spells h₁ missing₁ h rest
  obtain ⟨more', hmore', hr₂⟩ := readPart_spells h₂ missing₂ hmore rest
  have he := endArray_spells hmore' rest
  rw [toOption_bind, hr₁]
  cases Tree.readOnce? read₁? none (items.take 1) with
  | none => rfl
  | some a =>
    refine (toOption_bind (readPart false missing₂ read₂ _) _).trans ?_
    rw [hr₂]
    -- The array must end behind its second part, so a third one is as bad as a repeated key.
    cases hsecond : items.drop 1 with
    | nil =>
      simp only [hsecond, List.drop_nil, if_true] at he
      simp [Tree.readOnce?, toOption_bind, he]
      rfl
    | cons t ts =>
      simp only [hsecond, List.drop_one, List.tail_cons] at he
      cases ht : read₂? t with
      | none => simp [Tree.readOnce?, ht]
      | some b =>
        cases ts with
        | nil =>
          simp only [if_true] at he
          simp [Tree.readOnce?, ht, toOption_bind, he]
          rfl
        | cons u us =>
          simp only [reduceCtorEq, if_false] at he
          simp [Tree.readOnce?, ht, toOption_bind, he]

theorem Realizes.record (hfields : TwoFields field make key₁ key₂ read₁ read₂)
    (h₁ : Realizes read₁ read₁?) (h₂ : Realizes read₂ read₂?) {missing₁ : α} {missing₂ : β}
    {build : α → β → γ} {finish : σ → γ}
    (hfinish : ∀ a b, finish (make a b) = build (a.getD missing₁) (b.getD missing₂))
    {read : Reader γ}
    (hblanks : ∀ {blanks : List Char} (rest : List Char), Blanks blanks →
      read (blanks ++ rest) = read rest)
    (hobject : ∀ rest, read ('{' :: rest) =
      readObject field (make none none) rest >>= fun x => .ok (finish x.1, x.2))
    (harray : ∀ rest, read ('[' :: rest) = readPart true missing₁ read₁ rest >>= fun x =>
      readPart false missing₂ read₂ x.2 >>= fun y =>
        endArray y.2 >>= fun rest => .ok (build x.1 y.1, rest))
    (hother : ∀ {c : Char} (rest : List Char), isBlank c = false → c ≠ '{' → c ≠ '[' →
      (read (c :: rest)).toOption = none) :
    Realizes read (Tree.record? key₁ key₂ read₁? read₂? missing₁ missing₂ build) where
  blanks := hblanks
  spelled rest h _ := by
    cases h with
    | @object members text h =>
      rw [List.cons_append, List.append_assoc, List.cons_append, List.nil_append, hobject,
        toOption_bind, readObject_spells hfields h₁ h₂ h rest]
      simp only [Tree.record?, Tree.parts?, Option.bind_some]
      cases Tree.readOnce? read₁? none (Tree.valuesAt key₁ members) with
      | none => rfl
      | some a =>
        cases Tree.readOnce? read₂? none (Tree.valuesAt key₂ members) with
        | none => rfl
        | some b => exact congrArg (fun c => some (c, rest)) (hfinish a b)
    | @array items text h =>
      rw [List.cons_append, List.append_assoc, List.cons_append, List.nil_append, harray,
        readParts_spells h₁ h₂ missing₁ missing₂ build h rest]
      simp only [Tree.record?, Tree.parts?, Option.bind_some]
      cases Tree.readOnce? read₁? none (items.take 1) with
      | none => rfl
      | some a => cases Tree.readOnce? read₂? none (items.drop 1) <;> rfl
    | number h =>
      obtain ⟨c, cs, ht, hc⟩ := h.opens
      rw [ht]
      have hs := numberStart hc
      exact hother _ hs.notBlank hs.notBrace hs.notBracket
    | null | isTrue | isFalse | text => exact hother _ rfl (by decide) (by decide)

end Records

section Specs

theorem exampleFields_two : TwoFields ExampleFields.field ExampleFields.mk "arguments" "return"
    ExampleFields.readArguments ExampleFields.readReturns where
  ne := by decide
  first _ _ := if_pos rfl
  second _ _ := (if_neg (by decide)).trans (if_pos rfl)
  other _ _ _ h₁ h₂ := (if_neg h₁).trans (if_neg h₂)

theorem specFields_two : TwoFields SpecFields.field SpecFields.mk "subject" "examples"
    readString SpecFields.readExamples where
  ne := by decide
  first _ _ := if_pos rfl
  second _ _ := (if_neg (by decide)).trans (if_pos rfl)
  other _ _ _ h₁ h₂ := (if_neg h₁).trans (if_neg h₂)

theorem realizes_readExample : Realizes readExample (Tree.example? numberAlone?) := by
  have hfinish : ∀ a b, (ExampleFields.mk a b).toExample = ⟨a.getD none, b.getD none⟩ := by
    intro a b
    cases a <;> cases b <;> rfl
  refine .record exampleFields_two realizes_readValue.list.optional realizes_readValue.optional
    hfinish ?_ (fun _ => rfl) (fun _ => rfl) ?_
  · intro blanks rest hb
    simp only [readExample, skipBlanks_append hb]
  · intro c rest hb ho ha
    simp only [readExample, skipBlanks_cons hb]
    split
    case h_1 h => cases h; exact absurd rfl ho
    case h_2 h => cases h; exact absurd rfl ha
    case h_3 => exact toOption_readMismatch .exampleOfSpec _

theorem realizes_readSpec : Realizes readSpec (Tree.spec? numberAlone?) := by
  have hfinish : ∀ a b, (SpecFields.mk a b).toSpec = ⟨a.getD "", b.getD none⟩ := by
    intro a b
    cases a <;> cases b <;> rfl
  refine .record specFields_two realizes_readString realizes_readExample.list.optional
    hfinish ?_ (fun _ => rfl) (fun _ => rfl) ?_
  · intro blanks rest hb
    simp only [readSpec, skipBlanks_append hb]
  · intro c rest hb ho ha
    simp only [readSpec, skipBlanks_cons hb]
    split
    case h_1 h => cases h; exact absurd rfl ho
    case h_2 h => cases h; exact absurd rfl ha
    case h_3 => exact toOption_readMismatch .spec _

theorem Realizes.readAll {read : Reader α} {read? : Tree → Option α} (hr : Realizes read read?)
    {t : Tree} {text : List Char} (h : SpellsSource t text) :
    (readAll read (String.ofList text)).toOption = read? t := by
  obtain ⟨hb, ht, ha⟩ := h
  have hd : Delimited (_ ++ []) := delimited_blanks ha nofun
  rw [List.append_nil] at hd
  rw [toOption_readAll, String.toList_ofList, hr.blanks _ hb, hr.spelled _ ht hd]
  cases read? t with
  | none => rfl
  | some a => exact if_pos (skipBlanks_blanks ha)

/-- A source is read as what its tree means, whatever its blanks and escapes are. -/
theorem toOption_parseSpec {t : Tree} {text : List Char} (h : SpellsSource t text) :
    (SourceFormat.json.parseSpec (String.ofList text)).toOption = t.spec? numberAlone? := by
  have hr : (parseSpec (String.ofList text)).toOption = _ := realizes_readSpec.readAll h
  rw [SourceFormat.parseSpec, ← hr]
  cases parseSpec (String.ofList text) <;> rfl

end Specs

end ExampleTests.Json
