import ExampleTests.Proofs.Json.Mapping
import ExampleTests.Proofs.Json.Skipped

/-! What is accepted. A reader that succeeds has taken a text of the grammar that means
what was read, whatever the source was. -/

namespace ExampleTests.Json

variable {α β γ σ : Type}

/-- Between two rests there is a tree, behind blanks, that means a value. -/
def Stands (meaning : Tree → Option α) (a : α) (rest rest' : List Char) : Prop :=
  ∃ blanks t text, Blanks blanks ∧ Shown (Spells t) text ∧ rest = blanks ++ (text ++ rest') ∧
    meaning t = some a

/-- What is read stands in front of what is left, if that is no part of a number. -/
structure Sound (read : Reader α) (meaning : Tree → Option α) : Prop where
  stands : ∀ {rest rest' a}, read rest = .ok (a, rest') → Delimited rest' →
    Stands meaning a rest rest'

theorem readMismatch_ne_ok (wanted : Wanted) (rest : List Char) (x : α × List Char) :
    readMismatch wanted rest ≠ .ok x := by
  intro h
  have hm := (toOption_readMismatch wanted rest).symm.trans (congrArg Except.toOption h)
  cases hm

section Scalars

/-- Where the reader takes spelled texts only, what they mean is known. -/
theorem Realizes.sound {read : Reader α} {meaning : Tree → Option α} (hr : Realizes read meaning)
    (hspelled : ∀ {rest rest' a}, read rest = .ok (a, rest') →
      ∃ t text, Spells t text ∧ skipBlanks rest = text ++ rest') : Sound read meaning := by
  refine ⟨fun {rest rest' a} h hd => ?_⟩
  obtain ⟨blanks, hb, hrest⟩ := exists_blanks rest
  obtain ⟨t, text, ht, htext⟩ := hspelled h
  rw [htext] at hrest
  refine ⟨blanks, t, text, hb, .of ht, hrest, ?_⟩
  rw [hrest, hr.blanks _ hb] at h
  have hm := (hr.spelled rest' ht hd).symm.trans (congrArg Except.toOption h)
  obtain ⟨b, hb, hab⟩ := Option.map_eq_some_iff.mp hm
  rw [hb, (Prod.mk.inj hab).1]

theorem sound_readString : Sound readString Tree.text? := by
  refine realizes_readString.sound fun {rest rest' s} h => ?_
  rw [readString] at h
  split at h
  case h_2 => exact absurd h (readMismatch_ne_ok _ _ _)
  case h_1 tail htail =>
    obtain ⟨body, hbody, rfl⟩ := readText_spelled h
    exact ⟨_, _, .text hbody, htail.trans (framed_append _ _ _ _)⟩

theorem sound_readValue : Sound readValue (Tree.value? numberAlone?) := by
  refine realizes_readValue.sound fun {rest rest' v} h => ?_
  rw [readValue] at h
  split at h
  case h_1 | h_2 => cases h
  case h_3 ha ho =>
    obtain ⟨⟨found, rest₁⟩, hf, h⟩ := bind_eq_ok.mp h
    dsimp only at h
    split at h
    case h_2 => cases h
    case h_1 =>
      cases h
      exact readFound_spelled hf ha ho

end Scalars

theorem Blanks.append {blanks blanks' : List Char} (h : Blanks blanks) (h' : Blanks blanks') :
    Blanks (blanks ++ blanks') :=
  fun c hc => (List.mem_append.mp hc).elim (h c) (h' c)

theorem Sound.optional {read : Reader α} {meaning : Tree → Option α} (hs : Sound read meaning)
    (hn : meaning .null = none) : Sound (readOptional read) (Tree.optional? meaning) := by
  refine ⟨fun {rest rest' a} h hd => ?_⟩
  obtain ⟨blanks, hb, hrest⟩ := exists_blanks rest
  rw [readOptional] at h
  split at h
  case h_1 tail htail =>
    obtain ⟨rfl, hw⟩ := bind_pair_eq_ok.mp h
    exact ⟨blanks, .null, _, hb, .of .null, by rw [hrest, htail, expectWord_eq_ok hw]; rfl, rfl⟩
  case h_2 =>
    obtain ⟨⟨b, rest₁⟩, hr, h⟩ := bind_eq_ok.mp h
    cases h
    obtain ⟨blanks', t, text, hb', ht, htext, hm⟩ := hs.stands hr hd
    refine ⟨blanks ++ blanks', t, text, hb.append hb', ht, ?_, ?_⟩
    · rw [hrest, htext, List.append_assoc]
    · cases t with
      | null => rw [hn] at hm; cases hm
      | boolean | number | text | array | object => exact congrArg (Option.map some) hm

section Lists

variable {first : Bool} {rest rest' : List Char}

theorem Mends.delimited {cs ds : List Char} (h : Mends cs ds) (hd : Delimited ds) : Delimited cs :=
  fun c hc => hd c (h.head?_eq ▸ hc)

theorem Shown.delimited_items {items : List Tree} {text : List Char}
    (h : Shown (SpellsItems false items) text) (rest : List Char) : Delimited (text ++ ']' :: rest) := by
  obtain ⟨mended, hm, hs⟩ := h
  exact (hm.append (.refl _)).delimited (hs.delimited rest)

theorem Shown.delimited_members {members : List (String × Tree)} {text : List Char}
    (h : Shown (SpellsMembers false members) text) (rest : List Char) :
    Delimited (text ++ '}' :: rest) := by
  obtain ⟨mended, hm, hs⟩ := h
  exact (hm.append (.refl _)).delimited (hs.delimited rest)

theorem nextElement_none (h : nextElement first rest = .ok none) :
    ∃ tail, skipBlanks rest = ']' :: tail := by
  rw [nextElement] at h
  split at h
  case h_1 => cases h
  case h_2 tail hs => exact ⟨tail, hs⟩
  case h_3 =>
    split at h
    case isTrue => cases h
    split at h
    case isFalse => cases h
    split at h <;> cases h

theorem nextElement_some {start : List Char} (h : nextElement first rest = .ok (some start)) :
    ∃ before after, Blanks before ∧ Blanks after ∧
      rest = before ++ (comma first ++ (after ++ start)) := by
  obtain ⟨before, hb, hrest⟩ := exists_blanks rest
  rw [nextElement] at h
  split at h
  case h_1 | h_2 => cases h
  case h_3 c tail _ hs =>
    rw [hs] at hrest
    cases first with
    | true =>
      obtain rfl := Option.some.inj (Except.ok.inj h)
      exact ⟨before, [], hb, List.forall_mem_nil _, hrest⟩
    | false =>
      obtain ⟨after, ha, htail⟩ := exists_blanks tail
      rw [if_neg Bool.false_ne_true] at h
      split at h
      case isFalse => cases h
      case isTrue hc =>
        split at h
        case h_1 | h_2 => cases h
        case h_3 =>
          obtain rfl := Option.some.inj (Except.ok.inj h)
          exact ⟨before, after, hb, ha, by rw [hrest, hc, ← htail]; rfl⟩

theorem endArray_eq_ok (h : endArray rest = .ok rest') :
    ∃ blanks, Blanks blanks ∧ rest = blanks ++ ']' :: rest' := by
  obtain ⟨blanks, hb, hrest⟩ := exists_blanks rest
  rw [endArray] at h
  split at h
  case h_1 | h_4 => cases h
  case h_2 hs =>
    cases h
    exact ⟨blanks, hb, hs ▸ hrest⟩
  case h_3 =>
    split at h <;> cases h

theorem readElements_sound {read : Reader α} {meaning : Tree → Option α} (hs : Sound read meaning)
    {fuel : Nat} {as : List α} (h : readElements read fuel first rest = .ok (as, rest')) :
    ∃ items text, Shown (SpellsItems first items) text ∧ rest = text ++ ']' :: rest' ∧
      items.mapM meaning = some as := by
  induction fuel generalizing first rest as with
  | zero => cases h
  | succ fuel ih =>
    rw [readElements, bind_eq_ok] at h
    obtain ⟨next, hnext, h⟩ := h
    cases next with
    | none =>
      obtain ⟨rfl, he⟩ := bind_pair_eq_ok.mp h
      obtain ⟨blanks, hb, rfl⟩ := endArray_eq_ok he
      exact ⟨[], blanks, .of (.done hb), rfl, rfl⟩
    | some start =>
      simp only [bind_eq_ok] at h
      obtain ⟨⟨a, rest₁⟩, hread, ⟨as, rest₂⟩, hmore, h⟩ := h
      cases h
      obtain ⟨before, after, hb, ha, rfl⟩ := nextElement_some hnext
      -- The items behind it come first: they show where the element ends.
      obtain ⟨items, more, hitems, rfl, hmap⟩ := ih hmore
      obtain ⟨lead, t, text, hl, ht, rfl, hm⟩ := hs.stands hread (hitems.delimited_items _)
      refine ⟨t :: items, _, .item hb (ha.append hl) ht hitems, ?_, ?_⟩
      · simp only [List.append_assoc]
      · rw [List.mapM_cons, hm, hmap]
        rfl

theorem Sound.list {read : Reader α} {meaning : Tree → Option α} (hs : Sound read meaning) :
    Sound (readList read) (Tree.list? meaning) := by
  refine ⟨fun {rest rest' as} h _ => ?_⟩
  obtain ⟨blanks, hb, hrest⟩ := exists_blanks rest
  rw [readList] at h
  split at h
  case h_2 => exact absurd h (readMismatch_ne_ok _ _ _)
  case h_1 tail htail =>
    obtain ⟨items, text, hitems, rfl, hmap⟩ := readElements_sound hs h
    refine ⟨blanks, .array items, _, hb, hitems.array, ?_, hmap⟩
    rw [hrest, htail, framed_append]

end Lists

section Objects

variable {first : Bool} {rest rest' : List Char}

theorem nextKey_some {start : List Char} (h : nextKey first rest = .ok (some start)) :
    ∃ before after, Blanks before ∧ Blanks after ∧
      rest = before ++ (comma first ++ (after ++ '"' :: start)) := by
  obtain ⟨before, hb, hrest⟩ := exists_blanks rest
  rw [nextKey] at h
  split at h
  case h_1 | h_2 => cases h
  case h_3 c tail _ hs =>
    rw [hs] at hrest
    split at h
    case isTrue hfirst =>
      split at h
      case isFalse => cases h
      case isTrue hq =>
        obtain rfl := Option.some.inj (Except.ok.inj h)
        exact ⟨before, [], hb, List.forall_mem_nil _, by rw [hrest, hq, hfirst]; rfl⟩
    case isFalse hfirst =>
      obtain ⟨after, ha, htail⟩ := exists_blanks tail
      split at h
      case isFalse => cases h
      case isTrue hc =>
        split at h
        case h_1 | h_3 | h_4 => cases h
        case h_2 hq =>
          obtain rfl := Option.some.inj (Except.ok.inj h)
          rw [Bool.not_eq_true] at hfirst
          exact ⟨before, after, hb, ha, by rw [hrest, hc, hfirst, htail, hq]; rfl⟩

theorem endObject_eq_ok (h : endObject rest = .ok rest') :
    ∃ blanks, Blanks blanks ∧ rest = blanks ++ '}' :: rest' := by
  obtain ⟨blanks, hb, hrest⟩ := exists_blanks rest
  rw [endObject] at h
  split at h
  case h_2 | h_3 | h_4 => cases h
  case h_1 hs =>
    cases h
    exact ⟨blanks, hb, hs ▸ hrest⟩

/-- A member of an object up to its value, and what is left to read. -/
theorem readMembers_eq_ok {field : σ → String → Field σ} {fuel : Nat} {fields fields' : σ}
    (h : readMembers field (fuel + 1) first fields rest = .ok (fields', rest')) :
    (fields = fields' ∧ endObject rest = .ok rest') ∨
    ∃ before after key body gap value, Blanks before ∧ Blanks after ∧
      SpellsText (String.toList key) body ∧ Blanks gap ∧
      rest = before ++ (comma first ++ (after ++ '"' :: (body ++ '"' :: (gap ++ ':' :: value)))) ∧
      match field fields key with
      | .repeated => False
      | .value read => ∃ next more, read value = .ok (next, more) ∧
          readMembers field fuel false next more = .ok (fields', rest')
      | .unknown => ∃ more, skipValue value = .ok more ∧
          readMembers field fuel false fields more = .ok (fields', rest') := by
  rw [readMembers, bind_eq_ok] at h
  obtain ⟨next, hnext, h⟩ := h
  cases next with
  | none => exact .inl (bind_pair_eq_ok.mp h)
  | some start =>
    obtain ⟨⟨key, rest₁⟩, hkey, hmember⟩ := bind_eq_ok.mp h
    obtain ⟨before, after, hb, ha, rfl⟩ := nextKey_some hnext
    obtain ⟨body, hbody, rfl⟩ := readText_spelled hkey
    refine .inr ?_
    cases hf : field fields key with
    | repeated =>
      simp only [hf] at hmember
      cases hmember
    | value read =>
      simp only [hf, bind_eq_ok] at hmember
      obtain ⟨value, hcolon, ⟨next, more⟩, hread, hmore⟩ := hmember
      obtain ⟨gap, hg, rfl⟩ := expectColon_eq_ok hcolon
      refine ⟨before, after, key, body, gap, value, hb, ha, hbody, hg, rfl, ?_⟩
      rw [hf]
      exact ⟨next, more, hread, hmore⟩
    | unknown =>
      simp only [hf, bind_eq_ok] at hmember
      obtain ⟨value, hcolon, more, hskip, hmore⟩ := hmember
      obtain ⟨gap, hg, rfl⟩ := expectColon_eq_ok hcolon
      refine ⟨before, after, key, body, gap, value, hb, ha, hbody, hg, rfl, ?_⟩
      rw [hf]
      exact ⟨more, hskip, hmore⟩

variable {field : σ → String → Field σ} {make : Option α → Option β → σ} {key₁ key₂ : String}
  {read₁ : Reader α} {read₂ : Reader β} {read₁? : Tree → Option α} {read₂? : Tree → Option β}

theorem exists_member {key : String} {before after body gap lead text tail : List Char} {value : Tree}
    {members : List (String × Tree)} (hb : Blanks before) (ha : Blanks after)
    (hk : SpellsText key.toList body) (hg : Blanks gap) (hl : Blanks lead)
    (hv : Shown (Spells value) text) (h : Shown (SpellsMembers false members) tail) (rest : List Char) :
    ∃ entries, Shown (SpellsMembers first ((key, value) :: members)) entries ∧
      before ++ (comma first ++ (after ++ '"' :: (body ++ '"' :: (gap ++ ':' ::
        (lead ++ (text ++ (tail ++ rest))))))) = entries ++ rest := by
  have hs := @Shown.member first _ _ _ _ _ _ _ _ _ _ hb ha (.of hk) hg hl hv h
  rw [String.ofList_toList] at hs
  exact ⟨_, hs, by simp only [List.append_assoc, List.cons_append]⟩

theorem readMembers_sound (hfields : TwoFields field make key₁ key₂ read₁ read₂)
    (h₁ : Sound read₁ read₁?) (h₂ : Sound read₂ read₂?) {fuel : Nat} {a : Option α} {b : Option β}
    {fields : σ} (h : readMembers field fuel first (make a b) rest = .ok (fields, rest')) :
    ∃ members text a' b', Shown (SpellsMembers first members) text ∧ rest = text ++ '}' :: rest' ∧
      fields = make a' b' ∧ Tree.readOnce? read₁? a (Tree.valuesAt key₁ members) = some a' ∧
      Tree.readOnce? read₂? b (Tree.valuesAt key₂ members) = some b' := by
  induction fuel generalizing first a b rest with
  | zero => cases h
  | succ fuel ih =>
    rcases readMembers_eq_ok h with ⟨rfl, he⟩ |
      ⟨before, after, key, body, gap, value, hb, ha, hbody, hg, rfl, hmember⟩
    · obtain ⟨blanks, hb, rfl⟩ := endObject_eq_ok he
      exact ⟨[], blanks, a, b, .of (.done hb), rfl, rfl, rfl, rfl⟩
    by_cases hkey₁ : key = key₁
    · subst hkey₁
      rw [hfields.first] at hmember
      cases a with
      | some a => exact hmember.elim
      | none =>
        obtain ⟨next, more, hplace, hmore⟩ := hmember
        obtain ⟨⟨x, rest₁⟩, hread, hnext⟩ := bind_eq_ok.mp hplace
        cases hnext
        obtain ⟨members, tail, a', b', hmembers, rfl, hmake, hvalues₁, hvalues₂⟩ := ih hmore
        obtain ⟨lead, t, text, hl, ht, rfl, hm⟩ := h₁.stands hread (hmembers.delimited_members _)
        obtain ⟨entries, hs, hrest⟩ := exists_member hb ha hbody hg hl ht hmembers ('}' :: rest')
        refine ⟨_, entries, a', b', hs, hrest, hmake, ?_, ?_⟩
        · rwa [Tree.valuesAt_cons, if_pos rfl, Tree.readOnce?, hm]
        · rwa [Tree.valuesAt_cons, if_neg hfields.ne.symm]
    by_cases hkey₂ : key = key₂
    · subst hkey₂
      rw [hfields.second] at hmember
      cases b with
      | some b => exact hmember.elim
      | none =>
        obtain ⟨next, more, hplace, hmore⟩ := hmember
        obtain ⟨⟨y, rest₁⟩, hread, hnext⟩ := bind_eq_ok.mp hplace
        cases hnext
        obtain ⟨members, tail, a', b', hmembers, rfl, hmake, hvalues₁, hvalues₂⟩ := ih hmore
        obtain ⟨lead, t, text, hl, ht, rfl, hm⟩ := h₂.stands hread (hmembers.delimited_members _)
        obtain ⟨entries, hs, hrest⟩ := exists_member hb ha hbody hg hl ht hmembers ('}' :: rest')
        refine ⟨_, entries, a', b', hs, hrest, hmake, ?_, ?_⟩
        · rwa [Tree.valuesAt_cons, if_neg hkey₁]
        · rwa [Tree.valuesAt_cons, if_pos rfl, Tree.readOnce?, hm]
    · rw [hfields.other _ _ _ hkey₁ hkey₂] at hmember
      obtain ⟨more, hskip, hmore⟩ := hmember
      obtain ⟨lead, t, text, hl, ht, rfl⟩ := skipValue_shown hskip
      obtain ⟨members, tail, a', b', hmembers, rfl, hmake, hvalues₁, hvalues₂⟩ := ih hmore
      obtain ⟨entries, hs, hrest⟩ := exists_member hb ha hbody hg hl ht hmembers ('}' :: rest')
      refine ⟨_, entries, a', b', hs, hrest, hmake, ?_, ?_⟩
      · rwa [Tree.valuesAt_cons, if_neg hkey₁]
      · rwa [Tree.valuesAt_cons, if_neg hkey₂]

end Objects

section Records

variable {field : σ → String → Field σ} {make : Option α → Option β → σ} {key₁ key₂ : String}
  {read₁ : Reader α} {read₂ : Reader β} {read₁? : Tree → Option α} {read₂? : Tree → Option β}
  {rest rest' : List Char}

/-- An array ends before a part, or has an item for it. -/
theorem readPart_eq_ok {first : Bool} {missing a : α} {read : Reader α}
    (h : readPart first missing read rest = .ok (a, rest')) :
    (∃ tail, skipBlanks rest = ']' :: tail ∧ missing = a ∧ rest = rest') ∨
    (∃ before after start, Blanks before ∧ Blanks after ∧
      rest = before ++ (comma first ++ (after ++ start)) ∧ read start = .ok (a, rest')) := by
  rw [readPart, bind_eq_ok] at h
  obtain ⟨next, hnext, h⟩ := h
  cases next with
  | none =>
    obtain ⟨tail, hs⟩ := nextElement_none hnext
    obtain ⟨ha, hrest⟩ := Prod.mk.inj (Except.ok.inj h)
    exact .inl ⟨tail, hs, ha, hrest⟩
  | some start =>
    obtain ⟨before, after, hb, ha, hrest⟩ := nextElement_some hnext
    exact .inr ⟨before, after, start, hb, ha, hrest, h⟩

/-- The last part of an array, with what closes it. -/
theorem readLastPart_sound {first : Bool} {read : Reader α} {meaning : Tree → Option α}
    (hs : Sound read meaning) {missing a : α} {rest₁ : List Char}
    (ha : readPart first missing read rest = .ok (a, rest₁)) (he : endArray rest₁ = .ok rest') :
    ∃ items text x, Shown (SpellsItems first items) text ∧ rest = text ++ ']' :: rest' ∧
      Tree.readOnce? meaning none items = some x ∧ a = x.getD missing := by
  obtain ⟨blanks, hblanks, rfl⟩ := endArray_eq_ok he
  rcases readPart_eq_ok ha with ⟨tail, -, rfl, rfl⟩ | ⟨before, after, start, hb, hafter, rfl, hread⟩
  · exact ⟨[], blanks, none, .of (.done hblanks), rfl, rfl, rfl⟩
  · have hd := delimited_blanks hblanks (delimited_cons (.inr (.inl rfl)) rest')
    obtain ⟨lead, t, text, hl, ht, rfl, hm⟩ := hs.stands hread hd
    refine ⟨[t], _, some a, .item hb (hafter.append hl) ht (.of (.done hblanks)), ?_, ?_, rfl⟩
    · simp only [List.append_assoc]
    · rw [Tree.readOnce?, hm]
      rfl

theorem readParts_sound (h₁ : Sound read₁ read₁?) (h₂ : Sound read₂ read₂?) {missing₁ a : α}
    {missing₂ b : β} {rest₁ rest₂ : List Char}
    (ha : readPart true missing₁ read₁ rest = .ok (a, rest₁))
    (hb : readPart false missing₂ read₂ rest₁ = .ok (b, rest₂)) (he : endArray rest₂ = .ok rest') :
    ∃ items text x y, Shown (SpellsItems true items) text ∧ rest = text ++ ']' :: rest' ∧
      Tree.readOnce? read₁? none (items.take 1) = some x ∧
      Tree.readOnce? read₂? none (items.drop 1) = some y ∧
      a = x.getD missing₁ ∧ b = y.getD missing₂ := by
  rcases readPart_eq_ok ha with ⟨tail, hs, rfl, rfl⟩ | ⟨before, after, start, hbefore, hafter, rfl, hread⟩
  · rcases readPart_eq_ok hb with ⟨-, -, rfl, rfl⟩ | ⟨before, after, start, hbefore, -, rfl, -⟩
    · obtain ⟨blanks, hblanks, rfl⟩ := endArray_eq_ok he
      exact ⟨[], blanks, none, none, .of (.done hblanks), rfl, rfl, rfl, rfl, rfl⟩
    · -- Behind the bracket that ended the array there is no comma.
      rw [skipBlanks_append hbefore] at hs
      cases hs
  · obtain ⟨items, more, y, hitems, rfl, hy, hbuild⟩ := readLastPart_sound h₂ hb he
    obtain ⟨lead, t, text, hl, ht, rfl, hm⟩ := h₁.stands hread (hitems.delimited_items rest')
    refine ⟨t :: items, _, some a, y, .item hbefore (hafter.append hl) ht hitems, ?_, ?_, hy, rfl, hbuild⟩
    · simp only [List.append_assoc]
    · rw [List.take_succ_cons, List.take_zero, Tree.readOnce?, hm]
      rfl

/-- A record is read from an object, or from an array of its parts. -/
def readRecord (wanted : Wanted) (field : σ → String → Field σ) (start : σ) (finish : σ → γ)
    (read₁ : Reader α) (read₂ : Reader β) (missing₁ : α) (missing₂ : β) (build : α → β → γ) :
    Reader γ := fun rest =>
  match skipBlanks rest with
  | '{' :: rest => do
    let (fields, rest) ← readObject field start rest
    .ok (finish fields, rest)
  | '[' :: rest => do
    let (a, rest) ← readPart true missing₁ read₁ rest
    let (b, rest) ← readPart false missing₂ read₂ rest
    .ok (build a b, ← endArray rest)
  | rest => readMismatch wanted rest

theorem readExample_eq : readExample = readRecord .exampleOfSpec ExampleFields.field (.mk none none)
    ExampleFields.toExample ExampleFields.readArguments ExampleFields.readReturns none none
    Example.mk := rfl

theorem readSpec_eq : readSpec = readRecord .spec SpecFields.field (.mk none none) SpecFields.toSpec
    readString SpecFields.readExamples "" none Spec.mk := rfl

theorem Sound.record (hfields : TwoFields field make key₁ key₂ read₁ read₂)
    (h₁ : Sound read₁ read₁?) (h₂ : Sound read₂ read₂?) {missing₁ : α} {missing₂ : β}
    {build : α → β → γ} {finish : σ → γ}
    (hfinish : ∀ a b, finish (make a b) = build (a.getD missing₁) (b.getD missing₂))
    (wanted : Wanted) :
    Sound (readRecord wanted field (make none none) finish read₁ read₂ missing₁ missing₂ build)
      (Tree.record? key₁ key₂ read₁? read₂? missing₁ missing₂ build) := by
  refine ⟨fun {rest rest' c} h _ => ?_⟩
  obtain ⟨blanks, hb, hrest⟩ := exists_blanks rest
  rw [readRecord] at h
  split at h
  case h_1 inner hs =>
    obtain ⟨⟨fields, rest₁⟩, hobject, h⟩ := bind_eq_ok.mp h
    cases h
    obtain ⟨members, text, x, y, hmembers, rfl, rfl, hx, hy⟩ := readMembers_sound hfields h₁ h₂ hobject
    refine ⟨blanks, .object members, _, hb, hmembers.object, ?_, ?_⟩
    · rw [hrest, hs, framed_append]
    · simp only [Tree.record?, Tree.parts?, Option.bind_some, hx, hy, Option.map_some, hfinish]
  case h_2 inner hs =>
    simp only [bind_eq_ok] at h
    obtain ⟨⟨a, rest₁⟩, ha, ⟨b, rest₂⟩, hb', rest₃, he, h⟩ := h
    cases h
    obtain ⟨items, text, x, y, hitems, rfl, hx, hy, rfl, rfl⟩ := readParts_sound h₁ h₂ ha hb' he
    refine ⟨blanks, .array items, _, hb, hitems.array, ?_, ?_⟩
    · rw [hrest, hs, framed_append]
    · simp only [Tree.record?, Tree.parts?, Option.bind_some, hx, hy, Option.map_some]
  case h_3 => exact absurd h (readMismatch_ne_ok _ _ _)

end Records

section Specs

theorem sound_readExample : Sound readExample (Tree.example? numberAlone?) := by
  have hfinish : ∀ a b, (ExampleFields.mk a b).toExample = ⟨a.getD none, b.getD none⟩ := by
    intro a b
    cases a <;> cases b <;> rfl
  rw [readExample_eq]
  exact .record exampleFields_two (sound_readValue.list.optional rfl) (sound_readValue.optional rfl)
    hfinish .exampleOfSpec

theorem sound_readSpec : Sound readSpec (Tree.spec? numberAlone?) := by
  have hfinish : ∀ a b, (SpecFields.mk a b).toSpec = ⟨a.getD "", b.getD none⟩ := by
    intro a b
    cases a <;> cases b <;> rfl
  rw [readSpec_eq]
  exact .record specFields_two sound_readString (sound_readExample.list.optional rfl) hfinish .spec

theorem readAll_sound {read : Reader α} {meaning : Tree → Option α} (hs : Sound read meaning)
    {source : String} {a : α} (h : readAll read source = .ok a) :
    ∃ t, Shown (SpellsSource t) source.toList ∧ meaning t = some a := by
  rw [eq_ok_iff, toOption_readAll, Option.bind_eq_some_iff] at h
  obtain ⟨⟨b, rest⟩, hread, h⟩ := h
  dsimp only at h
  split at h
  case isFalse => cases h
  case isTrue hrest =>
    cases h
    obtain ⟨after, ha, hafter⟩ := exists_blanks rest
    rw [hrest] at hafter
    have hd : Delimited rest := hafter ▸ delimited_blanks ha nofun
    obtain ⟨before, t, text, hb, ⟨mended, hm, ht⟩, hsource, hmeaning⟩ :=
      hs.stands (eq_ok_iff.mpr hread) hd
    have hblanks : Blanks rest := by rwa [hafter, List.append_nil]
    rw [hsource]
    exact ⟨t, ⟨_, (hm.append (.refl rest)).append_left before, .intro hb ht hblanks⟩, hmeaning⟩

end Specs

end ExampleTests.Json
