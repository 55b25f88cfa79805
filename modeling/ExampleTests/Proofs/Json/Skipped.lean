import ExampleTests.Proofs.Json.Spelled

/-! What is skipped. A value that is skipped is one of the grammar, at whatever depth,
once the halves of surrogate pairs in its strings are put right. -/

namespace ExampleTests.Json

section Shapes

theorem Shown.text {cs body : List Char} (h : Shown (SpellsText cs) body) :
    Shown (Spells (.text (String.ofList cs))) ('"' :: (body ++ ['"'])) := by
  obtain ⟨mended, hm, hs⟩ := h
  rw [← String.toList_ofList (l := cs)] at hs
  exact ⟨_, .keep '"' (hm.append (.refl ['"'])), .text hs⟩

theorem Shown.array {items : List Tree} {text : List Char} (h : Shown (SpellsItems true items) text) :
    Shown (Spells (.array items)) ('[' :: (text ++ [']'])) := by
  obtain ⟨mended, hm, hs⟩ := h
  exact ⟨_, .keep '[' (hm.append (.refl [']'])), .array hs⟩

theorem Shown.object {members : List (String × Tree)} {text : List Char} (h : Shown (SpellsMembers true members) text) :
    Shown (Spells (.object members)) ('{' :: (text ++ ['}'])) := by
  obtain ⟨mended, hm, hs⟩ := h
  exact ⟨_, .keep '{' (hm.append (.refl ['}'])), .object hs⟩

variable {first : Bool} {before after text more : List Char}

theorem Shown.item {item : Tree} {items : List Tree} (hb : Blanks before) (ha : Blanks after)
    (hi : Shown (Spells item) text) (h : Shown (SpellsItems false items) more) :
    Shown (SpellsItems first (item :: items))
      (before ++ (comma first ++ (after ++ (text ++ more)))) := by
  obtain ⟨item', hm, hi⟩ := hi
  obtain ⟨more', hm', h⟩ := h
  have htext := ((hm.append hm').append_left after).append_left (comma first)
  exact ⟨_, htext.append_left before, .next hb ha hi h⟩

theorem Shown.member {cs body gap lead : List Char} {value : Tree} {members : List (String × Tree)}
    (hb : Blanks before) (ha : Blanks after) (hk : Shown (SpellsText cs) body) (hg : Blanks gap)
    (hl : Blanks lead) (hv : Shown (Spells value) text) (h : Shown (SpellsMembers false members) more) :
    Shown (SpellsMembers first ((String.ofList cs, value) :: members))
      (before ++ (comma first ++ (after ++ ('"' :: (body ++ ('"' ::
        (gap ++ (':' :: (lead ++ (text ++ more)))))))))) := by
  obtain ⟨body', hm, hk⟩ := hk
  obtain ⟨value', hm', hv⟩ := hv
  obtain ⟨more', hm'', h⟩ := h
  rw [← String.toList_ofList (l := cs)] at hk
  have hvalue := Mends.keep ':' ((hm'.append hm'').append_left lead)
  have hmember := Mends.keep '"' (hm.append (.keep '"' (hvalue.append_left gap)))
  have htext := (hmember.append_left after).append_left (comma first)
  exact ⟨_, htext.append_left before, .next hb ha hk hg hl hv h⟩

end Shapes

section Steps

variable {rest rest' : List Char}

theorem exists_blanks (rest : List Char) : ∃ blanks, Blanks blanks ∧ rest = blanks ++ skipBlanks rest :=
  ⟨rest.takeWhile isBlank, List.all_eq_true.mp List.all_takeWhile,
    List.takeWhile_append_dropWhile.symm⟩

theorem expectColon_eq_ok (h : expectColon rest = .ok rest') :
    ∃ gap, Blanks gap ∧ rest = gap ++ ':' :: rest' := by
  obtain ⟨gap, hg, hrest⟩ := exists_blanks rest
  rw [expectColon] at h
  split at h
  case h_1 hs =>
    cases h
    exact ⟨gap, hg, hs ▸ hrest⟩
  case h_2 | h_3 => cases h

def Frame.opening : Frame → Char
  | array => '['
  | object => '{'

theorem skipOpening_frame {frame : Frame} (h : skipOpening rest = .ok (some frame, rest')) :
    rest = frame.opening :: rest' := by
  have hne : ∀ {x : Except Fault (List Char)},
      (x >>= fun rest => .ok (none, rest)) ≠ .ok (some frame, rest') :=
    fun h => nomatch (bind_pair_eq_ok.mp h).1
  rw [skipOpening.eq_def] at h
  split at h
  case h_1 => cases h
  case h_2 | h_3 =>
    cases h
    rfl
  case h_4 | h_5 | h_6 | h_7 | h_8 => exact absurd h hne
  case h_9 =>
    split at h
    case isTrue => exact absurd h hne
    case isFalse => cases h

theorem skipOpening_scalar (h : skipOpening rest = .ok (none, rest')) :
    ∃ t text, Shown (Spells t) text ∧ rest = text ++ rest' := by
  rcases skipOpening_spelled h with ⟨tail, rfl, hs⟩ | ⟨t, text, ht, rfl⟩
  · obtain ⟨cs, body, hbody, rfl⟩ := skipText_shown hs
    exact ⟨_, _, hbody.text, framed_append _ _ _ _⟩
  · exact ⟨t, text, .of ht, rfl⟩

/-- Over the entries of a frame: it is closed, or an entry is entered behind its comma and key. -/
theorem skipFrames_stageBefore {fuel : Nat} {first : Bool} {frame : Frame} {frames : List Frame}
    (h : skipFrames (fuel + 1) (stageBefore first) (frame :: frames) rest = .ok rest') :
    (∃ more, skipBlanks rest = frame.closing :: more ∧
      skipFrames fuel .separator frames more = .ok rest') ∨
    (∃ entry more, skipBlanks rest = comma first ++ entry ∧ skipKey frame entry = .ok more ∧
      skipFrames fuel .value (frame :: frames) more = .ok rest') := by
  cases hs : skipBlanks rest with
  | nil => cases first <;> simp [stageBefore, skipFrames, hs] at h
  | cons c tail =>
    by_cases hc : c = frame.closing
    · refine .inl ⟨tail, congrArg (· :: tail) hc, ?_⟩
      cases first <;>
        simpa only [stageBefore, Bool.false_eq_true, if_true, if_false, skipFrames, hs, if_pos hc] using h
    · cases first with
      | true =>
        simp only [stageBefore, if_true, skipFrames, hs, if_neg hc, bind_eq_ok] at h
        obtain ⟨more, hk, h⟩ := h
        exact .inr ⟨c :: tail, more, rfl, hk, h⟩
      | false =>
        simp only [stageBefore, Bool.false_eq_true, if_false, skipFrames, hs, if_neg hc,
          reduceCtorEq] at h
        split at h
        case isFalse => cases h
        case isTrue hcomma =>
          obtain ⟨more, hk, h⟩ := bind_eq_ok.mp h
          exact .inr ⟨tail, more, congrArg (· :: tail) hcomma, hk, h⟩

end Steps

/-- The entries of a frame from one of them on, up to what closes it. -/
def Frame.Entries : Frame → Bool → List Char → Prop
  | array, first, text => ∃ items, Shown (SpellsItems first items) text
  | object, first, text => ∃ members, Shown (SpellsMembers first members) text

/-- The entries that are left in the open frames, the innermost first, lead from one
rest to another. -/
def Closes (first : Bool) : List Frame → List Char → List Char → Prop
  | [], rest, rest' => rest = rest'
  | frame :: frames, rest, rest' => ∃ text more, frame.Entries first text ∧
      rest = text ++ frame.closing :: more ∧ Closes false frames more rest'

/-- What is left to the skipper at a stage. -/
def Stage.Leads : Stage → List Frame → List Char → List Char → Prop
  | value, frames, rest, rest' => ∃ blanks t text more, Blanks blanks ∧ Shown (Spells t) text ∧
      rest = blanks ++ (text ++ more) ∧ Closes false frames more rest'
  | entry, frames, rest, rest' => Closes true frames rest rest'
  | separator, frames, rest, rest' => Closes false frames rest rest'

theorem Frame.Entries.done (frame : Frame) (first : Bool) {blanks : List Char} (hb : Blanks blanks) :
    frame.Entries first blanks := by
  cases frame with
  | array => exact ⟨[], .of (.done hb)⟩
  | object => exact ⟨[], .of (.done hb)⟩

theorem Frame.Entries.next {frame : Frame} (first : Bool)
    {before entry blanks text more tail : List Char} {t : Tree} (hb : Blanks before)
    (hk : skipKey frame entry = .ok (blanks ++ (text ++ (more ++ tail)))) (hblanks : Blanks blanks)
    (ht : Shown (Spells t) text) (h : frame.Entries false more) :
    ∃ entries, frame.Entries first entries ∧ before ++ (comma first ++ entry) = entries ++ tail := by
  cases frame with
  | array =>
    obtain ⟨items, h⟩ := h
    cases hk
    exact ⟨_, ⟨_, .item hb hblanks ht h⟩, by simp only [List.append_assoc]⟩
  | object =>
    obtain ⟨members, h⟩ := h
    obtain ⟨after, ha, hentry⟩ := exists_blanks entry
    rw [skipKey] at hk
    split at hk
    case h_2 | h_3 => cases hk
    case h_1 hs =>
      obtain ⟨rest, htext, hcolon⟩ := bind_eq_ok.mp hk
      obtain ⟨cs, body, hbody, rfl⟩ := skipText_shown htext
      obtain ⟨gap, hg, rfl⟩ := expectColon_eq_ok hcolon
      refine ⟨_, ⟨_, .member hb ha hbody hg hblanks ht h⟩, ?_⟩
      rw [hentry, hs]
      simp only [List.append_assoc, List.cons_append]

theorem Frame.Entries.shown {frame : Frame} {text : List Char} (h : frame.Entries true text) :
    ∃ t, Shown (Spells t) (frame.opening :: (text ++ [frame.closing])) := by
  cases frame with
  | array =>
    obtain ⟨items, h⟩ := h
    exact ⟨_, h.array⟩
  | object =>
    obtain ⟨members, h⟩ := h
    exact ⟨_, h.object⟩

theorem skipFrames_leads {fuel : Nat} {stage : Stage} {frames : List Frame} {rest rest' : List Char}
    (h : skipFrames fuel stage frames rest = .ok rest') : stage.Leads frames rest rest' := by
  induction fuel generalizing stage frames rest with
  | zero => cases h
  | succ fuel ih =>
    obtain ⟨blanks, hb, hrest⟩ := exists_blanks rest
    -- Both stages inside a frame differ only in the comma in front of an entry.
    have hentry : ∀ first, skipFrames (fuel + 1) (stageBefore first) frames rest = .ok rest' →
        Closes first frames rest rest' := by
      intro first h
      cases frames with
      | nil =>
        cases first <;> exact Except.ok.inj h
      | cons frame frames =>
        rcases skipFrames_stageBefore h with ⟨more, hs, h⟩ | ⟨entry, more, hs, hk, h⟩
        · exact ⟨blanks, more, .done frame first hb, hs ▸ hrest, ih h⟩
        · obtain ⟨lead, t, text, _, hl, ht, rfl, text', tail, he, rfl, hc⟩ := ih h
          obtain ⟨entries, hentries, htext⟩ := he.next first hb hk hl ht
          exact ⟨entries, tail, hentries, by rw [hrest, hs, htext], hc⟩
    cases stage with
    | entry => exact hentry true h
    | separator => exact hentry false h
    | value =>
      rw [skipFrames, bind_eq_ok] at h
      obtain ⟨⟨o, rest₁⟩, ho, h⟩ := h
      cases o with
      | none =>
        obtain ⟨t, text, ht, hs⟩ := skipOpening_scalar ho
        exact ⟨blanks, t, text, rest₁, hb, ht, hs ▸ hrest, ih h⟩
      | some frame =>
        have hs := skipOpening_frame ho
        obtain ⟨text, more, he, rfl, hc⟩ := ih h
        obtain ⟨t, ht⟩ := he.shown
        refine ⟨blanks, t, _, more, hb, ht, ?_, hc⟩
        rw [hrest, hs, framed_append]

theorem skipValue_shown {rest rest' : List Char} (h : skipValue rest = .ok rest') :
    ∃ blanks t text, Blanks blanks ∧ Shown (Spells t) text ∧ rest = blanks ++ (text ++ rest') := by
  obtain ⟨blanks, t, text, _, hb, ht, hrest, rfl⟩ := skipFrames_leads h
  exact ⟨blanks, t, text, hb, ht, hrest⟩

end ExampleTests.Json
