import ExampleTests.Proofs.Json.Parts
import ExampleTests.Proofs.Json.Scalar

/-! Skipped values. A value is skipped whole whatever frames are open around it,
so one of any depth is skipped up to what follows it. -/

namespace ExampleTests.Json

theorem delimited_blanks {blanks rest : List Char} (hb : Blanks blanks) (hr : Delimited rest) :
    Delimited (blanks ++ rest) := by
  cases blanks with
  | nil => exact hr
  | cons b blanks =>
    intro c hc
    obtain rfl : b = c := Option.some.inj hc
    have h := hb b List.mem_cons_self
    simp only [isBlank, Bool.or_eq_true, decide_eq_true_eq] at h
    rcases h with ((rfl | rfl) | rfl) | rfl <;> decide

theorem SpellsItems.delimited {items : List Tree} {text : List Char}
    (h : SpellsItems false items text) (rest : List Char) : Delimited (text ++ ']' :: rest) := by
  cases h with
  | done hb => exact delimited_blanks hb (delimited_cons (.inr (.inl rfl)) rest)
  | next hb _ _ _ =>
    rw [List.append_assoc]
    exact delimited_blanks hb (delimited_cons (.inl rfl) _)

theorem SpellsMembers.delimited {members : List (String × Tree)} {text : List Char}
    (h : SpellsMembers false members text) (rest : List Char) : Delimited (text ++ '}' :: rest) := by
  cases h with
  | done hb => exact delimited_blanks hb (delimited_cons (.inr (.inr rfl)) rest)
  | next hb _ _ _ _ _ _ =>
    rw [List.append_assoc]
    exact delimited_blanks hb (delimited_cons (.inl rfl) _)

/-- A value begins with no blank, and with nothing that would end an array. -/
theorem Spells.opens {t : Tree} {text : List Char} (h : Spells t text) :
    ∃ c cs, text = c :: cs ∧ isBlank c = false ∧ c ≠ ']' := by
  cases h with
  | number h =>
    obtain ⟨c, cs, ht, hc⟩ := h.opens
    have hs := numberStart hc
    exact ⟨c, cs, ht, hs.notBlank, hs.notClosing⟩
  | null | isTrue | isFalse | text | array | object => exact ⟨_, _, rfl, by decide, by decide⟩

/-- Rounds that are enough for what is left. Between an open bracket and what is
behind it there is a round that takes nothing. -/
def Stage.need (stage : Stage) (rest : List Char) : Nat :=
  match stage with
  | value | separator => 2 * rest.length + 1
  | entry => 2 * rest.length + 2

/-- Over the text in front of the rest the skipper goes from one stage to another. -/
def Skips (stage : Stage) (frames : List Frame) (text : List Char) (stage' : Stage)
    (frames' : List Frame) (rest : List Char) : Prop :=
  ∀ fuel, stage.need (text ++ rest) ≤ fuel → ∃ left, stage'.need rest ≤ left ∧
    skipFrames fuel stage frames (text ++ rest) = skipFrames left stage' frames' rest

/-- Before an item or its comma. -/
def stageBefore (first : Bool) : Stage := if first then .entry else .separator

section Steps

variable {stage stage' stage'' : Stage} {frame : Frame} {frames frames' frames'' : List Frame}
  {text more rest : List Char}

theorem Skips.trans (h : Skips stage frames text stage' frames' (more ++ rest))
    (h' : Skips stage' frames' more stage'' frames'' rest) :
    Skips stage frames (text ++ more) stage'' frames'' rest := by
  intro fuel hf
  rw [List.append_assoc] at hf ⊢
  obtain ⟨left, hl, hs⟩ := h fuel hf
  obtain ⟨left', hl', hs'⟩ := h' left hl
  exact ⟨left', hl', hs.trans hs'⟩

theorem Skips.step (hneed : stage'.need rest < stage.need (text ++ rest))
    (h : ∀ fuel, skipFrames (fuel + 1) stage frames (text ++ rest) =
      skipFrames fuel stage' frames' rest) : Skips stage frames text stage' frames' rest := by
  intro fuel hf
  obtain ⟨fuel, rfl⟩ := Nat.exists_eq_add_one_of_ne_zero (by omega : fuel ≠ 0)
  exact ⟨fuel, by omega, h fuel⟩

theorem Skips.blanks {blanks : List Char} (hb : Blanks blanks) (h : stage = .value ∨ frames ≠ []) :
    Skips stage frames blanks stage frames rest := by
  intro fuel hf
  have hneed : stage.need rest ≤ stage.need (blanks ++ rest) := by
    cases stage <;> simp only [Stage.need, List.length_append] <;> omega
  refine ⟨fuel, Nat.le_trans hneed hf, ?_⟩
  have hs := skipBlanks_append hb rest
  cases fuel with
  | zero => cases stage <;> cases hf
  | succ fuel =>
    cases stage with
    | value => simp only [skipFrames, hs]
    | entry | separator =>
      cases frames with
      | nil => rcases h with h | h <;> exact absurd h (by simp)
      | cons frame frames => simp only [skipFrames, hs]

theorem Skips.scalar (ho : ∃ c cs, text = c :: cs ∧ isBlank c = false)
    (h : skipOpening (text ++ rest) = .ok (none, rest)) :
    Skips .value frames text .separator frames rest := by
  obtain ⟨c, cs, rfl, hb⟩ := ho
  refine .step (by simp only [Stage.need, List.length_append, List.length_cons]; omega) fun fuel => ?_
  rw [List.cons_append] at h ⊢
  simp only [skipFrames, skipBlanks_cons hb, h, bind, Except.bind]

theorem Skips.opening {c : Char} (hb : isBlank c = false)
    (h : skipOpening (c :: rest) = .ok (some frame, rest)) :
    Skips .value frames [c] .entry (frame :: frames) rest := by
  refine .step (by simp only [Stage.need, List.length_append, List.length_cons, List.length_nil]; omega)
    fun fuel => ?_
  simp only [List.cons_append, List.nil_append, skipFrames, skipBlanks_cons hb, h, bind, Except.bind]

theorem Skips.closing (first : Bool) :
    Skips (stageBefore first) (frame :: frames) [frame.closing] .separator frames rest := by
  have hb : isBlank frame.closing = false := by cases frame <;> rfl
  refine .step ?_ fun fuel => ?_
  · cases first <;>
      simp only [stageBefore, Bool.false_eq_true, if_true, if_false, Stage.need, List.length_append,
        List.length_cons, List.length_nil] <;> omega
  · cases first <;>
      simp only [stageBefore, Bool.false_eq_true, if_true, if_false, List.cons_append,
        List.nil_append, skipFrames, skipBlanks_cons hb]

/-- The first entry of a frame is entered without a comma, over its key. -/
theorem Skips.first {c : Char} {cs key : List Char} (hc : key ++ rest = c :: cs)
    (hb : isBlank c = false) (hne : c ≠ frame.closing)
    (hk : skipKey frame (key ++ rest) = .ok rest) :
    Skips .entry (frame :: frames) key .value (frame :: frames) rest := by
  refine .step (by simp only [Stage.need, List.length_append]; omega) fun fuel => ?_
  rw [hc] at hk ⊢
  simp only [skipFrames, skipBlanks_cons hb, if_neg hne, if_true, hk, bind, Except.bind]

theorem Skips.next {key : List Char} (hk : skipKey frame (key ++ rest) = .ok rest) :
    Skips .separator (frame :: frames) (',' :: key) .value (frame :: frames) rest := by
  have hb : isBlank ',' = false := rfl
  have hne : ',' ≠ frame.closing := by cases frame <;> decide
  have hs : Stage.separator ≠ .entry := by decide
  refine .step (by simp only [Stage.need, List.length_append, List.length_cons]; omega) fun fuel => ?_
  simp only [List.cons_append, skipFrames, skipBlanks_cons hb, if_neg hne, if_neg hs, if_true, hk,
    bind, Except.bind]

theorem Skips.item (first : Bool) {before after : List Char} (hb : Blanks before)
    (ha : Blanks after) {c : Char} {cs : List Char} (hc : rest = c :: cs) (hblank : isBlank c = false)
    (hne : c ≠ ']') :
    Skips (stageBefore first) (.array :: frames) (before ++ (comma first ++ after)) .value
      (.array :: frames) rest := by
  have hframes : Frame.array :: frames ≠ [] := List.cons_ne_nil _ _
  refine (Skips.blanks hb (.inr hframes)).trans ?_
  cases first with
  | true =>
    have hfirst : Skips .entry (.array :: frames) [] .value (.array :: frames) rest :=
      .first hc hblank hne rfl
    have h := (Skips.blanks ha (.inr hframes)).trans hfirst
    rwa [List.append_nil] at h
  | false =>
    have hnext : Skips .separator (.array :: frames) [','] .value (.array :: frames) (after ++ rest) :=
      .next rfl
    exact hnext.trans (Skips.blanks ha (.inl rfl))

theorem Skips.member (first : Bool) {before after key : List Char} (hb : Blanks before)
    (ha : Blanks after) (hk : ∀ {after}, Blanks after →
      skipKey .object (after ++ ('"' :: (key ++ rest))) = .ok rest) :
    Skips (stageBefore first) (.object :: frames) (before ++ (comma first ++ (after ++ '"' :: key)))
      .value (.object :: frames) rest := by
  have hframes : Frame.object :: frames ≠ [] := List.cons_ne_nil _ _
  refine (Skips.blanks hb (.inr hframes)).trans ?_
  cases first with
  | true =>
    refine (Skips.blanks ha (.inr hframes)).trans ?_
    exact .first rfl rfl (by decide) (@hk [] nofun)
  | false =>
    have hkey : skipKey .object (after ++ '"' :: key ++ rest) = .ok rest := by
      rw [List.append_assoc]
      exact hk ha
    exact .next hkey

end Steps

theorem skipKey_key {after body gap : List Char} {key : String} (ha : Blanks after)
    (hk : SpellsText key.toList body) (hg : Blanks gap) (rest : List Char) :
    skipKey .object (after ++ ('"' :: (body ++ '"' :: (gap ++ [':']) ++ rest))) = .ok rest := by
  have hs : skipBlanks (after ++ ('"' :: (body ++ '"' :: (gap ++ ':' :: rest)))) =
      '"' :: (body ++ '"' :: (gap ++ ':' :: rest)) := by
    rw [skipBlanks_append ha, skipBlanks_cons rfl]
  have hc : skipBlanks (gap ++ ':' :: rest) = ':' :: rest := by
    rw [skipBlanks_append hg, skipBlanks_cons rfl]
  simp only [List.append_assoc, List.cons_append, List.nil_append, skipKey, hs, hk.skipText,
    expectColon, hc, bind, Except.bind]

theorem skipOpening_number {text rest : List Char} (h : NumberText text) (hr : Delimited rest) :
    skipOpening (text ++ rest) = .ok (none, rest) := by
  obtain ⟨negative, hw, hf, he⟩ := h
  have hn := skipNumber_parts hw hf he hr
  obtain ⟨c, cs, rfl, hc⟩ := hw.toDigits.opens
  rw [List.append_assoc, List.append_assoc, List.append_assoc]
  cases negative with
  | true =>
    simp only [minus, if_true, List.cons_append, List.nil_append, skipOpening] at hn ⊢
    rw [hn]
    rfl
  | false =>
    rw [List.cons_append] at hn
    simp only [minus, Bool.false_eq_true, if_false, List.nil_append, List.cons_append]
    rw [skipOpening.eq_def]
    split <;> simp_all [bind, Except.bind]

mutual

theorem Spells.skips : ∀ {t : Tree} {text : List Char}, Spells t text → ∀ frames {rest},
    Delimited rest → Skips .value frames text .separator frames rest
  | _, _, .null, _, _, _ => .scalar ⟨_, _, rfl, rfl⟩ rfl
  | _, _, .isTrue, _, _, _ => .scalar ⟨_, _, rfl, rfl⟩ rfl
  | _, _, .isFalse, _, _, _ => .scalar ⟨_, _, rfl, rfl⟩ rfl
  | _, _, .number h, _, _, hr =>
    have ⟨c, cs, ht, hb, _⟩ := Spells.opens (.number h)
    .scalar ⟨c, cs, ht, hb⟩ (skipOpening_number h hr)
  | _, _, .text h, _, rest, _ => .scalar ⟨_, _, rfl, rfl⟩ (by
      simp only [List.cons_append, List.append_assoc, List.nil_append, skipOpening, h.skipText,
        bind, Except.bind])
  | _, _, .array h, frames, _, _ => (Skips.opening rfl rfl).trans (h.skips frames)
  | _, _, .object h, frames, _, _ => (Skips.opening rfl rfl).trans (h.skips frames)

theorem SpellsItems.skips : ∀ {first : Bool} {items : List Tree} {text : List Char},
    SpellsItems first items text → ∀ frames {rest},
    Skips (stageBefore first) (.array :: frames) (text ++ [']']) .separator frames rest
  | first, _, _, .done hb, _, _ =>
    (Skips.blanks hb (.inr (List.cons_ne_nil _ _))).trans (.closing first)
  | _, _, _, @SpellsItems.next first before after text more _ _ hb ha hi h, frames, rest => by
    obtain ⟨c, cs, ht, hblank, hne⟩ := hi.opens
    have hd : Delimited (more ++ [']'] ++ rest) := by
      rw [List.append_assoc]
      exact h.delimited rest
    have hassoc : before ++ (comma first ++ (after ++ (text ++ more))) ++ [']'] =
        before ++ (comma first ++ after) ++ (text ++ (more ++ [']'])) := by
      simp only [List.append_assoc]
    rw [hassoc]
    refine (Skips.item first hb ha (by rw [ht]; rfl) hblank hne).trans ?_
    exact (hi.skips _ hd).trans (h.skips frames)

theorem SpellsMembers.skips : ∀ {first : Bool} {members : List (String × Tree)} {text : List Char},
    SpellsMembers first members text → ∀ frames {rest},
    Skips (stageBefore first) (.object :: frames) (text ++ ['}']) .separator frames rest
  | first, _, _, .done hb, _, _ =>
    (Skips.blanks hb (.inr (List.cons_ne_nil _ _))).trans (.closing first)
  | _, _, _, @SpellsMembers.next first before after body gap lead text more _ _ _ hb ha hk hg hl hv h,
      frames, rest => by
    have hd : Delimited (more ++ ['}'] ++ rest) := by
      rw [List.append_assoc]
      exact h.delimited rest
    have hassoc : before ++ (comma first ++ (after ++ ('"' :: (body ++ ('"' ::
          (gap ++ (':' :: (lead ++ (text ++ more))))))))) ++ ['}'] =
        before ++ (comma first ++ (after ++ '"' :: (body ++ '"' :: (gap ++ [':'])))) ++
          (lead ++ (text ++ (more ++ ['}']))) := by
      simp only [List.append_assoc, List.cons_append, List.nil_append]
    rw [hassoc]
    refine (Skips.member first hb ha fun ha => skipKey_key ha hk hg _).trans ?_
    exact (Skips.blanks hl (.inl rfl)).trans ((hv.skips _ hd).trans (h.skips frames))

end

/-- A value of any depth is skipped, with the blanks in front of it. -/
theorem Spells.skipValue {t : Tree} {text blanks rest : List Char} (h : Spells t text)
    (hb : Blanks blanks) (hr : Delimited rest) :
    skipValue (blanks ++ (text ++ rest)) = .ok rest := by
  have hs := (@Skips.blanks .value [] (text ++ rest) blanks hb (.inl rfl)).trans (h.skips [] hr)
  obtain ⟨left, hl, hs⟩ := hs (2 * (blanks ++ (text ++ rest)).length + 2) (by
    rw [List.append_assoc]
    exact Nat.le_succ _)
  rw [List.append_assoc] at hs
  obtain ⟨left, rfl⟩ := exists_fuel_left hl
  exact hs

end ExampleTests.Json
