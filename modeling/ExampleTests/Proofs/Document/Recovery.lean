import ExampleTests.Proofs.Document.Outline
import Mathlib.Data.List.Forall2

/-! What a document tells about its spec. Where no text holds a line break, a
document has the lines of its outline, and each block gives back the call and
the return of its example. A title alone need not: its separator may occur in
both of them, and then two cuts of it are possible. -/

namespace ExampleTests

/-- Two cuts of one text at a separator: the longer first part repeats the
separator, shifted by what it has more. -/
theorem shift_of_shorter {a b sep r s : List Char} (h : a ++ sep ++ r = b ++ sep ++ s)
    (hl : a.length < b.length) :
    ∃ d e, d ≠ [] ∧ b = a ++ d ∧ r = e ++ s ∧ d ++ sep = sep ++ e := by
  have hp : a <+: b := by
    have ha : a <+: b ++ sep ++ s := ⟨sep ++ r, by rw [← h, List.append_assoc]⟩
    have hb : b <+: b ++ sep ++ s := ⟨sep ++ s, by rw [List.append_assoc]⟩
    exact List.prefix_of_prefix_length_le ha hb (Nat.le_of_lt hl)
  obtain ⟨d, rfl⟩ := hp
  have hd : d ≠ [] := by
    rintro rfl
    simp at hl
  have hs : sep ++ r = (d ++ sep) ++ s := by simpa [List.append_assoc] using h
  rcases List.append_eq_append_iff.mp hs with ⟨e, he, hr⟩ | ⟨e, he, _⟩
  · exact ⟨d, e, hd, rfl, hr, he⟩
  · have hlen := congrArg List.length he
    simp only [List.length_append] at hlen
    have hz : d.length = 0 := by omega
    exact absurd (List.eq_nil_of_length_eq_zero hz) hd

theorem append_middle_inj {a b sep r s : List Char} (h : a ++ sep ++ r = b ++ sep ++ s)
    (hab : ¬ a.length < b.length) (hba : ¬ b.length < a.length) : a = b ∧ r = s := by
  have hl : (a ++ sep).length = (b ++ sep).length := by simp only [List.length_append]; omega
  have hh := List.append_inj h hl
  exact ⟨List.append_cancel_right hh.1, hh.2⟩

def titleSeparator : String := " should return "

def expectationSeparator : String := " `shouldBe` "

theorem titleSeparator_toList : titleSeparator.toList =
    [' ', 's', 'h', 'o', 'u', 'l', 'd', ' ', 'r', 'e', 't', 'u', 'r', 'n', ' '] := by
  decide +kernel

theorem expectationSeparator_toList : expectationSeparator.toList =
    [' ', '`', 's', 'h', 'o', 'u', 'l', 'd', 'B', 'e', '`', ' '] := by
  decide +kernel

/-- The two separators differ in their second character, so nothing can be put
in front of both of them that begins both. -/
theorem not_shorter_of_two_separators {a b r s : List Char}
    (ht : a ++ titleSeparator.toList ++ r = b ++ titleSeparator.toList ++ s)
    (he : a ++ expectationSeparator.toList ++ r = b ++ expectationSeparator.toList ++ s) :
    ¬ a.length < b.length := by
  intro hl
  obtain ⟨d, e, hd, hb, -, hs⟩ := shift_of_shorter ht hl
  obtain ⟨d', e', -, hb', -, hs'⟩ := shift_of_shorter he hl
  have hdd : d = d' := List.append_cancel_left (hb.symm.trans hb')
  subst d'
  rw [titleSeparator_toList] at hs
  rw [expectationSeparator_toList] at hs'
  cases d with
  | nil => exact hd rfl
  | cons x d =>
    cases d with
    | nil => simp at hs
    | cons y d =>
      have hy : y = 's' := (List.cons.inj (List.cons.inj hs).2).1
      have hy' : y = '`' := (List.cons.inj (List.cons.inj hs').2).1
      exact absurd (hy.symm.trans hy') (by decide)

/-- Shifted by less than its length, the separator of titles overlaps with
itself only by its last blank. -/
theorem shift_eq_of_short {d e : List Char} (hpos : 0 < d.length) (hlt : d.length < 15)
    (h : d ++ titleSeparator.toList = titleSeparator.toList ++ e) : d.length = 14 := by
  have hd : titleSeparator.toList.take d.length = d := by
    have ht := congrArg (List.take d.length) h
    rw [List.take_left, List.take_append_of_le_length] at ht
    · exact ht.symm
    · rw [titleSeparator_toList]
      exact Nat.le_of_lt hlt
  have hfalse : ∀ n < 14, 0 < n →
      (titleSeparator.toList.take n ++ titleSeparator.toList).take 15 ≠ titleSeparator.toList := by
    rw [titleSeparator_toList]
    decide
  by_contra hne
  refine hfalse d.length (by omega) hpos ?_
  rw [hd, h]
  exact List.take_left' (by rw [titleSeparator_toList]; rfl)

/-- A text that repeats the separator of titles leaves its words behind. -/
theorem words_infix_of_shift {d e : List Char} (hd : d ≠ [])
    (h : d ++ titleSeparator.toList = titleSeparator.toList ++ e) :
    "should return ".toList <:+: e := by
  have hw : titleSeparator.toList = ' ' :: "should return ".toList := by decide +kernel
  have hn : titleSeparator.toList.length = 15 := by rw [titleSeparator_toList]; rfl
  by_cases hlong : 15 ≤ d.length
  · -- The separator fits into what it is shifted by, and comes back whole.
    have hp : titleSeparator.toList <+: d := by
      have hp : titleSeparator.toList <+: d ++ titleSeparator.toList := ⟨e, h.symm⟩
      exact List.prefix_of_prefix_length_le hp ⟨titleSeparator.toList, rfl⟩ (by omega)
    obtain ⟨f, rfl⟩ := hp
    rw [List.append_assoc] at h
    have he : e = f ++ titleSeparator.toList := (List.append_cancel_left h).symm
    rw [he, hw]
    exact ⟨f ++ [' '], [], by simp⟩
  · -- The last blank of the one separator is the first of the other.
    have hlen := shift_eq_of_short (List.length_pos_of_ne_nil hd) (by omega) h
    have he : e = "should return ".toList := by
      calc e = (d ++ titleSeparator.toList).drop 15 := by rw [h, List.drop_left' hn]
        _ = d.drop 15 ++ titleSeparator.toList.drop (15 - d.length) := List.drop_append
        _ = "should return ".toList := by
          rw [List.drop_eq_nil_of_le (by omega), hlen, hw]
          decide +kernel
    exact he ▸ List.infix_rfl

theorem not_mem_intercalate {c : Char} (sep : String) {texts : List String}
    (hs : c ∉ sep.toList) (h : ∀ t ∈ texts, c ∉ t.toList) :
    c ∉ (String.intercalate sep texts).toList := by
  intro hc
  rcases mem_intercalate hc with hc | ⟨t, ht, hc⟩
  · exact hs hc
  · exact h t ht hc

theorem intercalate_newline_inj {xs ys : List String} (hx : ∀ l ∈ xs, '\n' ∉ l.toList)
    (hy : ∀ l ∈ ys, '\n' ∉ l.toList) (hxs : xs ≠ []) (hys : ys ≠ [])
    (h : String.intercalate "\n" xs = String.intercalate "\n" ys) : xs = ys := by
  have hsplit : ∀ {zs : List String}, (∀ l ∈ zs, '\n' ∉ l.toList) → zs ≠ [] →
      (String.intercalate "\n" zs).toList.splitOn '\n' = zs.map String.toList := by
    intro zs hz hne
    rw [String.toList_intercalate]
    exact List.splitOn_intercalate '\n' (by simpa using hz) (by simpa using hne)
  have hm : xs.map String.toList = ys.map String.toList := by
    rw [← hsplit hx hxs, ← hsplit hy hys, h]
  exact List.map_injective_iff.mpr (fun _ _ => String.toList_inj.mp) hm

theorem forall₂_of_flatMap_eq {α β γ : Type} {f : α → List γ} {g : β → List γ} {n : Nat}
    (hn : 0 < n) (hf : ∀ a, (f a).length = n) (hg : ∀ b, (g b).length = n)
    {as : List α} {bs : List β} (h : as.flatMap f = bs.flatMap g) :
    List.Forall₂ (fun a b => f a = g b) as bs := by
  have hne : ∀ {l : List γ}, l.length = n → l ≠ [] := fun hl => List.ne_nil_of_length_pos (by omega)
  induction as generalizing bs with
  | nil =>
    cases bs with
    | nil => exact .nil
    | cons b bs => simp [hne (hg b)] at h
  | cons a as ih =>
    cases bs with
    | nil => simp [hne (hf a)] at h
    | cons b bs =>
      simp only [List.flatMap_cons] at h
      have hh := List.append_inj h ((hf a).trans (hg b).symm)
      exact .cons hh.1 (ih hh.2)

/-- No line break in the name of a spec or in the text of any of its literals. -/
structure Spec.SingleLine (s : Spec) : Prop where
  subject : '\n' ∉ s.subject.toList
  argument : ∀ e ∈ s.exampleList, ∀ v ∈ e.argumentList, '\n' ∉ v.render.toList
  returned : ∀ e ∈ s.exampleList, ∀ v ∈ e.returns, '\n' ∉ v.render.toList

/-- No return holds the words that separate it from the call in a title. -/
def Spec.ReturnsAvoidTitle (s : Spec) : Prop :=
  ∀ e ∈ s.exampleList, ¬ "should return ".toList <:+: (returnText e.returns).toList

theorem Spec.SingleLine.returnText {s : Spec} (h : s.SingleLine) {e : Example}
    (he : e ∈ s.exampleList) : '\n' ∉ (returnText e.returns).toList := by
  cases hr : e.returns with
  | none => simp [ExampleTests.returnText]
  | some v => exact h.returned e he v (by simp [hr])

namespace Language

theorem newline_not_mem_application (language : Language) {s : Spec} (h : s.SingleLine)
    {e : Example} (he : e ∈ s.exampleList) :
    '\n' ∉ (language.application s.subject e).toList := by
  have ha : ∀ t ∈ e.argumentList.map Value.render, '\n' ∉ t.toList := by
    simpa using h.argument e he
  cases language with
  | haskell =>
    refine not_mem_intercalate " " (by simp) fun t ht => ?_
    rcases List.mem_cons.mp ht with rfl | ht
    · exact h.subject
    · exact ha t ht
  | javaScript =>
    have hi := not_mem_intercalate ", " (by simp) ha
    simpa [application, h.subject] using hi
  | gobstones =>
    have hi := not_mem_intercalate ", " (by simp) ha
    simpa [application, h.subject] using hi

theorem newline_not_mem_block (language : Language) {call expected : String}
    (hc : '\n' ∉ call.toList) (he : '\n' ∉ expected.toList) :
    ∀ l ∈ language.block call expected, '\n' ∉ l.toList := by
  cases language <;> simp [block, hc, he]

theorem newline_not_mem_outline (language : Language) {s : Spec} (h : s.SingleLine) :
    ∀ l ∈ language.outline s, '\n' ∉ l.toList := by
  intro l hl
  simp only [outline, List.mem_append, List.mem_flatMap] at hl
  rcases hl with (hl | ⟨e, he, hl⟩) | hl
  · have ho : ∀ l ∈ language.opening s.subject, '\n' ∉ l.toList := by
      cases language <;> simp [opening, h.subject]
    exact ho l hl
  · exact language.newline_not_mem_block (language.newline_not_mem_application h he)
      (h.returnText he) l hl
  · have hc : ∀ l ∈ language.closing, '\n' ∉ l.toList := by
      cases language <;> simp [closing]
    exact hc l hl

theorem cut_toList (sep : String) {c c' r r' : String} (h : c ++ sep ++ r = c' ++ sep ++ r') :
    c.toList ++ sep.toList ++ r.toList = c'.toList ++ sep.toList ++ r'.toList := by
  simpa only [String.toList_append] using congrArg String.toList h

theorem toList_inj_pair {c c' r r' : String} (h : c.toList = c'.toList ∧ r.toList = r'.toList) :
    c = c' ∧ r = r' :=
  ⟨String.toList_inj.mp h.1, String.toList_inj.mp h.2⟩

/-- The two lines of a Haskell block hold the call and the return with
different separators, and only one cut fits both. -/
theorem haskell_block_inj {c c' r r' : String} (h : haskell.block c r = haskell.block c' r') :
    c = c' ∧ r = r' := by
  simp only [block, List.cons.injEq, and_true, String.append_left_inj, String.append_right_inj] at h
  have he : c ++ " `shouldBe` " ++ r = c' ++ " `shouldBe` " ++ r' :=
    (String.append_right_inj "    ").mp (by simpa only [String.append_assoc] using h.2)
  have ht := cut_toList titleSeparator h.1
  replace he := cut_toList expectationSeparator he
  exact toList_inj_pair (append_middle_inj ht (not_shorter_of_two_separators ht he)
    (not_shorter_of_two_separators ht.symm he.symm))

theorem javaScript_block_inj {c c' r r' : String}
    (h : javaScript.block c r = javaScript.block c' r')
    (hr : ¬ "should return ".toList <:+: r.toList)
    (hr' : ¬ "should return ".toList <:+: r'.toList) : c = c' ∧ r = r' := by
  simp only [block, List.cons.injEq, String.append_left_inj, String.append_right_inj] at h
  have ht := cut_toList titleSeparator h.1
  have hlt : ∀ {a b s t : List Char}, a ++ titleSeparator.toList ++ s =
      b ++ titleSeparator.toList ++ t → a.length < b.length → "should return ".toList <:+: s := by
    intro a b s t hcut hl
    obtain ⟨d, e, hd, -, rfl, hs⟩ := shift_of_shorter hcut hl
    exact (words_infix_of_shift hd hs).trans ⟨[], t, by simp⟩
  exact toList_inj_pair (append_middle_inj ht (fun hl => hr (hlt ht hl))
    (fun hl => hr' (hlt ht.symm hl)))

theorem gobstones_block_inj {c c' r r' : String} (h : gobstones.block c r = gobstones.block c' r') :
    c = c' ∧ r = r' := by
  simp only [block, List.cons.injEq, and_true, String.append_right_inj] at h
  obtain ⟨ht, rfl⟩ := h
  exact ⟨by simpa only [String.append_left_inj] using ht, rfl⟩

theorem opening_inj (language : Language) {subject subject' : String}
    (h : language.opening subject = language.opening subject') : subject = subject' := by
  cases language <;> simpa [opening] using h

theorem opening_length (language : Language) (subject subject' : String) :
    (language.opening subject).length = (language.opening subject').length := by
  cases language <;> rfl

theorem outline_ne_nil (language : Language) (spec : Spec) : language.outline spec ≠ [] := by
  cases language <;> simp [outline, opening]

def blockLength : Language → Nat
  | haskell | gobstones => 2
  | javaScript => 3

theorem exampleBlock_length (language : Language) (subject : String) (e : Example) :
    (language.exampleBlock subject e).length = language.blockLength := by
  cases language <;> rfl

theorem outline_inj (language : Language) {s t : Spec}
    (h : language.outline s = language.outline t) :
    s.subject = t.subject ∧
      List.Forall₂ (fun e f => language.exampleBlock s.subject e = language.exampleBlock t.subject f)
        s.exampleList t.exampleList := by
  simp only [outline, List.append_assoc] at h
  have hh := List.append_inj h (language.opening_length s.subject t.subject)
  refine ⟨language.opening_inj hh.1, ?_⟩
  exact forall₂_of_flatMap_eq (by cases language <;> decide)
    (language.exampleBlock_length s.subject) (language.exampleBlock_length t.subject)
    (List.append_cancel_right hh.2)

theorem exampleBlock_inj (language : Language) {s t : Spec} {e f : Example}
    (he : e ∈ s.exampleList) (hf : f ∈ t.exampleList)
    (hjs : language = javaScript → s.ReturnsAvoidTitle ∧ t.ReturnsAvoidTitle)
    (h : language.exampleBlock s.subject e = language.exampleBlock t.subject f) :
    language.application s.subject e = language.application t.subject f ∧
      returnText e.returns = returnText f.returns := by
  cases language with
  | haskell => exact haskell_block_inj h
  | javaScript => exact javaScript_block_inj h ((hjs rfl).1 e he) ((hjs rfl).2 f hf)
  | gobstones => exact gobstones_block_inj h

end Language

/-- Two specs of single lines have the same document only if they agree in
their subject and, example by example, in the text of the call and of what it
returns; in JavaScript the returns must not read like titles. -/
theorem generate_eq_iff (language : Language) (s t : Spec)
    (hs : s.exampleList ≠ []) (ht : t.exampleList ≠ [])
    (hls : s.SingleLine) (hlt : t.SingleLine)
    (hjs : language = .javaScript → s.ReturnsAvoidTitle ∧ t.ReturnsAvoidTitle) :
    (generate language.token s).value = (generate language.token t).value ↔
      s.subject = t.subject ∧ s.exampleList.length = t.exampleList.length ∧
        ∀ (i : Nat) (hi : i < s.exampleList.length) (hj : i < t.exampleList.length),
          language.call s.subject s.exampleList[i] = language.call t.subject t.exampleList[i] ∧
            returnText s.exampleList[i].returns = returnText t.exampleList[i].returns := by
  simp only [generate_token, Except.ok.injEq, language.generate_eq_intercalate hs,
    language.generate_eq_intercalate ht, Language.call_eq_application]
  constructor
  · intro h
    have ho := intercalate_newline_inj (language.newline_not_mem_outline hls)
      (language.newline_not_mem_outline hlt) (language.outline_ne_nil s)
      (language.outline_ne_nil t) h
    obtain ⟨hsub, hblocks⟩ := language.outline_inj ho
    refine ⟨hsub, hblocks.length_eq, fun i hi hj => ?_⟩
    exact language.exampleBlock_inj (List.getElem_mem hi) (List.getElem_mem hj) hjs
      (hblocks.get hi hj)
  · rintro ⟨hsub, hlen, hexamples⟩
    have hb : s.exampleList.map (language.exampleBlock s.subject) =
        t.exampleList.map (language.exampleBlock t.subject) := by
      refine List.ext_getElem (by simpa using hlen) fun i hi hj => ?_
      obtain ⟨hc, hr⟩ := hexamples i (by simpa using hi) (by simpa using hj)
      simp only [List.getElem_map, Language.exampleBlock, hc, hr]
    have ho : language.outline s = language.outline t := by
      rw [Language.outline, Language.outline, List.flatMap_def, List.flatMap_def, hb, hsub]
    rw [ho]

theorem generate_eq_iff_same_title :
    let s : Spec :=
      { subject := "f", examples := some [{ returns := some (.raw "a should return b") }] }
    let t : Spec :=
      { subject := "f"
        examples := some [{ arguments := some [.raw "should", .raw "return", .raw "a"]
                            returns := some (.raw "b") }] }
    s.exampleList ≠ [] ∧ t.exampleList ≠ [] ∧ s.SingleLine ∧ t.SingleLine ∧
      (Language.haskell = .javaScript → s.ReturnsAvoidTitle ∧ t.ReturnsAvoidTitle) ∧
      (generate "haskell" s).value ≠ (generate "haskell" t).value := by
  intro s t
  have hs : s.exampleList ≠ [] := by simp [s, Spec.exampleList]
  have ht : t.exampleList ≠ [] := by simp [t, Spec.exampleList]
  have hls : s.SingleLine := by constructor <;> decide +kernel
  have hlt : t.SingleLine := by constructor <;> decide +kernel
  have hjs : Language.haskell = .javaScript → s.ReturnsAvoidTitle ∧ t.ReturnsAvoidTitle := by
    intro h
    cases h
  refine ⟨hs, ht, hls, hlt, hjs, fun h => ?_⟩
  have hc := (((generate_eq_iff .haskell s t hs ht hls hlt hjs).mp h).2.2 0
    (by decide) (by decide)).1
  exact absurd hc (by decide +kernel)

/-- Without the condition on returns, JavaScript specs of different calls collide. -/
theorem javaScript_collision (f r : String) :
    let s : Spec :=
      { subject := f
        examples := some [{ returns := some (.raw (r ++ ", " ++ f ++ "() should return " ++ r)) }] }
    let t : Spec :=
      { subject := f
        examples := some [{ arguments := some [.raw (") should return " ++ r ++ ", " ++ f ++ "(")]
                            returns := some (.raw r) }] }
    (generate "javascript" s).value = (generate "javascript" t).value ∧
      s.exampleList.map (Language.javaScript.call f) ≠
        t.exampleList.map (Language.javaScript.call f) := by
  intro s t
  have hs : s.exampleList ≠ [] := by simp [s, Spec.exampleList]
  have ht : t.exampleList ≠ [] := by simp [t, Spec.exampleList]
  have ho : Language.javaScript.outline s = Language.javaScript.outline t := by
    simp [Language.outline, Language.exampleBlock, Language.block, Language.application, s, t,
      Spec.exampleList, Example.argumentList, returnText, Value.render, ← String.toList_inj]
  have hg := Language.javaScript.generate_eq_intercalate hs
  rw [ho, ← Language.javaScript.generate_eq_intercalate ht] at hg
  refine ⟨?_, fun hc => ?_⟩
  · exact (generate_token .javaScript s).trans
      ((congrArg Except.ok hg).trans (generate_token .javaScript t).symm)
  · simp [s, t, Spec.exampleList, Language.call_eq_application, Language.application,
      Example.argumentList, Value.render, ← String.toList_inj] at hc

end ExampleTests
