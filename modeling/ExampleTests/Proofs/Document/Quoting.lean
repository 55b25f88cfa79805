import ExampleTests.Proofs.Document.Recovery
import ExampleTests.Proofs.Document.Sequence

/-! Names and titles between quotes. They are copied as they are, so a reader
who knows backslash escapes finds the same text between the quotes if and only
if there is no quote, no backslash and no line break in it. -/

namespace ExampleTests

/-- What stands before the first quote that no backslash escapes, and what
stands after it. -/
def literal? : List Char → Option (List Char × List Char)
  | '"' :: rest => some ([], rest)
  | '\\' :: c :: rest => (literal? rest).map fun (text, after) => ('\\' :: c :: text, after)
  | c :: rest => (literal? rest).map fun (text, after) => (c :: text, after)
  | [] => none

/-- A line that goes on with a literal of just this text, in which there is no
escape and no line break, and after it only with what is given. -/
def WellQuoted (before text after line : String) : Prop :=
  ∃ body, line.toList = before.toList ++ '"' :: body ∧
    literal? body = some (text.toList, after.toList) ∧
    ∀ c ∈ text.toList, c ≠ '\\' ∧ c ≠ '\n' ∧ c ≠ '\r'

def Quotable (text : String) : Prop :=
  ∀ c ∈ text.toList, c ≠ '"' ∧ c ≠ '\\' ∧ c ≠ '\n' ∧ c ≠ '\r'

instance (text : String) : Decidable (Quotable text) := List.decidableBAll _ _

theorem literal?_append {text : List Char} (rest : List Char)
    (h : ∀ c ∈ text, c ≠ '"' ∧ c ≠ '\\') : literal? (text ++ '"' :: rest) = some (text, rest) := by
  induction text with
  | nil => rfl
  | cons c text ih =>
    have hc := h c List.mem_cons_self
    have hr := ih fun d hd => h d (List.mem_cons_of_mem c hd)
    rw [List.cons_append, literal?.eq_3 c _ (fun he => hc.1 he) (fun _ _ he _ => hc.2 he), hr]
    rfl

theorem quote_not_mem_of_literal? {body text after : List Char}
    (h : literal? body = some (text, after)) (hb : '\\' ∉ text) : '"' ∉ text := by
  fun_induction literal? body generalizing text with
  | case1 rest => cases h; simp
  | case2 c rest ih =>
    obtain ⟨⟨t, a⟩, -, ht⟩ := Option.map_eq_some_iff.mp h
    cases ht
    exact absurd List.mem_cons_self hb
  | case3 c rest hq hs ih =>
    obtain ⟨⟨t, a⟩, hr, ht⟩ := Option.map_eq_some_iff.mp h
    cases ht
    have hn := ih hr fun hm => hb (List.mem_cons_of_mem c hm)
    simp only [List.mem_cons, not_or]
    exact ⟨fun he => hq he.symm, hn⟩
  | case4 => cases h

theorem wellQuoted_iff (before text after : String) :
    WellQuoted before text after (before ++ "\"" ++ text ++ "\"" ++ after) ↔ Quotable text := by
  have hl : (before ++ "\"" ++ text ++ "\"" ++ after).toList =
      before.toList ++ '"' :: (text.toList ++ '"' :: after.toList) := by simp
  constructor
  · rintro ⟨body, hb, hlit, hp⟩ c hc
    have hq := quote_not_mem_of_literal? hlit fun hm => (hp '\\' hm).1 rfl
    exact ⟨fun he => hq (he ▸ hc), hp c hc⟩
  · intro h
    exact ⟨_, hl, literal?_append _ fun c hc => ⟨(h c hc).1, (h c hc).2.1⟩, fun c hc => (h c hc).2⟩

theorem quotable_append {s t : String} : Quotable (s ++ t) ↔ Quotable s ∧ Quotable t := by
  rw [Quotable, String.toList_append, List.forall_mem_append]
  rfl

theorem quotable_intercalate {sep : String} (hs : Quotable sep) (texts : List String) :
    Quotable (String.intercalate sep texts) ↔ ∀ t ∈ texts, Quotable t := by
  induction texts with
  | nil => simp [Quotable]
  | cons t ts ih =>
    cases ts with
    | nil => simp
    | cons u us =>
      rw [String.intercalate_cons_cons, quotable_append, quotable_append, ih, List.forall_mem_cons]
      simp [hs]

theorem getElem?_flatMap {α β : Type} {f : α → List β} {n : Nat} (hf : ∀ a, (f a).length = n)
    {as : List α} {i : Nat} {a : α} (h : as[i]? = some a) {j : Nat} (hj : j < n) :
    (as.flatMap f)[n * i + j]? = (f a)[j]? := by
  induction as generalizing i with
  | nil => cases h
  | cons b as ih =>
    cases i with
    | zero =>
      have hb : j < (f b).length := by rw [hf]; exact hj
      obtain rfl : b = a := by simpa using h
      rw [List.flatMap_cons, Nat.mul_zero, Nat.zero_add, List.getElem?_append_left hb]
    | succ i =>
      have hle : (f b).length ≤ n * (i + 1) + j := by rw [hf, Nat.mul_succ]; omega
      have hs : n * (i + 1) + j - (f b).length = n * i + j := by rw [hf, Nat.mul_succ]; omega
      rw [List.flatMap_cons, List.getElem?_append_right hle, hs]
      exact ih h

namespace Language

/-- What stands before the literal of a heading, after its word, and what ends
the line; only two languages have headings. -/
def headingMarks? : Language → Option (String × String)
  | haskell => some (" ", " $ do")
  | javaScript => some ("(", ", function() \x7b")
  | gobstones => none

theorem quotable_application (language : Language) (subject : String) (e : Example) :
    Quotable (language.application subject e) ↔
      Quotable subject ∧ ∀ v ∈ e.argumentList, Quotable v.render := by
  have hsep : ∀ {sep : String}, Quotable sep →
      (Quotable (String.intercalate sep (e.argumentList.map Value.render)) ↔
        ∀ v ∈ e.argumentList, Quotable v.render) := fun hs => by
    rw [quotable_intercalate hs, List.forall_mem_map]
  have hm : ∀ s ∈ [" ", ", ", "(", ")"], Quotable s := by decide +kernel
  cases language with
  | haskell =>
    have hs : Quotable " " := hm _ (by simp)
    rw [application, quotable_intercalate hs, List.forall_mem_cons, List.forall_mem_map]
  | javaScript =>
    rw [application, quotable_append, quotable_append, quotable_append, hsep (hm _ (by simp))]
    simp [hm]
  | gobstones =>
    rw [application, quotable_append, quotable_append, quotable_append, hsep (hm _ (by simp))]
    simp [hm]

theorem quotable_title (language : Language) (subject : String) (e : Example) :
    Quotable (language.exampleTitle subject e) ↔
      Quotable subject ∧ (∀ v ∈ e.argumentList, Quotable v.render) ∧
        Quotable (returnText e.returns) := by
  have hm : Quotable " should return " := by decide +kernel
  rw [exampleTitle, title, quotable_append, quotable_append, call_eq_application,
    quotable_application]
  simp [hm, and_assoc]

theorem outline_describe {language : Language} {before after : String}
    (h : language.headingMarks? = some (before, after)) (spec : Spec) :
    (language.outline spec)[0]? =
      some ("describe" ++ before ++ "\"" ++ (spec.subject ++ ": ") ++ "\"" ++ after) := by
  cases language <;> cases h <;> simp [outline, opening, ← String.toList_inj]

theorem exampleBlock_it {language : Language} {before after : String}
    (h : language.headingMarks? = some (before, after)) (subject : String) (e : Example) :
    (language.exampleBlock subject e)[0]? =
      some ("  it" ++ before ++ "\"" ++ language.exampleTitle subject e ++ "\"" ++ after) := by
  rw [exampleBlock, ← call_eq_application]
  cases language <;> cases h <;> simp [block, exampleTitle, title, ← String.toList_inj]

theorem outline_it {language : Language} {before after : String}
    (h : language.headingMarks? = some (before, after)) {spec : Spec} {i : Nat} {e : Example}
    (he : spec.exampleList[i]? = some e) :
    (language.outline spec)[1 + language.blockLength * i]? =
      some ("  it" ++ before ++ "\"" ++ language.exampleTitle spec.subject e ++ "\"" ++ after) := by
  have hb := getElem?_flatMap (language.exampleBlock_length spec.subject) he
    (j := 0) (by cases language <;> decide)
  have ho : (language.opening spec.subject).length = 1 := by
    cases language <;> cases h <;> rfl
  rw [Nat.add_zero, exampleBlock_it h] at hb
  rw [outline, List.append_assoc, List.getElem?_append_right (by omega), ho, Nat.add_sub_cancel_left,
    List.getElem?_append_left (List.getElem?_eq_some_iff.mp hb).1, hb]

end Language

/-- In the two languages with headings, the heading of a document is well
quoted if and only if the name of its spec is quotable, and the heading of an
example if and only if the name and the texts of its literals all are. -/
theorem headings_wellQuoted_iff (language : Language) (before after : String)
    (hm : language.headingMarks? = some (before, after)) (spec : Spec)
    (hne : spec.exampleList ≠ []) :
    let lines := (language.write spec LineBuffer.empty).lines
    (generate language.token spec).value = .ok (String.intercalate "\n" lines) ∧
    (∃ line, lines[0]? = some line ∧
      (WellQuoted ("describe" ++ before) (spec.subject ++ ": ") after line ↔
        Quotable spec.subject)) ∧
    ∀ (i : Nat) (e : Example), spec.exampleList[i]? = some e →
      ∃ line, lines[1 + language.blockLength * i]? = some line ∧
        (WellQuoted ("  it" ++ before) (language.exampleTitle spec.subject e) after line ↔
          Quotable spec.subject ∧ (∀ v ∈ e.argumentList, Quotable v.render) ∧
            Quotable (returnText e.returns)) := by
  intro lines
  have hl : lines = language.outline spec := language.lines_write_empty spec
  rw [hl]
  refine ⟨?_, ⟨_, Language.outline_describe hm spec, ?_⟩, fun i e he =>
    ⟨_, Language.outline_it hm he, ?_⟩⟩
  · rw [generate_token, language.generate_eq_intercalate hne]
  · have hc : Quotable ": " := by decide +kernel
    rw [wellQuoted_iff, quotable_append]
    simp [hc]
  · rw [wellQuoted_iff, Language.quotable_title]

theorem headings_wellQuoted_iff_sumar :
    let spec : Spec :=
      { subject := "sumar"
        examples := some [{ arguments := some [.integer 1, .raw "x"], returns := some (.integer 2) }] }
    Language.javaScript.headingMarks? = some ("(", ", function() \x7b") ∧ spec.exampleList ≠ [] ∧
      ∃ line, (Language.javaScript.write spec LineBuffer.empty).lines[1]? = some line ∧
        WellQuoted "  it(" "sumar(1, x) should return 2" ", function() \x7b" line := by
  intro spec
  have hne : spec.exampleList ≠ [] := by simp [spec, Spec.exampleList]
  obtain ⟨-, -, hi⟩ := headings_wellQuoted_iff .javaScript _ _ rfl spec hne
  obtain ⟨line, hl, hq⟩ := hi 0 _ rfl
  have ht : Language.javaScript.exampleTitle "sumar"
      { arguments := some [.integer 1, .raw "x"], returns := some (.integer 2) } =
        "sumar(1, x) should return 2" := by decide +kernel
  have hw := hq.mpr ⟨by decide +kernel, by decide +kernel, by decide +kernel⟩
  exact ⟨rfl, hne, line, hl, ht ▸ hw⟩

/-- A literal that brings its own quotes breaks the heading of its example. -/
theorem heading_not_wellQuoted :
    let spec : Spec := { subject := "f", examples := some [{ returns := some (.raw "\"a\"") }] }
    spec.isValid ∧ spec.exampleList ≠ [] ∧
      (generate "haskell" spec).value = .ok (String.intercalate "\n"
        ["describe \"f: \" $ do", "  it \"f should return \"a\"\" $ do", "    f `shouldBe` \"a\""]) ∧
      ¬ WellQuoted "  it " (Language.haskell.exampleTitle "f" { returns := some (.raw "\"a\"") })
        " $ do" "  it \"f should return \"a\"\" $ do" := by
  intro spec
  have hne : spec.exampleList ≠ [] := by simp [spec, Spec.exampleList]
  have ht : Language.haskell.exampleTitle "f" { returns := some (.raw "\"a\"") } =
      "f should return \"a\"" := by decide +kernel
  have hg : (generate "haskell" spec).value = .ok (String.intercalate "\n"
      (Language.haskell.outline spec)) :=
    (generate_token .haskell spec).trans
      (congrArg Except.ok (Language.haskell.generate_eq_intercalate hne))
  refine ⟨by decide, hne, hg.trans (congrArg Except.ok (by decide +kernel)), fun h => ?_⟩
  rw [ht] at h
  have hq := (wellQuoted_iff "  it " "f should return \"a\"" " $ do").mp h
  exact absurd hq (by decide +kernel)

end ExampleTests
