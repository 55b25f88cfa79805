import ExampleTests.Generate

/-! The outline of a document: its lines as templates that know nothing of
buffers and levels. Writing a document into a buffer appends the outline at
the level of the buffer, so the document on its own is the outline joined. -/

namespace ExampleTests

theorem toList_intercalate_cons (sep text : String) (texts : List String) :
    (String.intercalate sep (text :: texts)).toList =
      text.toList ++ texts.flatMap fun t => sep.toList ++ t.toList := by
  induction texts generalizing text with
  | nil => simp
  | cons u us ih => simp [String.intercalate_cons_cons, ih]

theorem mem_intercalate {c : Char} {sep : String} {texts : List String}
    (h : c ∈ (String.intercalate sep texts).toList) : c ∈ sep.toList ∨ ∃ t ∈ texts, c ∈ t.toList := by
  cases texts with
  | nil => simp at h
  | cons t ts =>
    rw [toList_intercalate_cons, List.mem_append, List.mem_flatMap] at h
    rcases h with h | ⟨u, hu, h⟩
    · exact .inr ⟨t, List.mem_cons_self, h⟩
    · exact (List.mem_append.mp h).imp_right fun h => ⟨u, List.mem_cons_of_mem t hu, h⟩

namespace LineBuffer

def indented (level : Nat) (text : String) : String :=
  String.join (List.replicate level indentation) ++ text

def append (b : LineBuffer) (texts : List String) : LineBuffer :=
  { b with lines := b.lines ++ texts.map (indented b.level) }

@[simp] theorem indented_zero (text : String) : indented 0 text = text := by
  simp [indented]

theorem indented_succ (level : Nat) (text : String) :
    indented (level + 1) text = indented level (indentation ++ text) := by
  simp [indented, List.replicate_succ', String.append_assoc]

@[simp] theorem append_nil (b : LineBuffer) : b.append [] = b := by
  simp [append]

theorem line_eq_append (b : LineBuffer) (text : String) : b.line text = b.append [text] := rfl

theorem append_append (b : LineBuffer) (texts more : List String) :
    (b.append texts).append more = b.append (texts ++ more) := by
  simp [append]

@[simp] theorem dedent_indent (b : LineBuffer) : b.indent.dedent = b := rfl

theorem append_indent (b : LineBuffer) (texts : List String) :
    b.indent.append texts = (b.append (texts.map (indentation ++ ·))).indent := by
  have hl : texts.map (indented (b.level + 1)) =
      texts.map (indented b.level ∘ (indentation ++ ·)) :=
    List.map_congr_left fun t _ => indented_succ b.level t
  simp [append, indent, hl]

theorem finish_append_empty (texts : List String) :
    (empty.append texts).finish = String.intercalate "\n" texts := by
  have hl : texts.map (indented 0) = texts :=
    (List.map_congr_left fun t _ => indented_zero t).trans (List.map_id texts)
  simp [append, empty, finish, hl]

end LineBuffer

namespace Language

/-- The call of an example: words after the name, or a list in parentheses. -/
def application (language : Language) (subject : String) (e : Example) : String :=
  let arguments := e.argumentList.map Value.render
  match language with
  | haskell => String.intercalate " " (subject :: arguments)
  | javaScript | gobstones => subject ++ "(" ++ String.intercalate ", " arguments ++ ")"

def opening (language : Language) (subject : String) : List String :=
  match language with
  | haskell => ["describe \"" ++ subject ++ ": \" $ do"]
  | javaScript => ["describe(\"" ++ subject ++ ": \", function() \x7b"]
  | gobstones => ["subject: " ++ subject, "examples:"]

def block (language : Language) (call expected : String) : List String :=
  let heading := call ++ " should return " ++ expected
  match language with
  | haskell => ["  it \"" ++ heading ++ "\" $ do", "    " ++ call ++ " `shouldBe` " ++ expected]
  | javaScript =>
    ["  it(\"" ++ heading ++ "\", function() \x7b",
      "    assertEqual(" ++ expected ++ ", " ++ call ++ ");", "  \x7d);"]
  | gobstones => ["- title: " ++ heading, "  return: " ++ expected]

def closing : Language → List String
  | haskell | gobstones => []
  | javaScript => ["\x7d);"]

def exampleBlock (language : Language) (subject : String) (e : Example) : List String :=
  language.block (language.application subject e) (returnText e.returns)

def outline (language : Language) (spec : Spec) : List String :=
  language.opening spec.subject ++
    spec.exampleList.flatMap (language.exampleBlock spec.subject) ++ language.closing

theorem call_eq_application (language : Language) (subject : String) (e : Example) :
    language.call subject e = language.application subject e := by
  cases language with
  | haskell =>
    cases h : e.argumentList.map Value.render with
    | nil => simp [call, application, callForm, CallForm.write, h]
    | cons a as =>
      simp [call, application, callForm, CallForm.write, h, String.intercalate_cons_cons,
        String.append_assoc]
  | javaScript => rfl
  | gobstones => rfl

/-- The buffer in which blocks are written, inside the opening of a document. -/
def inside (language : Language) (b : LineBuffer) : LineBuffer :=
  match language with
  | haskell | javaScript => b.indent
  | gobstones => b

/-- A step of the loop over examples adds a block and takes back what it indents. -/
theorem writeExample_inside (language : Language) (subject : String) (b : LineBuffer)
    (e : Example) :
    language.writeExample subject (language.inside b) e =
      language.inside (b.append (language.exampleBlock subject e)) := by
  rw [exampleBlock, ← call_eq_application]
  cases language <;>
    simp only [writeExample, exampleTitle, title, inside, block, LineBuffer.line_eq_append,
      LineBuffer.append_indent, LineBuffer.dedent_indent, LineBuffer.append_append,
      LineBuffer.indentation, List.map_cons, List.map_nil, List.cons_append, List.nil_append]
  all_goals simp only [← String.append_assoc, String.reduceAppend]

theorem foldl_writeExample_inside (language : Language) (subject : String) (b : LineBuffer)
    (es : List Example) :
    es.foldl (language.writeExample subject) (language.inside b) =
      language.inside (b.append (es.flatMap (language.exampleBlock subject))) := by
  -- A block leaves the level as it was, so only the lines of the buffer change.
  induction es generalizing b with
  | nil => simp
  | cons e es ih =>
    rw [List.foldl_cons, writeExample_inside, ih, LineBuffer.append_append, List.flatMap_cons]

theorem write_eq_append (language : Language) (spec : Spec) (b : LineBuffer) :
    language.write spec b = b.append (language.outline spec) := by
  have hloop := foldl_writeExample_inside language spec.subject
    (b.append (language.opening spec.subject)) spec.exampleList
  rw [LineBuffer.append_append] at hloop
  cases language with
  | haskell =>
    have hw : haskell.write spec b = _ := congrArg LineBuffer.dedent hloop
    simpa [inside, outline, closing] using hw
  | javaScript =>
    have hw : javaScript.write spec b = _ :=
      congrArg (fun c => LineBuffer.line (LineBuffer.dedent c) "\x7d);") hloop
    simpa [inside, outline, closing, LineBuffer.line_eq_append,
      LineBuffer.append_append] using hw
  | gobstones =>
    simpa [write, inside, outline, opening, closing, LineBuffer.line_eq_append,
      LineBuffer.append_append] using hloop

theorem document_eq_intercalate (language : Language) (spec : Spec) :
    language.document spec = String.intercalate "\n" (language.outline spec) := by
  rw [document, write_eq_append, LineBuffer.finish_append_empty]

theorem ofToken_token (language : Language) : ofToken language.token = .ok language := by
  cases language <;> rfl

theorem ofToken_eq_ok_iff {token : String} {language : Language} :
    ofToken token = .ok language ↔ token = language.token := by
  constructor
  · intro h
    cases hf : ofToken? token with
    | none => simp [ofToken, hf] at h
    | some l =>
      simp only [ofToken, hf, Except.ok.injEq] at h
      subst l
      have ht := List.find?_some (p := fun l : Language => l.token == token) hf
      exact (eq_of_beq ht).symm
  · rintro rfl
    exact ofToken_token language

theorem generate_eq_intercalate (language : Language) {spec : Spec} (h : spec.exampleList ≠ []) :
    language.generate spec = String.intercalate "\n" (language.outline spec) := by
  have hs : spec.hasExamples = true := by simpa [Spec.hasExamples] using h
  rw [generate, if_pos hs, document_eq_intercalate]

end Language

theorem generate_token (language : Language) (spec : Spec) :
    (generate language.token spec).value = .ok (language.generate spec) := by
  cases hs : spec.hasExamples with
  | false => simp [generate, Language.generate, hs]
  | true => simp [generate, hs, Language.ofToken_token]

/-- A spec with an example gives, under each of the three tokens, its outline
joined by line breaks, with none after the last line. -/
theorem generate_eq_outline (spec : Spec) (h : spec.exampleList ≠ []) :
    (generate "haskell" spec).value =
      .ok (String.intercalate "\n" (Language.haskell.outline spec)) ∧
    (generate "javascript" spec).value =
      .ok (String.intercalate "\n" (Language.javaScript.outline spec)) ∧
    (generate "gobstones" spec).value =
      .ok (String.intercalate "\n" (Language.gobstones.outline spec)) := by
  have ht : ∀ language : Language, (generate language.token spec).value =
      .ok (String.intercalate "\n" (language.outline spec)) := fun language => by
    rw [generate_token, language.generate_eq_intercalate h]
  exact ⟨ht .haskell, ht .javaScript, ht .gobstones⟩

theorem generate_eq_outline_sumar :
    let spec : Spec :=
      { subject := "sumar"
        examples := some [{ arguments := some [.integer 1, .raw "x"], returns := some (.integer 2) }, {}] }
    spec.exampleList ≠ [] ∧
      (generate "haskell" spec).value =
        .ok ("describe \"sumar: \" $ do\n" ++
          "  it \"sumar 1 x should return 2\" $ do\n    sumar 1 x `shouldBe` 2\n" ++
          "  it \"sumar should return \" $ do\n    sumar `shouldBe` ") := by
  intro spec
  have hs : spec.exampleList ≠ [] := by simp [spec, Spec.exampleList]
  exact ⟨hs, (generate_eq_outline spec hs).1.trans (congrArg Except.ok (by decide +kernel))⟩

end ExampleTests
