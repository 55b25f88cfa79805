import ExampleTests.Proofs.Document.Recovery

/-! The lines of a document. Each line of the outline is a line of the document
unless a text in it holds a line break. On lines that are whole, only the headings of
blocks begin as such headings do. -/

namespace ExampleTests

def pieces (text : String) : List String := (text.toList.splitOn '\n').map String.ofList

theorem pieces_of_not_mem {line : String} (h : '\n' ∉ line.toList) : pieces line = [line] := by
  rw [pieces, List.splitOn_eq_singleton h, List.map_singleton, String.ofList_toList]

theorem pieces_ne_nil (text : String) : pieces text ≠ [] := by
  rw [pieces, ne_eq, List.map_eq_nil_iff]
  exact List.splitOn_ne_nil '\n' text.toList

theorem pieces_newline (line text : String) :
    pieces (line ++ "\n" ++ text) = pieces line ++ pieces text := by
  have hl : (line ++ "\n" ++ text).toList = line.toList ++ '\n' :: text.toList := by simp
  rw [pieces, hl, List.splitOn_append_cons_self, List.map_append]
  rfl

theorem pieces_intercalate {lines : List String} (h : lines ≠ []) :
    pieces (String.intercalate "\n" lines) = lines.flatMap pieces := by
  induction lines with
  | nil => exact absurd rfl h
  | cons line lines ih =>
    cases lines with
    | nil => simp
    | cons next lines =>
      rw [String.intercalate_cons_cons, pieces_newline, ih (List.cons_ne_nil _ _)]
      rfl

theorem length_pieces_eq_one_iff {line : String} : (pieces line).length = 1 ↔ '\n' ∉ line.toList := by
  refine ⟨fun hl hm => ?_, fun h => by rw [pieces_of_not_mem h, List.length_singleton]⟩
  obtain ⟨before, after, hs⟩ := List.append_of_mem hm
  have hb := List.length_pos_of_ne_nil (List.splitOn_ne_nil '\n' before)
  have ha := List.length_pos_of_ne_nil (List.splitOn_ne_nil '\n' after)
  rw [pieces, hs, List.splitOn_append_cons_self, List.length_map, List.length_append] at hl
  omega

theorem length_flatMap_pieces (lines : List String) :
    lines.length ≤ (lines.flatMap pieces).length ∧
      ((lines.flatMap pieces).length = lines.length ↔ ∀ l ∈ lines, '\n' ∉ l.toList) := by
  induction lines with
  | nil => simp
  | cons line lines ih =>
    obtain ⟨hle, heq⟩ := ih
    have hpos := List.length_pos_of_ne_nil (pieces_ne_nil line)
    rw [List.forall_mem_cons, ← heq, ← length_pieces_eq_one_iff, List.flatMap_cons,
      List.length_append, List.length_cons]
    omega

theorem flatMap_pieces {lines : List String} (h : ∀ l ∈ lines, '\n' ∉ l.toList) :
    lines.flatMap pieces = lines := by
  have hp : lines.flatMap pieces = lines.flatMap fun l => [l] :=
    List.flatMap_congr fun l hl => pieces_of_not_mem (h l hl)
  rw [hp, List.flatMap_singleton']

theorem mem_intercalate_of_mem {c : Char} (sep : String) {texts : List String} {text : String}
    (ht : text ∈ texts) (hc : c ∈ text.toList) : c ∈ (String.intercalate sep texts).toList := by
  induction texts with
  | nil => cases ht
  | cons t ts ih =>
    cases ts with
    | nil => simpa [List.mem_singleton.mp ht] using hc
    | cons u us =>
      rw [String.intercalate_cons_cons, String.toList_append, String.toList_append]
      rcases List.mem_cons.mp ht with rfl | ht
      · exact List.mem_append_left _ (List.mem_append_left _ hc)
      · exact List.mem_append_right _ (ih ht)

namespace Language

def lineCount (language : Language) (examples : Nat) : Nat :=
  match language with
  | haskell => 1 + 2 * examples
  | javaScript => 2 + 3 * examples
  | gobstones => 2 + 2 * examples

/-- How the first line of a block begins. -/
def opener : Language → String
  | haskell => "  it \""
  | javaScript => "  it(\""
  | gobstones => "- title: "

def closer : Language → String
  | haskell => "\" $ do"
  | javaScript => "\", function() \x7b"
  | gobstones => ""

def opens (language : Language) (line : String) : Bool := language.opener.toList.isPrefixOf line.toList

def titles (language : Language) (spec : Spec) : List String :=
  spec.exampleList.map fun e =>
    language.application spec.subject e ++ " should return " ++ returnText e.returns

theorem outline_length (language : Language) (spec : Spec) :
    (language.outline spec).length = language.lineCount spec.exampleList.length := by
  have hb : (spec.exampleList.flatMap (language.exampleBlock spec.subject)).length =
      language.blockLength * spec.exampleList.length := by
    simp [List.length_flatMap, exampleBlock_length, Nat.mul_comm]
  rw [outline, List.length_append, List.length_append, hb]
  cases language with
  | haskell => rfl
  | javaScript =>
    simp only [opening, closing, blockLength, lineCount, List.length_cons, List.length_nil]
    omega
  | gobstones => rfl

theorem mem_application (language : Language) {subject : String} {e : Example} {v : Value} {c : Char}
    (hv : v ∈ e.argumentList) (hc : c ∈ v.render.toList) :
    c ∈ (language.application subject e).toList := by
  have ht : v.render ∈ e.argumentList.map Value.render := List.mem_map_of_mem hv
  have hi := mem_intercalate_of_mem ", " ht hc
  cases language with
  | haskell => exact mem_intercalate_of_mem " " (List.mem_cons_of_mem _ ht) hc
  | javaScript | gobstones =>
    simp only [application, String.toList_append, List.mem_append, hi, or_true, true_or]

theorem mem_block (language : Language) {call expected : String} {c : Char}
    (h : c ∈ call.toList ∨ c ∈ expected.toList) :
    ∃ l ∈ language.block call expected, c ∈ l.toList := by
  cases language <;> rcases h with h | h <;> simp [block, h]

theorem mem_opening (language : Language) {subject : String} {c : Char} (h : c ∈ subject.toList) :
    ∃ l ∈ language.opening subject, c ∈ l.toList := by
  cases language <;> simp [opening, h]

theorem singleLine_iff (language : Language) (spec : Spec) :
    spec.SingleLine ↔ ∀ l ∈ language.outline spec, '\n' ∉ l.toList := by
  refine ⟨language.newline_not_mem_outline, fun h => ?_⟩
  have hblock : ∀ e ∈ spec.exampleList,
      ¬('\n' ∈ (language.application spec.subject e).toList ∨ '\n' ∈ (returnText e.returns).toList) := by
    intro e he hc
    obtain ⟨l, hl, hc⟩ := language.mem_block hc
    refine h l ?_ hc
    exact List.mem_append_left _ (List.mem_append_right _ (List.mem_flatMap.mpr ⟨e, he, hl⟩))
  refine ⟨fun hc => ?_, fun e he v hv hc => ?_, fun e he v hv hc => ?_⟩
  · obtain ⟨l, hl, hc⟩ := language.mem_opening hc
    exact h l (List.mem_append_left _ (List.mem_append_left _ hl)) hc
  · exact hblock e he (.inl (language.mem_application hv hc))
  · exact hblock e he (.inr (by rwa [Option.mem_def.mp hv, returnText]))

/-- The first line of a block is its heading, and no other line begins as one. -/
theorem filter_block (language : Language) (call expected : String) :
    (language.block call expected).filter language.opens =
      [language.opener ++ (call ++ " should return " ++ expected) ++ language.closer] := by
  cases language <;> simp [block, opens, opener, closer, List.isPrefixOf]

theorem filter_opening (language : Language) (subject : String) :
    (language.opening subject).filter language.opens = [] := by
  cases language <;> simp [opening, opens, opener, List.isPrefixOf]

theorem filter_closing (language : Language) : language.closing.filter language.opens = [] := by
  cases language <;> decide

theorem filter_outline (language : Language) (spec : Spec) :
    (language.outline spec).filter language.opens =
      (language.titles spec).map fun title => language.opener ++ title ++ language.closer := by
  rw [outline, List.filter_append, List.filter_append, filter_opening, filter_closing,
    List.nil_append, List.append_nil, List.filter_flatMap, titles, List.map_map]
  simp only [exampleBlock, filter_block]
  exact List.flatMap_pure_eq_map _ _

theorem empty_not_mem_outline (language : Language) (spec : Spec) :
    "" ∉ language.outline spec := by
  have hblock : ∀ call expected, "" ∉ language.block call expected := by
    cases language <;> simp [block, ← String.toList_inj]
  have hedge : "" ∉ language.opening spec.subject ∧ "" ∉ language.closing := by
    cases language <;> simp [opening, closing, ← String.toList_inj]
  intro h
  rcases List.mem_append.mp h with h | h
  · rcases List.mem_append.mp h with h | h
    · exact hedge.1 h
    · obtain ⟨e, -, h⟩ := List.mem_flatMap.mp h
      exact hblock _ _ h
  · exact hedge.2 h

end Language

/-- A document has at least the lines of its outline, and no others if and only if no
text in it holds a line break. Then none is empty, and those that begin as headings are
the headings of the examples, with the same titles in JavaScript and in Gobstones. -/
theorem generate_lines (language : Language) (spec : Spec) (h : spec.exampleList ≠ []) :
    ∃ text, (generate language.token spec).value = .ok text ∧
      language.lineCount spec.exampleList.length ≤ (pieces text).length ∧
      ((pieces text).length = language.lineCount spec.exampleList.length ↔ spec.SingleLine) ∧
      (spec.SingleLine → "" ∉ pieces text ∧
        (pieces text).filter language.opens =
          (language.titles spec).map fun title => language.opener ++ title ++ language.closer) ∧
      (language.titles spec).length = spec.exampleList.length ∧
      Language.javaScript.titles spec = Language.gobstones.titles spec := by
  have hp : pieces (language.generate spec) = (language.outline spec).flatMap pieces := by
    rw [language.generate_eq_intercalate h, pieces_intercalate (language.outline_ne_nil spec)]
  obtain ⟨hle, heq⟩ := length_flatMap_pieces (language.outline spec)
  rw [language.outline_length] at hle heq
  refine ⟨_, generate_token language spec, ?_, ?_, fun hs => ?_, List.length_map _, rfl⟩
  · rwa [hp]
  · rw [hp, heq, language.singleLine_iff]
  · rw [hp, flatMap_pieces ((language.singleLine_iff spec).mp hs)]
    exact ⟨language.empty_not_mem_outline spec, language.filter_outline spec⟩

/-- A subject that begins as a heading, and a return with a line break in it. -/
theorem generate_lines_heading_as_subject :
    let spec : Spec := { subject := "- title: ", examples := some [{ returns := some (.raw "a") }, {}] }
    let broken : Spec := { subject := "f", examples := some [{ returns := some (.raw "a\nb") }] }
    spec.exampleList ≠ [] ∧ broken.exampleList ≠ [] ∧
      (∃ text, (generate "gobstones" spec).value = .ok text ∧ (pieces text).length = 6 ∧
        (pieces text).filter Language.gobstones.opens =
          ["- title: - title: () should return a", "- title: - title: () should return "]) ∧
      ∃ text, (generate "gobstones" broken).value = .ok text ∧ 4 < (pieces text).length := by
  intro spec broken
  have hs : spec.exampleList ≠ [] := List.cons_ne_nil _ _
  have hb : broken.exampleList ≠ [] := List.cons_ne_nil _ _
  have hsingle : spec.SingleLine := by constructor <;> decide +kernel
  have hbroken : ¬broken.SingleLine := fun h =>
    h.returned _ List.mem_cons_self (.raw "a\nb") rfl (by decide)
  refine ⟨hs, hb, ?_, ?_⟩
  · obtain ⟨text, ht, -, hl, hlines, -⟩ := generate_lines .gobstones spec hs
    refine ⟨text, ht, hl.mpr hsingle, (hlines hsingle).2.trans ?_⟩
    decide +kernel
  · obtain ⟨text, ht, hle, hl, -⟩ := generate_lines .gobstones broken hb
    exact ⟨text, ht, Nat.lt_of_le_of_ne hle fun he => hbroken (hl.mp he.symm)⟩

end ExampleTests
