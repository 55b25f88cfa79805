import ExampleTests.Loading
import ExampleTests.Proofs.Document.Outline
import ExampleTests.Proofs.Yaml.Entries
import ExampleTests.Proofs.Yaml.Float

/-! Reading a Gobstones document back as a YAML spec. Its texts are copied without
quotes, so they come back where each of them is a plain scalar on its line. -/

namespace ExampleTests

open Yaml

/-- The lines of one example, each after a line break. -/
def exampleText (title expected : List Char) : List Char :=
  '\n' :: '-' :: ' ' :: (titleKey ++ ':' :: ' ' :: (title ++
    '\n' :: ' ' :: ' ' :: (returnKey ++ ':' :: ' ' :: expected)))

theorem newline_toList : "\n".toList = ['\n'] := rfl

theorem subjectLine_toList : "subject: ".toList = subjectKey ++ [':', ' '] := by decide

theorem examplesLine_toList : "examples:".toList = examplesKey ++ [':'] := by decide

theorem titleLine_toList : "- title: ".toList = '-' :: ' ' :: (titleKey ++ [':', ' ']) := by decide

theorem returnLine_toList : "  return: ".toList = ' ' :: ' ' :: (returnKey ++ [':', ' ']) := by decide

namespace Language

theorem gobstones_block_toList (subject : String) (e : Example) :
    (gobstones.exampleBlock subject e).flatMap (fun l => '\n' :: l.toList) =
      exampleText (gobstones.exampleTitle subject e).toList (returnText e.returns).toList := by
  have ht : gobstones.exampleBlock subject e =
      ["- title: " ++ gobstones.exampleTitle subject e, "  return: " ++ returnText e.returns] := rfl
  simp only [ht, exampleText, List.flatMap_cons, List.flatMap_nil, String.toList_append,
    titleLine_toList, returnLine_toList, List.cons_append, List.append_assoc, List.nil_append,
    List.append_nil]

theorem gobstones_toList {spec : Spec} (h : spec.exampleList ≠ []) :
    (gobstones.generate spec).toList = subjectKey ++ ':' :: ' ' :: (spec.subject.toList ++
      '\n' :: (examplesKey ++ ':' :: spec.exampleList.flatMap fun e =>
        exampleText (gobstones.exampleTitle spec.subject e).toList (returnText e.returns).toList)) := by
  have ho : gobstones.outline spec = ("subject: " ++ spec.subject) :: "examples:" ::
      spec.exampleList.flatMap (gobstones.exampleBlock spec.subject) := by
    simp [outline, opening, closing]
  simp only [generate_eq_intercalate gobstones h, ho, toList_intercalate_cons, newline_toList,
    List.flatMap_cons, List.flatMap_assoc, gobstones_block_toList, String.toList_append, subjectLine_toList,
    examplesLine_toList, List.cons_append, List.append_assoc, List.nil_append]

end Language

/-- A title of one line and a plain result make an entry, with the comment of the title. -/
theorem exists_entry {title expected : List Char} (ht : IsLine title) (hs : startsPlain title = true)
    (hl : title.getLast?.any isBlank = false) (he : IsPlain expected) :
    ∃ e : Yaml.Entry, e.Fits ∧ e.text = exampleText title expected ∧ e.returns = expected := by
  obtain ⟨t, comment, rfl, hw, hc⟩ := exists_words (head_of_startsPlain hs) hl ht.noBreak ht.noKey
  refine ⟨⟨t, comment, expected⟩, ⟨hw, startsPlain_left hw.ne_nil hc.head hs, hc, ?_, he.words,
    he.starts⟩, ?_, rfl⟩
  · exact fun c hm => ht.noBreak c (List.mem_append_right t hm)
  · simp only [Yaml.Entry.text, Yaml.Entry.body, exampleText, List.append_assoc]

section Titles

variable {subject : String} {e : Example}

theorem startsPlain_exampleTitle (hs : subject = "" ∨ IsPlain subject.toList) :
    startsPlain (Language.gobstones.exampleTitle subject e).toList = true := by
  have ht : (Language.gobstones.exampleTitle subject e).toList = subject.toList ++ ('(' ::
      ((String.intercalate ", " (e.argumentList.map Value.render)).toList ++
        (") should return " ++ returnText e.returns).toList)) := by
    simp [Language.exampleTitle, Language.call, Language.callForm, CallForm.write, title]
  rw [ht]
  rcases hs with rfl | hs
  · rfl
  · exact startsPlain_append hs.starts _

theorem getLast?_exampleTitle (hr : IsPlain (returnText e.returns).toList) :
    (Language.gobstones.exampleTitle subject e).toList.getLast?.any isBlank = false := by
  have hne := hr.words.ne_nil
  rw [Language.exampleTitle, title, String.toList_append, List.getLast?_append_of_ne_nil _ hne]
  exact hr.stops

end Titles

theorem all_isAllowed {spec : Spec} (hne : spec.exampleList ≠ [])
    (hs : ∀ c ∈ spec.subject.toList, isAllowed c = true)
    (ht : ∀ e ∈ spec.exampleList, IsLine (Language.gobstones.exampleTitle spec.subject e).toList)
    (hr : ∀ e ∈ spec.exampleList, IsPlain (returnText e.returns).toList) :
    ∀ c ∈ (Language.gobstones.generate spec).toList, isAllowed c = true := by
  have hkeys : subjectKey.all isAllowed = true ∧ examplesKey.all isAllowed = true ∧
      titleKey.all isAllowed = true ∧ returnKey.all isAllowed = true := by decide
  have hmarks : isAllowed '\n' = true ∧ isAllowed '-' = true ∧ isAllowed ' ' = true ∧
      isAllowed ':' = true := by decide
  have hexample : ∀ e ∈ spec.exampleList, (exampleText
      (Language.gobstones.exampleTitle spec.subject e).toList (returnText e.returns).toList).all
      isAllowed = true := by
    intro e he
    have htitle := List.all_eq_true.mpr (ht e he).allowed
    have hreturn := List.all_eq_true.mpr (hr e he).allowed
    simp only [exampleText, List.all_cons, List.all_append, hkeys, hmarks, htitle, hreturn, Bool.and_self]
  rw [← List.all_eq_true, Language.gobstones_toList hne]
  simp only [List.all_cons, List.all_append, List.all_flatMap, hkeys, hmarks, List.all_eq_true.mpr hs,
    Bool.true_and, List.all_eq_true]
  exact fun e he => List.all_eq_true.mp (hexample e he)

theorem isLine_subject {subject : String} (h : subject = "" ∨ IsPlain subject.toList) :
    IsLine subject.toList := by
  rcases h with rfl | h
  · decide
  · exact h.toIsLine

theorem subjectFits {subject : String} (h : subject = "" ∨ IsPlain subject.toList) :
    SubjectFits subject.toList := by
  rcases h with rfl | h
  · exact .inl rfl
  · exact .inr ⟨h.words, h.starts⟩

/-- The spec that is read where every text is plain. -/
def Spec.reread (spec : Spec) : Spec where
  subject := spec.subject
  examples := some (spec.exampleList.map fun e =>
    { returns := Plain.literal? (returnText e.returns) })

/-- The document of a spec whose texts are plain lines is read to its subject and to
what its results stand for. -/
theorem parseSpec_gobstones {spec : Spec} (hne : spec.exampleList ≠ [])
    (hs : spec.subject = "" ∨ IsPlain spec.subject.toList)
    (ht : ∀ e ∈ spec.exampleList, IsLine (Language.gobstones.exampleTitle spec.subject e).toList)
    (hr : ∀ e ∈ spec.exampleList, IsPlain (returnText e.returns).toList) :
    Yaml.parseSpec (Language.gobstones.generate spec) = .ok spec.reread := by
  have hentry : ∀ e, ∃ entry : Yaml.Entry, e ∈ spec.exampleList → entry.Fits ∧
      entry.text = exampleText (Language.gobstones.exampleTitle spec.subject e).toList
        (returnText e.returns).toList ∧ entry.returns = (returnText e.returns).toList := by
    intro e
    by_cases he : e ∈ spec.exampleList
    · obtain ⟨entry, h⟩ := exists_entry (ht e he) (startsPlain_exampleTitle hs)
        (getLast?_exampleTitle (hr e he)) (hr e he)
      exact ⟨entry, fun _ => h⟩
    · exact ⟨⟨[], [], []⟩, fun h => absurd h he⟩
  obtain ⟨entry, hentry⟩ := Classical.skolem.mp hentry
  have htext : (Language.gobstones.generate spec).toList =
      documentText spec.subject.toList (spec.exampleList.map entry) := by
    have hexamples : spec.exampleList.map (Yaml.Entry.text ∘ entry) = spec.exampleList.map _ :=
      List.map_congr_left fun e he => (hentry e he).2.1
    rw [Language.gobstones_toList hne, documentText, List.flatMap_map, List.flatMap_def,
      List.flatMap_def]
    simp only [← hexamples, Function.comp_def]
  have hfits : ∀ en ∈ spec.exampleList.map entry, en.Fits := by
    simp only [List.mem_map]
    rintro _ ⟨e, he, rfl⟩
    exact (hentry e he).1
  have hreturns : (spec.exampleList.map entry).map Yaml.Entry.toExample = spec.exampleList.map fun e =>
      { returns := Plain.literal? (returnText e.returns) } := by
    rw [List.map_map]
    exact List.map_congr_left fun e he => by
      simp only [Function.comp_apply, Yaml.Entry.toExample, (hentry e he).2.2, Plain.literal?]
  have hsubject := isLine_subject hs
  rw [parseSpec_document htext (subjectFits hs) (by simpa using hne) hfits
    (all_isAllowed hne hsubject.allowed ht hr), hreturns, String.ofList_toList]
  rfl

/-- A spec that was read has the subject and the results of the one that was written,
each result with its text, and no arguments. -/
structure ReadsBack (spec read : Spec) : Prop where
  valid : read.isValid = true
  subject : read.subject = spec.subject
  noArguments : ∀ e ∈ read.exampleList, e.arguments = none
  texts : read.exampleList.map (fun e => e.returns.map Value.render) =
    spec.exampleList.map fun e => e.returns.map Value.render

theorem isValid_iff {subject : String} {examples : List Example} :
    ({ subject, examples := some examples } : Spec).isValid = true ↔
      ∀ e ∈ examples, e.returns.isSome = true := by
  simp [Spec.isValid, Spec.issue?, Option.isSome_iff_ne_none]

theorem Spec.isSome_of_isValid {spec : Spec} (h : spec.isValid = true) {e : Example}
    (he : e ∈ spec.exampleList) : ∃ v, e.returns = some v := by
  obtain ⟨subject, _ | examples⟩ := spec
  · exact absurd he List.not_mem_nil
  · exact Option.isSome_iff_exists.mp (isValid_iff.mp h e he)

theorem Spec.readsBack_reread_iff {spec : Spec} (h : spec.isValid = true) :
    ReadsBack spec spec.reread ↔
      ∀ e ∈ spec.exampleList, Plain.KeepsSpelling (returnText e.returns) := by
  have hkeeps : ∀ e ∈ spec.exampleList, (Plain.KeepsSpelling (returnText e.returns) ↔
      (Plain.literal? (returnText e.returns)).map Value.render = e.returns.map Value.render) := by
    intro e he
    obtain ⟨v, hv⟩ := isSome_of_isValid h he
    rw [hv]
    rfl
  have htexts : spec.reread.exampleList.map (fun e => e.returns.map Value.render) =
      spec.exampleList.map fun e => (Plain.literal? (returnText e.returns)).map Value.render := by
    simp only [reread, exampleList, Option.getD_some, List.map_map, Function.comp_def]
  constructor
  · intro hb e he
    have hm := hb.texts
    rw [htexts, List.map_inj_left] at hm
    exact (hkeeps e he).mpr (hm e he)
  · intro hk
    have hm := fun e he => (hkeeps e he).mp (hk e he)
    refine ⟨isValid_iff.mpr ?_, rfl, ?_, htexts.trans (List.map_congr_left hm)⟩
    · simp only [List.mem_map]
      rintro _ ⟨e, he, rfl⟩
      obtain ⟨v, hv⟩ := isSome_of_isValid h he
      have hr := congrArg Option.isSome (hm e he)
      rw [Option.isSome_map, Option.isSome_map] at hr
      rw [hr, hv]
      rfl
    · simp [reread, exampleList]

section Texts

/-- The literals of an example, the last one its result. -/
def Example.literals (e : Example) : List Value := e.argumentList ++ e.returns.toList

/-- Where words are copied into a document, YAML can take them for plain text: the name
as a whole, each title as one line, and each result that is a word as a whole. -/
structure HasPlainTexts (spec : Spec) : Prop where
  subject : spec.subject = "" ∨ IsPlain spec.subject.toList
  titles : ∀ e ∈ spec.exampleList, (∃ text, Value.raw text ∈ e.literals) →
    IsLine (Language.gobstones.exampleTitle spec.subject e).toList
  returns : ∀ e ∈ spec.exampleList, ∀ text, e.returns = some (.raw text) → IsPlain text.toList

theorem Value.isNumeric_or_raw (v : Value) : v.isNumeric = true ∨ ∃ text, v = .raw text := by
  cases v with
  | integer n => exact .inl rfl
  | float x => exact .inl rfl
  | raw text => exact .inr ⟨text, rfl⟩

/-- A title of numbers is one line, whatever the numbers are. -/
theorem isLine_exampleTitle {subject : String} {e : Example}
    (hs : subject = "" ∨ IsPlain subject.toList) (hn : ∀ v ∈ e.literals, v.isNumeric = true) :
    IsLine (Language.gobstones.exampleTitle subject e).toList := by
  have hquiet : ∀ v ∈ e.literals, ∀ c ∈ v.render.toList, isQuiet c = true := fun v hv =>
    (Plain.render_numeric (hn v hv)).1
  have hmarks : ∀ t ∈ ["(", ", ", ") should return ", ""], ∀ c ∈ t.toList, isQuiet c = true := by
    have hall : ∀ t ∈ ["(", ", ", ") should return ", ""], t.toList.all isQuiet = true := by
      decide +kernel
    exact fun t ht => List.all_eq_true.mp (hall t ht)
  have hargs : ∀ c ∈ (String.intercalate ", " (e.argumentList.map Value.render)).toList,
      isQuiet c = true := by
    intro c hc
    rcases mem_intercalate hc with hc | ⟨t, ht, hc⟩
    · exact hmarks ", " (by simp) c hc
    · obtain ⟨v, hv, rfl⟩ := List.mem_map.mp ht
      exact hquiet v (List.mem_append_left _ hv) c hc
  have hreturn : ∀ c ∈ (returnText e.returns).toList, isQuiet c = true := by
    cases hr : e.returns with
    | none => exact hmarks "" (by simp)
    | some v => exact hquiet v (by simp [Example.literals, hr])
  have hnocomment : beforeComment subject.toList = subject.toList := by
    rcases hs with rfl | hs
    · rfl
    · exact hs.noComment
  have ht : (Language.gobstones.exampleTitle subject e).toList = subject.toList ++ ("(".toList ++
      ((String.intercalate ", " (e.argumentList.map Value.render)).toList ++
        (") should return ".toList ++ (returnText e.returns).toList))) := by
    simp [Language.exampleTitle, Language.call, Language.callForm, CallForm.write, title]
  rw [ht]
  refine isLine_append (isLine_subject hs) hnocomment fun c hc => ?_
  simp only [List.mem_append] at hc
  rcases hc with hc | hc | hc | hc
  · exact hmarks "(" (by simp) c hc
  · exact hargs c hc
  · exact hmarks ") should return " (by simp) c hc
  · exact hreturn c hc

namespace HasPlainTexts

variable {spec : Spec}

theorem isLine_title (h : HasPlainTexts spec) {e : Example} (he : e ∈ spec.exampleList) :
    IsLine (Language.gobstones.exampleTitle spec.subject e).toList := by
  by_cases hw : ∃ text, Value.raw text ∈ e.literals
  · exact h.titles e he hw
  · refine isLine_exampleTitle h.subject fun v hv => ?_
    rcases v.isNumeric_or_raw with hn | ⟨text, rfl⟩
    · exact hn
    · exact absurd ⟨text, hv⟩ hw

theorem isPlain_return (h : HasPlainTexts spec) (hv : spec.isValid = true) {e : Example}
    (he : e ∈ spec.exampleList) : IsPlain (returnText e.returns).toList := by
  obtain ⟨v, hr⟩ := Spec.isSome_of_isValid hv he
  rw [hr]
  rcases v.isNumeric_or_raw with hn | ⟨text, rfl⟩
  · exact (Plain.render_numeric hn).2.1
  · exact h.returns e he text hr

theorem generate_parse (h : HasPlainTexts spec) (hv : spec.isValid = true)
    (hne : spec.exampleList ≠ []) :
    ∃ text, (generate "gobstones" spec).value = .ok text ∧
      SourceFormat.yaml.parseSpec text = .ok spec.reread := by
  refine ⟨_, generate_token .gobstones spec, ?_⟩
  rw [SourceFormat.parseSpec, parseSpec_gobstones hne h.subject (fun _ he => h.isLine_title he)
    fun _ he => h.isPlain_return hv he]
  rfl

end HasPlainTexts

theorem keepsSpelling_return_iff {v : Value} :
    Plain.KeepsSpelling (returnText (some v)) ↔ ∀ text, v = .raw text → Plain.KeepsSpelling text := by
  rcases v.isNumeric_or_raw with hn | ⟨text, rfl⟩
  · have hk := (Plain.render_numeric hn).2.2
    refine ⟨?_, fun _ => hk⟩
    rintro - text rfl
    cases hn
  · exact ⟨fun hk t ht => by cases ht; exact hk, fun h => h text rfl⟩

end Texts

/-- A document of plain texts is read back as a YAML spec of the same name, with an
example for each one that it was written for. It comes back whole if and only if each
result that is a word is spelled as YAML would spell it; numbers always are. -/
theorem gobstones_readsBack_iff (spec : Spec) (hv : spec.isValid = true)
    (hne : spec.exampleList ≠ []) (hp : HasPlainTexts spec) :
    ∃ text read, (generate "gobstones" spec).value = .ok text ∧
      SourceFormat.yaml.parseSpec text = .ok read ∧ read.subject = spec.subject ∧
      read.exampleList = spec.exampleList.map (fun e =>
        { arguments := none, returns := Plain.literal? (returnText e.returns) }) ∧
      (ReadsBack spec read ↔ ∀ e ∈ spec.exampleList, ∀ text, e.returns = some (.raw text) →
        Plain.KeepsSpelling text) := by
  obtain ⟨text, hg, hparse⟩ := hp.generate_parse hv hne
  refine ⟨text, spec.reread, hg, hparse, rfl, rfl, (Spec.readsBack_reread_iff hv).trans ?_⟩
  have hwords : ∀ e ∈ spec.exampleList, (Plain.KeepsSpelling (returnText e.returns) ↔
      ∀ text, e.returns = some (.raw text) → Plain.KeepsSpelling text) := by
    intro e he
    obtain ⟨v, hr⟩ := Spec.isSome_of_isValid hv he
    rw [hr, keepsSpelling_return_iff]
    simp only [Option.some.injEq]
  exact ⟨fun h e he => (hwords e he).mp (h e he), fun h e he => (hwords e he).mpr (h e he)⟩

theorem gobstones_readsBack_iff_mover :
    let spec : Spec :=
      { subject := "mover"
        examples := some
          [{ arguments := some [.raw "Norte", .integer 2], returns := some (.raw "Negro") },
            { arguments := some [.float 0.1], returns := some (.float (-2.5)) }] }
    spec.isValid = true ∧ spec.exampleList ≠ [] ∧ HasPlainTexts spec ∧
      ∃ text read, (generate "gobstones" spec).value = .ok text ∧
        SourceFormat.yaml.parseSpec text = .ok read ∧ ReadsBack spec read := by
  intro spec
  have hv : spec.isValid = true := by decide
  have hne : spec.exampleList ≠ [] := by simp [spec, Spec.exampleList]
  have hp : HasPlainTexts spec := by
    refine ⟨.inr (by decide +kernel), ?_, ?_⟩
    · intro e he _
      rcases List.mem_pair.mp he with rfl | rfl <;> decide +kernel
    · intro e he text ht
      rcases List.mem_pair.mp he with rfl | rfl <;> cases ht
      decide +kernel
  obtain ⟨text, read, hg, hparse, -, -, hback⟩ := gobstones_readsBack_iff spec hv hne hp
  refine ⟨hv, hne, hp, text, read, hg, hparse, hback.mpr fun e he text ht => ?_⟩
  rcases List.mem_pair.mp he with rfl | rfl <;> cases ht
  decide +kernel

def Drifts (spec : Spec) : Prop :=
  spec.isValid = true ∧ spec.exampleList ≠ [] ∧
    ∃ text, (generate "gobstones" spec).value = .ok text ∧
      ∀ read, SourceFormat.yaml.parseSpec text = .ok read → ¬ ReadsBack spec read

/-- A word that YAML takes for a truth value comes back in small letters, a name is cut
off at a comment, and an argument can make a key of its title, which is a fault. -/
theorem gobstones_drifts :
    Drifts { subject := "f", examples := some [{ returns := some (.raw "True") }] } ∧
      Drifts { subject := "f #g", examples := some [{ returns := some (.integer 1) }] } ∧
      Drifts
        { subject := "f"
          examples := some [{ arguments := some [.raw "a: b"], returns := some (.integer 1) }] } := by
  refine ⟨⟨by decide, by simp [Spec.exampleList], _, generate_token .gobstones _, ?_⟩,
    ⟨by decide, by simp [Spec.exampleList], _, generate_token .gobstones _, ?_⟩,
    ⟨by decide, by simp [Spec.exampleList], _, generate_token .gobstones _, ?_⟩⟩
  · intro read hread hback
    have ht : (SourceFormat.yaml.parseSpec (Language.gobstones.generate
        { subject := "f", examples := some [{ returns := some (.raw "True") }] })).toOption.map
          (fun read => read.exampleList.map fun e => e.returns.map Value.render) =
        some [some "true"] := by decide +kernel
    rw [hread] at ht
    have htexts := (Option.some.inj ht).symm.trans hback.texts
    exact absurd htexts (by decide +kernel)
  · intro read hread hback
    have ht : (SourceFormat.yaml.parseSpec (Language.gobstones.generate
        { subject := "f #g", examples := some [{ returns := some (.integer 1) }] })).toOption.map
          Spec.subject = some "f" := by decide +kernel
    rw [hread] at ht
    have hsubject := (Option.some.inj ht).symm.trans hback.subject
    exact absurd hsubject (by decide)
  · intro read hread
    have ht : (SourceFormat.yaml.parseSpec (Language.gobstones.generate
        { subject := "f"
          examples := some [{ arguments := some [.raw "a: b"], returns := some (.integer 1) }] }
        )).toOption.isNone = true := by decide +kernel
    rw [hread] at ht
    cases ht

end ExampleTests
