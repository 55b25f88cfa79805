import ExampleTests.Proofs.Document.Outline

/-! How a call for a token and a spec ends, and what it reports on the way. There
are three ends: nothing to generate, an unknown language, and a document that is
never empty. -/

namespace ExampleTests

/-- The tokens that an error lists, read off its text: the words between commas. -/
def UnknownLanguage.listed (e : UnknownLanguage) : List String :=
  (e.known.toList.splitOn ',').map fun word => String.ofList (word.dropWhile (· = ' '))

theorem UnknownLanguage.mem_listed_iff {token other : String} :
    other ∈ (ofToken token).listed ↔ ∃ language : Language, language.token = other := by
  -- The list is the same for every token that is refused.
  have hl : (ofToken "").listed =
      [Language.haskell.token, Language.javaScript.token, Language.gobstones.token] := by
    decide +kernel
  have hsame : (ofToken token).listed = (ofToken "").listed := rfl
  rw [hsame, hl]
  constructor
  · intro h
    simp only [List.mem_cons, List.not_mem_nil, or_false] at h
    rcases h with rfl | rfl | rfl
    · exact ⟨.haskell, rfl⟩
    · exact ⟨.javaScript, rfl⟩
    · exact ⟨.gobstones, rfl⟩
  · rintro ⟨language, rfl⟩
    cases language <;> simp

namespace Language

theorem intercalate_opening_ne_empty (language : Language) (subject : String)
    (rest : List String) :
    String.intercalate "\n" (language.opening subject ++ rest) ≠ "" := by
  intro h
  have hl := congrArg String.toList h
  cases language <;> cases rest <;> simp [opening, String.toList_intercalate] at hl

theorem generate_eq_empty_iff (language : Language) (spec : Spec) :
    language.generate spec = "" ↔ spec.exampleList = [] := by
  by_cases hs : spec.exampleList = []
  · simp [generate, Spec.hasExamples, hs]
  · have hne := language.intercalate_opening_ne_empty spec.subject
      (spec.exampleList.flatMap (language.exampleBlock spec.subject) ++ language.closing)
    rw [language.generate_eq_intercalate hs, outline, List.append_assoc]
    exact iff_of_false hne hs

theorem ofToken_eq_error_iff {token : String} {e : UnknownLanguage} :
    ofToken token = .error e ↔ e = .ofToken token ∧ token ∉ (UnknownLanguage.ofToken token).listed := by
  rw [UnknownLanguage.mem_listed_iff]
  cases hf : ofToken? token with
  | some language =>
    have hok : ofToken token = .ok language := by simp only [ofToken, hf]
    have hex : ∃ l : Language, l.token = token := ⟨language, (ofToken_eq_ok_iff.mp hok).symm⟩
    rw [hok]
    exact iff_of_false (by simp) fun h => h.2 hex
  | none =>
    have herr : ofToken token = .error (.ofToken token) := by simp only [ofToken, hf]
    have hnot : ¬ ∃ l : Language, l.token = token := by
      rintro ⟨l, rfl⟩
      rw [ofToken_token] at herr
      cases herr
    rw [herr, Except.error.injEq, eq_comm]
    exact (and_iff_left hnot).symm

end Language

section Ends

variable {token : String} {spec : Spec}

theorem generate_nothing (h : spec.exampleList = []) :
    generate token spec =
      ⟨.ok "", [.nothingToGenerate (.generating token spec.subject spec.exampleList.length)]⟩ := by
  have hs : spec.hasExamples = false := by simp [Spec.hasExamples, h]
  simp [generate, hs]

theorem generate_unknown (h : spec.exampleList ≠ []) {e : UnknownLanguage}
    (he : Language.ofToken token = .error e) : generate token spec = ⟨.error e, []⟩ := by
  have hs : spec.hasExamples = true := by simpa [Spec.hasExamples] using h
  simp [generate, hs, he]

theorem generate_known (h : spec.exampleList ≠ []) {language : Language}
    (hl : Language.ofToken token = .ok language) :
    generate token spec =
      ⟨.ok (language.generate spec), (spec.issue?.map (Event.invalidSpec
        (.generating token spec.subject spec.exampleList.length) language)).toList⟩ := by
  have hs : spec.hasExamples = true := by simpa [Spec.hasExamples] using h
  simp [generate, hs, hl]

end Ends

/-- A single report of a level, whose line of text ends with what is named. -/
def Reports (events : List Event) (level : Level) (named : String) : Prop :=
  ∃ event, events = [event] ∧ event.level = level ∧ named.toList <:+ event.message.toList

end ExampleTests
