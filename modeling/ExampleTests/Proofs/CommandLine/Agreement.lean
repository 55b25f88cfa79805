import ExampleTests.Proofs.CommandLine.Generation
import ExampleTests.Proofs.Generate

/-! Checking a file and generating from it. The two commands load and judge a
spec alike, so they succeed together, and the number that a check prints is the
number of blocks in the document of every language. -/

namespace ExampleTests

namespace CommandLine

variable {σ : Type}

section Stages

variable (files : FileStore σ) (path : PathName) (s : σ)

theorem checkFile_not_loaded {e : LoadError} (h : (files.loaded path s).value = .error e) :
    Stopped s 1 ("Error loading " ++ path.text ++ ": " ++ e.message)
      (checkFile files.access path s) := by
  simp only [checkFile, withSpec_eq, h]
  exact ⟨rfl, rfl, rfl, rfl⟩

theorem checkFile_invalid {spec : Spec} {issue : Issue}
    (h : (files.loaded path s).value = .ok spec) (hi : spec.issue? = some issue) :
    Stopped s 1 (path.text ++ ": " ++ issue.message) (checkFile files.access path s) := by
  simp only [checkFile, withSpec_eq, h, hi]
  exact ⟨rfl, rfl, rfl, rfl⟩

theorem checkFile_valid {spec : Spec} (h : (files.loaded path s).value = .ok spec)
    (hi : spec.issue? = none) :
    (checkFile files.access path s).1 =
      .success (path.text ++ ": ok (" ++ spec.exampleList.length.repr ++ " examples)\n")
        (files.loaded path s).events := by
  simp only [checkFile, withSpec_eq, h, hi]
  rfl

theorem generateFile_printed (language : Language) {spec : Spec}
    (h : (files.loaded path s).value = .ok spec) (hi : spec.issue? = none) :
    (generateFile files.access language.token path none s).1 =
      .success (language.generate spec ++ "\n") (files.loaded path s).events := by
  rw [generateFile_valid files path none s language.ofToken_token h hi]
  rfl

theorem checkFile_succeeds_iff :
    (checkFile files.access path s).1.exitCode = 0 ↔
      ∃ spec, (files.loaded path s).value = .ok spec ∧ spec.issue? = none := by
  cases h : (files.loaded path s).value with
  | error e => simp [(checkFile_not_loaded files path s h).exitCode]
  | ok spec =>
    cases hi : spec.issue? with
    | some issue => simp [(checkFile_invalid files path s h hi).exitCode, hi]
    | none => simp [checkFile_valid files path s h hi, Outcome.success, hi]

theorem generateFile_succeeds_iff (language : Language) :
    (generateFile files.access language.token path none s).1.exitCode = 0 ↔
      ∃ spec, (files.loaded path s).value = .ok spec ∧ spec.issue? = none := by
  have hl := language.ofToken_token
  cases h : (files.loaded path s).value with
  | error e => simp [(generateFile_not_loaded files path none s hl h).exitCode]
  | ok spec =>
    cases hi : spec.issue? with
    | some issue => simp [(generateFile_invalid files path none s hl h hi).exitCode, hi]
    | none => simp [generateFile_printed files path s language h hi, Outcome.success, hi]

end Stages

/-- A file that can be checked can be generated from, in each language, and
the other way round. Where it cannot be loaded the complaints are the same;
where its spec is invalid they differ by two words. Where the check counts `k`
examples, each document has its opening, `k` blocks and its closing, and
nothing but a line break is printed if and only if `k` is zero. -/
theorem check_agrees_with_generate (files : FileStore σ) (path : PathName) (s : σ) :
    let checked := (Command.run files.access (.check path) s).1
    let generated (language : Language) :=
      (Command.run files.access (.generate language.token path none) s).1
    (∀ language, checked.exitCode = 0 ↔ (generated language).exitCode = 0) ∧
    (∀ e, (files.loaded path s).value = .error e → ∀ language,
      checked.exitCode = 1 ∧ (generated language).exitCode = 1 ∧
        (generated language).complaint = checked.complaint) ∧
    (∀ spec issue, (files.loaded path s).value = .ok spec → spec.issue? = some issue →
      ∀ language, checked.exitCode = 1 ∧ (generated language).exitCode = 1 ∧
        (generated language).complaint = "Invalid spec " ++ checked.complaint) ∧
    (checked.exitCode = 0 → ∃ k spec,
      checked.printed = path.text ++ ": ok (" ++ k.repr ++ " examples)\n" ∧
      (files.loaded path s).value = .ok spec ∧ spec.exampleList.length = k ∧
      ∀ language, ((generated language).printed = "\n" ↔ k = 0) ∧
        (0 < k → (generated language).printed =
          String.intercalate "\n" (language.opening spec.subject ++
            (spec.exampleList.map (language.exampleBlock spec.subject)).flatten ++
            language.closing) ++ "\n")) := by
  intro checked generated
  refine ⟨fun language => ?_, fun e h language => ?_, fun spec issue h hi language => ?_, ?_⟩
  · exact (checkFile_succeeds_iff files path s).trans
      (generateFile_succeeds_iff files path s language).symm
  · have hc : Stopped s 1 _ (checkFile files.access path s) := checkFile_not_loaded files path s h
    have hg : Stopped s 1 _ (generateFile files.access language.token path none s) :=
      generateFile_not_loaded files path none s language.ofToken_token h
    exact ⟨hc.exitCode, hg.exitCode, hg.complaint.trans hc.complaint.symm⟩
  · have hc : Stopped s 1 _ (checkFile files.access path s) := checkFile_invalid files path s h hi
    have hg : Stopped s 1 _ (generateFile files.access language.token path none s) :=
      generateFile_invalid files path none s language.ofToken_token h hi
    have hw : "Invalid spec " ++ checked.complaint =
        "Invalid spec " ++ path.text ++ ": " ++ issue.message ++ "\n" := by
      have hm : checked.complaint = path.text ++ ": " ++ issue.message ++ "\n" := hc.complaint
      simp only [hm, String.append_assoc]
    exact ⟨hc.exitCode, hg.exitCode, hg.complaint.trans hw.symm⟩
  · intro h0
    obtain ⟨spec, h, hi⟩ := (checkFile_succeeds_iff files path s).mp h0
    have hc : checked = _ := checkFile_valid files path s h hi
    have hp (language : Language) : (generated language).printed = language.generate spec ++ "\n" :=
      congrArg Outcome.printed (generateFile_printed files path s language h hi)
    refine ⟨_, spec, congrArg Outcome.printed hc, h, rfl, fun language => ⟨?_, fun hk => ?_⟩⟩
    · have he : language.generate spec ++ "\n" = "\n" ↔ language.generate spec = "" := by
        simpa only [String.empty_append] using
          (String.append_left_inj "\n" : language.generate spec ++ "\n" = "" ++ "\n" ↔ _)
      rw [hp, he, language.generate_eq_empty_iff, List.length_eq_zero_iff]
    · have hne : spec.exampleList ≠ [] := List.ne_nil_of_length_pos hk
      rw [hp, language.generate_eq_intercalate hne, Language.outline, List.flatMap_def]

/-- Three files: one with two examples, one without a return, one that is no text. -/
theorem check_agrees_with_generate_files :
    let tree := ((FileTree.empty.putFile (.ofString "two.json") (Text.encode
        "\x7b\"subject\":\"f\",\"examples\":[\x7b\"return\":1\x7d,\x7b\"return\":2\x7d]\x7d")).putFile
      (.ofString "none.json") (Text.encode "\x7b\"examples\":[\x7b\x7d]\x7d")).putFile
      (.ofString "bytes.json") [0xFF]
    let loaded (name : String) := (FileTree.store.loaded (.ofString name) tree).value.toOption
    let checked (name : String) := (Command.run FileTree.access (.check (.ofString name)) tree).1
    let generated (name : String) := (Command.run FileTree.access
      (.generate "haskell" (.ofString name) none) tree).1
    ((checked "two.json").exitCode = 0 ∧ (loaded "two.json").map (·.exampleList.length) = some 2 ∧
      (generated "two.json").printed ≠ "\n") ∧
    ((loaded "none.json").map Spec.issue? = some (some (.missingReturn 0)) ∧
      (generated "none.json").complaint = "Invalid spec " ++ (checked "none.json").complaint) ∧
    (loaded "bytes.json").isNone ∧
      (generated "bytes.json").complaint = (checked "bytes.json").complaint := by
  intro tree loaded checked generated
  obtain ⟨-, -, -, ha⟩ := check_agrees_with_generate FileTree.store (.ofString "two.json") tree
  obtain ⟨-, -, hn, -⟩ := check_agrees_with_generate FileTree.store (.ofString "none.json") tree
  obtain ⟨-, hb, -, -⟩ := check_agrees_with_generate FileTree.store (.ofString "bytes.json") tree
  have h0 : (checked "two.json").exitCode = 0 := by decide +kernel
  have h2 : (loaded "two.json").map (·.exampleList.length) = some 2 := by decide +kernel
  have hi : (loaded "none.json").map Spec.issue? = some (some (.missingReturn 0)) := by
    decide +kernel
  have hx : (loaded "bytes.json").isNone := by decide +kernel
  refine ⟨⟨h0, h2, ?_⟩, ⟨hi, ?_⟩, hx, ?_⟩
  · obtain ⟨k, spec, -, hs, hk, hall⟩ := ha h0
    have hl : spec.exampleList.length = 2 := by
      simpa [loaded, hs, Except.toOption] using h2
    exact fun hp => absurd ((hall .haskell).1.mp hp) (by omega)
  · cases hv : (FileTree.store.loaded (.ofString "none.json") tree).value with
    | error e => simp [loaded, hv, Except.toOption] at hi
    | ok spec =>
      have hs : spec.issue? = some (.missingReturn 0) := by
        simpa [loaded, hv, Except.toOption] using hi
      exact (hn spec _ hv hs .haskell).2.2
  · cases hv : (FileTree.store.loaded (.ofString "bytes.json") tree).value with
    | error e => exact (hb e hv .haskell).2.2
    | ok spec => simp [loaded, hv, Except.toOption] at hx

end CommandLine

end ExampleTests
