import ExampleTests.CommandLine.Run
import ExampleTests.Proofs.Document.Outline
import ExampleTests.Proofs.FileStore

/-! Generation from the command line. Each stage that can fail comes before
everything that prints or writes, so a run that fails prints nothing and leaves
the files as they were, and a document is written as it would be printed. -/

namespace ExampleTests

variable {σ : Type}

def FileStore.loaded (files : FileStore σ) (path : PathName) (s : σ) :
    Logged (Except LoadError Spec) :=
  (loadSpec files.access path s).1

/-- The spec that a file holds: its name has a format, and its text is a spec in it. -/
def FileView.spec? (v : FileView σ) (s : σ) (path : PathName) : Option Spec :=
  (SourceFormat.ofPath path).toOption.bind fun format =>
    (v.text? s path).bind fun text => (format.parseSpec text).toOption

theorem FileStore.loadSpec_eq (files : FileStore σ) (path : PathName) (s : σ) :
    loadSpec files.access path s = (files.loaded path s, s) := by
  refine Prod.ext rfl ?_
  cases hf : SourceFormat.ofPath path with
  | error e => simp only [loadSpec, hf]; rfl
  | ok format =>
    have hk := files.read_keeps s path
    rcases hr : files.access.read path s with ⟨content, s'⟩
    rw [hr] at hk
    cases hk
    simp only [loadSpec, hf, bind, StateT.bind, hr]
    cases (content.mapError LoadError.io).bind format.parseSpec <;> rfl

theorem FileStore.loaded_value (files : FileStore σ) (path : PathName) (s : σ) :
    (files.loaded path s).value = (SourceFormat.ofPath path).bind fun format =>
      ((files.access.read path s).1.mapError .io).bind format.parseSpec := by
  cases hf : SourceFormat.ofPath path with
  | error e => simp only [loaded, loadSpec, hf]; rfl
  | ok format =>
    change _ = ((files.access.read path s).1.mapError LoadError.io).bind format.parseSpec
    rcases hr : files.access.read path s with ⟨content, s'⟩
    simp only [loaded, loadSpec, hf, bind, StateT.bind, hr]
    cases (content.mapError LoadError.io).bind format.parseSpec <;> rfl

/-- What is loaded is the spec of the file. Where the file holds one, only a refusal by the
machine keeps it back. -/
theorem FileStore.loaded_fetches (files : FileStore σ) (path : PathName) (s : σ) :
    Fetches (.io ∘ .other) (files.spec? s path) (files.loaded path s).value := by
  rw [files.loaded_value, FileView.spec?]
  cases SourceFormat.ofPath path with
  | error e => exact .of_toOption rfl
  | ok format => exact (files.read_fetches s path).bind .io format.parseSpec

namespace CommandLine

/-- An end without a trace: a complaint, nothing printed, the files as they were. -/
structure Stopped (s : σ) (code : Nat) (complaint : String) (run : Outcome × σ) : Prop where
  exitCode : run.1.exitCode = code
  complaint : run.1.complaint = complaint ++ "\n"
  printed : run.1.printed = ""
  files : run.2 = s

/-- A text printed with a line break, or put into a file that then reads as this text. -/
structure Delivered (files : FileStore σ) (output : Option PathName) (text : String) (s : σ)
    (run : Outcome × σ) : Prop where
  exitCode : run.1.exitCode = 0
  complaint : run.1.complaint = ""
  printed : run.1.printed = output.elim (text ++ "\n") fun _ => ""
  files : output.elim (run.2 = s) fun target =>
    files.Replaced target text s run.2 ∧ files.text? run.2 target = some text

theorem withSpec_eq (files : FileStore σ) (path : PathName) (s : σ)
    (next : Spec → List Event → StateM σ Outcome) :
    withSpec files.access path next s =
      match (files.loaded path s).value with
      | .error e => (.failure ("Error loading " ++ path.text ++ ": " ++ e.message)
          (files.loaded path s).events, s)
      | .ok spec => next spec (files.loaded path s).events s := by
  simp only [withSpec, bind, StateT.bind, files.loadSpec_eq]
  cases (files.loaded path s).value <;> rfl

theorem deliver_write_failed (files : FileStore σ) (language : Language) {target : PathName}
    {text : String} {events : List Event} {s : σ} {e : IoError}
    (h : (files.access.write target text s).1 = .error e) :
    Stopped s 1 ("Error writing " ++ target.text ++ ": " ++ e.message)
      (deliver files.access language (some target) text events s) := by
  have hk := files.failed_write_keeps s target text e h
  rcases hw : files.access.write target text s with ⟨result, s'⟩
  rw [hw] at h hk
  cases h
  cases hk
  simp only [deliver, bind, StateT.bind, hw]
  exact ⟨rfl, rfl, rfl, rfl⟩

theorem deliver_delivered (files : FileStore σ) (language : Language) {output : Option PathName}
    {text : String} {events : List Event} {s : σ}
    (h : ∀ target, output = some target → (files.access.write target text s).1 = .ok ()) :
    Delivered files output text s (deliver files.access language output text events s) := by
  cases output with
  | none => exact ⟨rfl, rfl, rfl, rfl⟩
  | some target =>
    replace h := h target rfl
    have hr := files.write_replaces s target text h
    rcases hw : files.access.write target text s with ⟨result, s'⟩
    rw [hw] at h hr
    cases h
    simp only [deliver, bind, StateT.bind, hw]
    exact ⟨rfl, rfl, rfl, hr, hr.text?_eq⟩

section Stages

variable (files : FileStore σ) (path : PathName) (output : Option PathName) (s : σ)

theorem generateFile_unknown {token : String} {e : UnknownLanguage}
    (h : Language.ofToken token = .error e) :
    Stopped s 2 ("Error: " ++ e.message) (generateFile files.access token path output s) := by
  simp only [generateFile, h]
  exact ⟨rfl, rfl, rfl, rfl⟩

theorem generateFile_not_loaded {token : String} {language : Language} {e : LoadError}
    (hl : Language.ofToken token = .ok language) (h : (files.loaded path s).value = .error e) :
    Stopped s 1 ("Error loading " ++ path.text ++ ": " ++ e.message)
      (generateFile files.access token path output s) := by
  simp only [generateFile, hl, withSpec_eq, h]
  exact ⟨rfl, rfl, rfl, rfl⟩

theorem generateFile_invalid {token : String} {language : Language} {spec : Spec} {issue : Issue}
    (hl : Language.ofToken token = .ok language) (h : (files.loaded path s).value = .ok spec)
    (hi : spec.issue? = some issue) :
    Stopped s 1 ("Invalid spec " ++ path.text ++ ": " ++ issue.message)
      (generateFile files.access token path output s) := by
  simp only [generateFile, hl, withSpec_eq, h, hi]
  exact ⟨rfl, rfl, rfl, rfl⟩

theorem generateFile_valid {token : String} {language : Language} {spec : Spec}
    (hl : Language.ofToken token = .ok language) (h : (files.loaded path s).value = .ok spec)
    (hi : spec.issue? = none) :
    generateFile files.access token path output s =
      deliver files.access language output (language.generate spec)
        (files.loaded path s).events s := by
  simp only [generateFile, hl, withSpec_eq, h, hi]

theorem generateFile_end (token : String) :
    (∃ code complaint, code ≠ 0 ∧
      Stopped s code complaint (generateFile files.access token path output s)) ∨
    ∃ spec text, (files.loaded path s).value = .ok spec ∧ spec.isValid ∧
      (generate token spec).value = .ok text ∧
      Delivered files output text s (generateFile files.access token path output s) := by
  cases hl : Language.ofToken token with
  | error e => exact .inl ⟨2, _, by decide, generateFile_unknown files path output s hl⟩
  | ok language =>
    cases h : (files.loaded path s).value with
    | error e => exact .inl ⟨1, _, by decide, generateFile_not_loaded files path output s hl h⟩
    | ok spec =>
      cases hi : spec.issue? with
      | some issue => exact .inl ⟨1, _, by decide, generateFile_invalid files path output s hl h hi⟩
      | none =>
        rw [generateFile_valid files path output s hl h hi]
        have hg : (generate token spec).value = .ok (language.generate spec) := by
          rw [Language.ofToken_eq_ok_iff.mp hl, generate_token]
        have hv : spec.isValid := by simp [Spec.isValid, hi]
        cases output with
        | none => exact .inr ⟨spec, _, rfl, hv, hg, deliver_delivered files language nofun⟩
        | some target =>
          cases hw : (files.access.write target (language.generate spec) s).1 with
          | error e => exact .inl ⟨1, _, by decide, deliver_write_failed files language hw⟩
          | ok _ =>
            have hd : ∀ t, some target = some t →
                (files.access.write t (language.generate spec) s).1 = .ok () := by
              rintro _ ⟨⟩
              exact hw
            exact .inr ⟨spec, _, rfl, hv, hg, deliver_delivered files language hd⟩

end Stages

/-- The stages of a request to generate, in their order: the language, the
source, the validity of the spec, the file to write. A run that fails in one of
them leaves no trace; one that succeeds has passed them all and delivers what
the token generates from the spec in the file. -/
theorem generate_stages (files : FileStore σ) (token : String) (path : PathName)
    (output : Option PathName) (s : σ) :
    let run := Command.run files.access (.generate token path output) s
    Fetches (.io ∘ .other) (files.spec? s path) (files.loaded path s).value ∧
    (∀ e, Language.ofToken token = .error e → Stopped s 2 ("Error: " ++ e.message) run) ∧
    (∀ language, Language.ofToken token = .ok language →
      (∀ e, (files.loaded path s).value = .error e →
        Stopped s 1 ("Error loading " ++ path.text ++ ": " ++ e.message) run) ∧
      ∀ spec, (files.loaded path s).value = .ok spec →
        (∀ issue, spec.issue? = some issue →
          Stopped s 1 ("Invalid spec " ++ path.text ++ ": " ++ issue.message) run) ∧
        (spec.isValid → ∃ text, (generate token spec).value = .ok text ∧
          (∀ target e, output = some target →
            (files.access.write target text s).1 = .error e →
            Stopped s 1 ("Error writing " ++ target.text ++ ": " ++ e.message) run) ∧
          ((∀ target, output = some target → (files.access.write target text s).1 = .ok ()) →
            Delivered files output text s run))) ∧
    (run.1.exitCode ≠ 0 → run.1.printed = "" ∧ run.2 = s) ∧
    (run.1.exitCode = 0 → ∃ spec text, (files.loaded path s).value = .ok spec ∧
      files.spec? s path = some spec ∧ spec.isValid ∧
      (generate token spec).value = .ok text ∧ Delivered files output text s run) := by
  intro run
  refine ⟨files.loaded_fetches path s, fun e he => generateFile_unknown files path output s he, fun language hl =>
    ⟨fun e he => generateFile_not_loaded files path output s hl he, fun spec h =>
      ⟨fun issue hi => generateFile_invalid files path output s hl h hi, fun hv => ?_⟩⟩, ?_, ?_⟩
  · have hi : spec.issue? = none := by simpa [Spec.isValid] using hv
    have hr : run = _ := generateFile_valid files path output s hl h hi
    obtain rfl := Language.ofToken_eq_ok_iff.mp hl
    refine ⟨_, generate_token language spec, ?_, fun hw => ?_⟩
    · rintro target e rfl hw
      rw [hr]
      exact deliver_write_failed files language hw
    · rw [hr]
      exact deliver_delivered files language hw
  · intro hc
    rcases generateFile_end files path output s token with ⟨code, _, _, hs⟩ | ⟨_, _, _, _, _, hd⟩
    · exact ⟨hs.printed, hs.files⟩
    · exact absurd hd.exitCode hc
  · intro hc
    rcases generateFile_end files path output s token with ⟨code, _, hne, hs⟩ | hd
    · exact absurd (hs.exitCode.symm.trans hc) hne
    · obtain ⟨spec, text, h, hrest⟩ := hd
      exact ⟨spec, text, h, (files.loaded_fetches path s).ok spec h, hrest⟩

/-- No examples, and the document goes where the spec came from; one example, and it goes
into a new file. -/
theorem generate_stages_over_source :
    let path := PathName.ofString "a.json"
    let source := Text.encode "\x7b\"subject\":\"f\",\"examples\":[]\x7d"
    let tree := FileTree.empty.putFile path source
    let run := Command.run FileTree.access (.generate "haskell" path (some path)) tree
    let full := PathName.ofString "b.json"
    let fullSource := Text.encode "\x7b\"subject\":\"f\",\"examples\":[\x7b\"return\":1\x7d]\x7d"
    let target := PathName.ofString "b.txt"
    let both := tree.putFile full fullSource
    let fullRun := Command.run FileTree.access (.generate "gobstones" full (some target)) both
    (run.1.exitCode = 0 ∧ run.1.printed = "" ∧ tree.content? path = some source ∧
      run.2.content? path = some [] ∧
      ∃ spec text, (FileTree.store.loaded path tree).value = .ok spec ∧
        FileTree.store.spec? tree path = some spec ∧ spec.isValid ∧
        (generate "haskell" spec).value = .ok text ∧
        Delivered FileTree.store (some path) text tree run) ∧
    fullRun.1.exitCode = 0 ∧ fullRun.1.printed = "" ∧ both.content? target = none ∧
      fullRun.2.content? target =
        some (Text.encode "subject: f\nexamples:\n- title: f() should return 1\n  return: 1") ∧
      fullRun.2.content? full = some fullSource ∧ fullRun.2.content? path = some source ∧
      ∃ spec text, (FileTree.store.loaded full both).value = .ok spec ∧
        FileTree.store.spec? both full = some spec ∧ spec.isValid ∧
        (generate "gobstones" spec).value = .ok text ∧
        Delivered FileTree.store (some target) text both fullRun := by
  intro path source tree run full fullSource target both fullRun
  have hc : run.1.exitCode = 0 := by decide +kernel
  have hf : fullRun.1.exitCode = 0 := by decide +kernel
  obtain ⟨-, -, -, -, hs⟩ := generate_stages FileTree.store "haskell" path (some path) tree
  obtain ⟨-, -, -, -, hsFull⟩ := generate_stages FileTree.store "gobstones" full (some target) both
  exact ⟨⟨hc, by decide +kernel, by decide +kernel, by decide +kernel, hs hc⟩,
    hf, by decide +kernel, by decide +kernel, by decide +kernel, by decide +kernel,
    by decide +kernel, hsFull hf⟩

end CommandLine

end ExampleTests
