import ExampleTests.Validity

/-! Which issue a spec has. With a list of examples it is that of the first one without
a return, so the list keeps its issue when it grows at its end. -/

namespace ExampleTests

/-- The place of an example without a return, behind examples that all have one. -/
structure FirstMissing (examples : List Example) (i : Nat) : Prop where
  lt : i < examples.length
  missing : examples[i].returns = none
  earlier : ∀ j (hj : j < i), examples[j].returns ≠ none

/-- The issue of the same examples with `count` others in front of them. -/
def Issue.behind (count : Nat) : Issue → Issue
  | missingExamples => missingExamples
  | missingReturn index => missingReturn (count + index)

namespace Spec

def withExamples (s : Spec) (examples : List Example) : Spec :=
  { s with examples := some examples }

/-- For each example whether it has no return. -/
def missingReturns (s : Spec) : Option (List Bool) :=
  s.examples.map (·.map (·.returns.isNone))

theorem findIdx?_eq_some_iff_firstMissing {examples : List Example} {i : Nat} :
    examples.findIdx? (·.returns.isNone) = some i ↔ FirstMissing examples i := by
  rw [List.findIdx?_eq_some_iff_getElem]
  constructor
  · rintro ⟨hlt, hmissing, hearlier⟩
    refine ⟨hlt, Option.isNone_iff_eq_none.mp hmissing, fun j hj hnone => ?_⟩
    exact hearlier j hj (Option.isNone_iff_eq_none.mpr hnone)
  · rintro ⟨hlt, hmissing, hearlier⟩
    refine ⟨hlt, Option.isNone_iff_eq_none.mpr hmissing, fun j hj hnone => ?_⟩
    exact hearlier j hj (Option.isNone_iff_eq_none.mp hnone)

theorem issue?_withExamples (s : Spec) (examples : List Example) :
    (s.withExamples examples).issue? =
      (examples.findIdx? (·.returns.isNone)).map .missingReturn := rfl

theorem issue?_eq_missingExamples_iff {s : Spec} :
    s.issue? = some .missingExamples ↔ s.examples = none := by
  rw [issue?]
  cases s.examples <;> simp

theorem issue?_eq_missingReturn_iff {s : Spec} {i : Nat} :
    s.issue? = some (.missingReturn i) ↔
      ∃ examples, s.examples = some examples ∧ FirstMissing examples i := by
  rw [issue?]
  cases s.examples with
  | none => simp
  | some examples => simp [findIdx?_eq_some_iff_firstMissing]

theorem issue?_append (s : Spec) (xs ys : List Example) :
    (s.withExamples (xs ++ ys)).issue? =
      (s.withExamples xs).issue?.or ((s.withExamples ys).issue?.map (.behind xs.length)) := by
  simp only [issue?_withExamples, List.findIdx?_append, Option.map_or, Option.map_map]
  congr 2
  funext i
  exact congrArg Issue.missingReturn (Nat.add_comm i xs.length)

theorem issue?_eq_of_missingReturns {s t : Spec} (h : s.missingReturns = t.missingReturns) :
    s.issue? = t.issue? := by
  have hissue : ∀ spec : Spec, spec.issue? = spec.missingReturns.elim (some .missingExamples)
      fun missing => (missing.findIdx? id).map .missingReturn := by
    intro spec
    rw [issue?, missingReturns]
    cases spec.examples with
    | none => rfl
    | some examples => simp [List.findIdx?_map]
  rw [hissue s, hissue t, h]

/-- The issue of a spec is that it has no list of examples, or else its first example
without a return. Behind a list with an issue nothing changes it, and behind one without
any the issue of the rest counts, moved by the length of the list. The name, the arguments
and what the returns are do not matter. -/
theorem firstIssue_append (s : Spec) (xs ys : List Example) :
    (s.issue? = some .missingExamples ↔ s.examples = none) ∧
    (∀ i, s.issue? = some (.missingReturn i) ↔
      ∃ examples, s.examples = some examples ∧ FirstMissing examples i) ∧
    (s.withExamples (xs ++ ys)).issue? =
      (s.withExamples xs).issue?.or ((s.withExamples ys).issue?.map (.behind xs.length)) ∧
    (∀ issue, (s.withExamples xs).issue? = some issue →
      (s.withExamples (xs ++ ys)).issue? = some issue) ∧
    ∀ t : Spec, s.missingReturns = t.missingReturns → s.issue? = t.issue? := by
  have happend := issue?_append s xs ys
  refine ⟨issue?_eq_missingExamples_iff, fun i => issue?_eq_missingReturn_iff, happend,
    fun issue h => ?_, fun t => issue?_eq_of_missingReturns⟩
  rw [happend, h, Option.some_or]

/-- The second of two examples has no return, nor has a third one; and the same with another
name, other arguments and another return. -/
theorem firstIssue_append_second :
    let s : Spec := { subject := "f", examples := some [{ returns := some (.integer 1) }, {}] }
    let xs : List Example := [{ returns := some (.integer 1) }, {}]
    let third : Example := {}
    let t : Spec :=
      { subject := "g"
        examples := some [{ arguments := some [.integer 2], returns := some (.raw "a") },
          { arguments := some [] }] }
    (s.withExamples xs).issue? = some (.missingReturn 1) ∧
      (s.withExamples (xs ++ [third])).issue? = some (.missingReturn 1) ∧
      s.missingReturns = t.missingReturns ∧ t.issue? = some (.missingReturn 1) := by
  intro s xs third t
  have hxs : (s.withExamples xs).issue? = some (.missingReturn 1) := rfl
  have hst : s.missingReturns = t.missingReturns := rfl
  obtain ⟨-, -, -, hkept, hsame⟩ := firstIssue_append s xs [third]
  exact ⟨hxs, hkept _ hxs, hst, (hsame t hst).symm.trans hxs⟩

end Spec

end ExampleTests
