import ExampleTests.Proofs.Json.Fields

/-! Specs in whichever order their members stand. An object is a spec by what stands
under its keys alone, so members may change places and those of other keys may be
any. -/

namespace ExampleTests.Json

namespace Tree

variable {α : Type}

/-- The members under some keys are the same in some order, up to a relation of their
values. Nothing is said of the other members. -/
def Corresponds (keys : List String) (same : Tree → Tree → Prop)
    (members members' : List (String × Tree)) : Prop :=
  ∃ ordered, (members.filter (·.1 ∈ keys)).Perm ordered ∧
    List.Forall₂ (fun m m' => m.1 = m'.1 ∧ same m.2 m'.2) ordered (members'.filter (·.1 ∈ keys))

inductive SameExample : Tree → Tree → Prop where
  | same (t : Tree) : SameExample t t
  | object {members members' : List (String × Tree)}
      (h : Corresponds ["arguments", "return"] Eq members members') :
      SameExample (object members) (object members')

inductive SameField : Tree → Tree → Prop where
  | same (t : Tree) : SameField t t
  | array {items items' : List Tree} (h : List.Forall₂ SameExample items items') :
      SameField (array items) (array items')

def SameSpec : List (String × Tree) → List (String × Tree) → Prop :=
  Corresponds ["subject", "examples"] SameField

theorem readOnce?_two (read? : Tree → Option α) (t u : Tree) (ts : List Tree) :
    readOnce? read? none (t :: u :: ts) = none := by
  cases ht : read? t <;> simp [readOnce?, ht]

theorem readOnce?_perm {ts ts' : List Tree} (h : ts.Perm ts') (read? : Tree → Option α) :
    readOnce? read? none ts = readOnce? read? none ts' := by
  match ts with
  | [] => rw [h.nil_eq]
  | [t] => rw [h.singleton_eq]
  | t :: u :: ts =>
    match ts', h.length_eq with
    | v :: w :: ws, _ => rw [readOnce?_two, readOnce?_two]

theorem valuesAt_filter {keys : List String} {key : String} (hk : key ∈ keys)
    (members : List (String × Tree)) :
    valuesAt key (members.filter (·.1 ∈ keys)) = valuesAt key members := by
  rw [valuesAt, List.filter_filter, valuesAt]
  congr 1
  refine List.filter_congr fun m _ => ?_
  by_cases h : m.1 = key <;> simp [h, hk]

theorem valuesAt_forall₂ {same : Tree → Tree → Prop} {members members' : List (String × Tree)}
    (h : List.Forall₂ (fun m m' => m.1 = m'.1 ∧ same m.2 m'.2) members members') (key : String) :
    List.Forall₂ same (valuesAt key members) (valuesAt key members') := by
  induction h with
  | nil => exact .nil
  | @cons m m' _ _ hm _ ih =>
    rw [valuesAt_cons, valuesAt_cons, ← hm.1]
    by_cases hk : m.1 = key
    · rw [if_pos hk, if_pos hk]
      exact .cons hm.2 ih
    · rw [if_neg hk, if_neg hk]
      exact ih

theorem Corresponds.readOnce?_eq {keys : List String} {same : Tree → Tree → Prop}
    {members members' : List (String × Tree)} (h : Corresponds keys same members members')
    (key : String) (hk : key ∈ keys) {read? : Tree → Option α}
    (hsame : ∀ t t', same t t' → read? t = read? t') :
    readOnce? read? none (valuesAt key members) = readOnce? read? none (valuesAt key members') := by
  obtain ⟨ordered, hperm, hall⟩ := h
  have hvalues : (valuesAt key members).Perm (valuesAt key ordered) := by
    rw [← valuesAt_filter hk members]
    exact (hperm.filter _).map _
  have hsame := (valuesAt_forall₂ hall key).imp hsame
  rw [valuesAt_filter hk] at hsame
  exact (readOnce?_perm hvalues read?).trans (readOnce?_congr hsame none)

section Outcomes

variable {number? : String → Option Value}

theorem SameExample.example?_eq {t t' : Tree} (h : SameExample t t') :
    example? number? t = example? number? t' := by
  cases h with
  | same => rfl
  | object h =>
    have hargs := h.readOnce?_eq "arguments" (by decide) fun _ _ ht =>
      congrArg (optional? (list? (value? number?))) ht
    have hret := h.readOnce?_eq "return" (by decide) fun _ _ ht =>
      congrArg (optional? (value? number?)) ht
    simp only [example?, record?, parts?, Option.bind_some, hargs, hret]

theorem SameField.text?_eq {t t' : Tree} (h : SameField t t') : text? t = text? t' := by
  cases h <;> rfl

theorem SameField.examples?_eq {t t' : Tree} (h : SameField t t') :
    optional? (list? (example? number?)) t = optional? (list? (example? number?)) t' := by
  cases h with
  | same => rfl
  | @array items items' h =>
    have hitems : items.mapM (example? number?) = items'.mapM (example? number?) :=
      mapM_congr (h.imp fun _ _ he => he.example?_eq)
    exact congrArg (Option.map some) hitems

theorem SameSpec.spec?_eq {members members' : List (String × Tree)} (h : SameSpec members members') :
    spec? number? (object members) = spec? number? (object members') := by
  have hsubject := Corresponds.readOnce?_eq h "subject" (by decide) fun _ _ ht => ht.text?_eq
  have hfield : ∀ t t', SameField t t' →
      optional? (list? (example? number?)) t = optional? (list? (example? number?)) t' :=
    fun _ _ ht => ht.examples?_eq
  have hexamples := Corresponds.readOnce?_eq h "examples" (by decide) hfield
  simp only [spec?, record?, parts?, Option.bind_some, hsubject, hexamples]

end Outcomes

end Tree

theorem eq_ok_iff {ε α : Type} {x : Except ε α} {a : α} : x = .ok a ↔ x.toOption = some a := by
  cases x with
  | error e => exact ⟨nofun, nofun⟩
  | ok b => exact ⟨fun h => congrArg _ h, fun h => congrArg _ (Option.some.inj h)⟩

end ExampleTests.Json
