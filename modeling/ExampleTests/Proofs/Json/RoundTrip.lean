import ExampleTests.Loading
import ExampleTests.Proofs.Decimal.Binary64
import ExampleTests.Proofs.Json.Parts

/-! Specs that are written and read again. Everything comes back but the floats
that are written as null: a return of that kind is absent afterwards, and an
argument of that kind is a fault. -/

namespace ExampleTests

/-- A float that is infinite or no number. -/
def Value.isNonFinite : Value → Bool
  | float x => !x.isFinite
  | integer _ | raw _ => false

namespace Spec

def arguments (s : Spec) : List Value := s.exampleList.flatMap Example.argumentList

def values (s : Spec) : List Value :=
  s.exampleList.flatMap fun e => e.argumentList ++ e.returns.toList

end Spec

def Example.dropNonFinite (e : Example) : Example :=
  { e with returns := e.returns.filter (!·.isNonFinite) }

def Spec.dropNonFinite (s : Spec) : Spec :=
  { s with examples := s.examples.map (·.map Example.dropNonFinite) }

namespace Json

section Literals

/-- Null in the place of a literal, or what is there instead. -/
def orNull {α : Type} (isNull : Bool) (a : α) : Except Reason α :=
  if isNull then .error (.mismatch ⟨.unit, .value⟩) else .ok a

theorem map_orNull {α β : Type} (isNull : Bool) (a : α) (f : α → β) :
    (orNull isNull a).map f = orNull isNull (f a) := by
  cases isNull <;> rfl

theorem mapM_orNull {α β : Type} (isNull : α → Bool) (f : α → β) (xs : List α) :
    xs.mapM (fun x => orNull (isNull x) (f x)) = orNull (xs.any isNull) (xs.map f) := by
  induction xs with
  | nil => rfl
  | cons x xs ih =>
    rw [List.mapM_cons, ih]
    cases hx : isNull x <;> cases hxs : xs.any isNull <;> simp [orNull, hx, hxs] <;> rfl

theorem writeFloat_eq_null {x : Float} (h : x.isFinite = false) : writeFloat x = "null".toList := by
  have hf : ¬∃ negative m q, Binary64.ofFloat x = .finite negative m q := by
    rw [← Binary64.isFinite_iff, h]
    exact Bool.false_ne_true
  unfold writeFloat
  split
  case h_1 => rfl
  case h_2 => rfl
  case h_3 negative m q hx => exact absurd ⟨negative, m, q, hx⟩ hf

theorem reads_string (s : String) : Reads readString (writeText s) (.ok s) := by
  refine ⟨⟨'"', _, rfl, rfl, by decide⟩, fun rest _ => ?_⟩
  have hr : readString ('"' :: (s.toList.flatMap escapeChar ++ '"' :: rest)) = _ :=
    readText_escape s rest
  rw [writeText_append, hr]
  rfl

/-- What a literal begins with: no blank, and nothing that has elements or ends them. -/
def LiteralStart (text : List Char) : Prop :=
  ∃ c cs, text = c :: cs ∧ isBlank c = false ∧ c ≠ ']' ∧ c ≠ '[' ∧ c ≠ '{'

theorem reads_scalar {text : List Char} {found : Found} (hs : LiteralStart text)
    (hf : ∀ rest, Delimited rest → readFound (text ++ rest) = .ok (found, rest)) :
    Reads readValue text ((Value.ofFound found).mapError .mismatch) := by
  obtain ⟨c, cs, rfl, hb, hc, ha, ho⟩ := hs
  refine ⟨⟨c, cs, rfl, hb, hc⟩, fun rest hrest => ?_⟩
  have hf := hf rest hrest
  simp only [List.cons_append, readValue, skipBlanks_cons hb] at hf ⊢
  split
  case h_1 he => cases he; exact absurd rfl ha
  case h_2 he => cases he; exact absurd rfl ho
  case h_3 =>
    rw [hf]
    simp only [bind, Except.bind]
    cases Value.ofFound found <;> rfl

theorem literalStart_integer (n : Int) :
    LiteralStart n.repr.toList ∧ n.repr.toList.head? ≠ some 'n' := by
  obtain ⟨c, cs, ht, hc⟩ := repr_opens n
  rw [ht]
  have hne : ∀ d, d ≠ '-' → d.isDigit = false → c ≠ d := by
    rintro d hd hdigit rfl
    rcases hc with hc | hc
    · exact hd hc
    · rw [hdigit] at hc
      cases hc
  refine ⟨⟨c, cs, rfl, ?_, hne _ ?_ ?_, hne _ ?_ ?_, hne _ ?_ ?_⟩, ?_⟩ <;> try decide
  · simp [isBlank, hne]
  · simp [hne]

theorem reads_null_value : Reads readValue "null".toList (.error (.mismatch ⟨.unit, .value⟩)) := by
  have hr : Reads readValue ['n', 'u', 'l', 'l'] ((Value.ofFound .unit).mapError .mismatch) :=
    reads_scalar ⟨'n', _, rfl, by decide⟩ fun _ _ => rfl
  rwa [show "null".toList = ['n', 'u', 'l', 'l'] by decide]

theorem reads_integer (n : Int64) : Reads readValue n.toInt.repr.toList (.ok (.integer n)) := by
  have hi : n.toInt.toNat < significandLimit := by
    have hlt := n.toInt_lt
    simp only [significandLimit]
    omega
  obtain ⟨w, hw, hf⟩ := readFound_integer n.minValue_le_toInt hi
  have hv : Value.ofWord w = .integer n := by
    rw [Value.ofWord_eq_ofInt, hw, Value.ofInt_toInt]
  have hr := reads_scalar (literalStart_integer n.toInt).1 hf
  simp only [Value.ofFound, Value.ofFound?, hv] at hr
  exact hr

theorem reads_raw (text : String) : Reads readValue (writeText text) (.ok (.raw text)) := by
  have hf : ∀ rest, Delimited rest →
      readFound (writeText text ++ rest) = .ok (.text text, rest) := by
    intro rest _
    rw [writeText_append]
    simp only [readFound, readText_escape, bind, Except.bind]
  exact reads_scalar ⟨'"', _, rfl, by decide⟩ hf

theorem reads_literal {v : Value} (h : ∀ x, v ≠ .float x) :
    Reads readValue (writeValue v) (.ok v) ∧ (writeValue v).head? ≠ some 'n' := by
  cases v with
  | integer n => exact ⟨reads_integer n, (literalStart_integer n.toInt).2⟩
  | float x => exact absurd rfl (h x)
  | raw text => exact ⟨reads_raw text, by simp [writeValue, writeText]⟩

/-- No finite float: the literal is none at all, or one that is written as null. -/
theorem null_or_literal {v : Value} (h : ∀ x, v = .float x → x.isFinite = false) :
    v.isNonFinite = true ∧ writeValue v = "null".toList ∨
      v.isNonFinite = false ∧ ∀ x, v ≠ .float x := by
  cases v with
  | float x => exact .inl ⟨by simp [Value.isNonFinite, h x rfl], writeFloat_eq_null (h x rfl)⟩
  | integer n => exact .inr ⟨rfl, nofun⟩
  | raw text => exact .inr ⟨rfl, nofun⟩

theorem reads_argument {v : Value} (h : ∀ x, v = .float x → x.isFinite = false) :
    Reads readValue (writeValue v) (orNull v.isNonFinite v) := by
  rcases null_or_literal h with ⟨hn, hw⟩ | ⟨hn, hv⟩
  · rw [hn, hw]
    exact reads_null_value
  · rw [hn]
    exact (reads_literal hv).1

theorem reads_return {v : Value} (h : ∀ x, v = .float x → x.isFinite = false) :
    Reads ExampleFields.readReturns (writeValue v) (.ok (Option.filter (!·.isNonFinite) (some v))) := by
  rcases null_or_literal h with ⟨hn, hw⟩ | ⟨hn, hv⟩
  · rw [hw, Option.filter_some_neg (by simp [hn])]
    exact reads_null readValue
  · obtain ⟨hr, hne⟩ := reads_literal hv
    rw [Option.filter_some_pos (by simp [hn])]
    exact reads_optional hr hne

end Literals

section Specs

theorem reads_optional_list {α : Type} {read : Reader α} {write : α → List Char}
    {isNull : α → Bool} {f : α → α} {xs : List α}
    (h : ∀ x ∈ xs, Reads read (write x) (orNull (isNull x) (f x))) :
    Reads (readOptional (readList read)) (writeArray (xs.map write))
      (orNull (xs.any isNull) (some (xs.map f))) := by
  have hr := reads_optional (reads_list h) (by simp [writeArray])
  rwa [mapM_orNull, map_orNull] at hr

theorem membersRead_return (f : ExampleFields) (hf : f.returns = none) {returns : Option Value}
    (h : ∀ x, .float x ∈ returns.toList → x.isFinite = false) :
    MembersRead ExampleFields.field f [("return", returns.map writeValue)]
      (.ok { f with returns := returns.map fun v => Option.filter (!·.isNonFinite) (some v) }) := by
  cases returns with
  | none =>
    have he : { f with returns := none } = f := by rw [← hf]
    rw [Option.map_none, Option.map_none, he]
    exact .absent (.done f)
  | some v =>
    have hv : ∀ x, v = .float x → x.isFinite = false := fun x hx => h x (by simp [hx])
    obtain ⟨place, hp, hr⟩ := reads_once (reads_return hv) fun r => { f with returns := some r }
    refine .read ?_ hr (.done _)
    simpa [ExampleFields.field, hf] using hp

theorem membersRead_example {e : Example}
    (h : ∀ x, .float x ∈ e.argumentList ++ e.returns.toList → x.isFinite = false) :
    MembersRead ExampleFields.field {}
      [("arguments", e.arguments.map fun values => writeArray (values.map writeValue)),
       ("return", e.returns.map writeValue)]
      (orNull (e.argumentList.any Value.isNonFinite)
        { arguments := e.arguments.map some
          returns := e.returns.map fun v => Option.filter (!·.isNonFinite) (some v) }) := by
  have hreturn : ∀ x, .float x ∈ e.returns.toList → x.isFinite = false :=
    fun x hx => h x (List.mem_append_right _ hx)
  cases ha : e.arguments with
  | none =>
    simp only [Example.argumentList, ha]
    exact .absent (membersRead_return {} rfl hreturn)
  | some values =>
    have hargument : ∀ v ∈ values, Reads readValue (writeValue v) (orNull v.isNonFinite v) :=
      fun v hv => reads_argument fun x hx =>
        h x (List.mem_append_left _ (by simpa [Example.argumentList, ha, hx] using hv))
    obtain ⟨place, hp, hr⟩ := reads_once (reads_optional_list hargument)
      fun a => ({ arguments := some a } : ExampleFields)
    rw [map_orNull, List.map_id'] at hr
    simp only [Example.argumentList, ha, Option.getD_some, Option.map_some]
    -- Behind an argument that is null nothing is read, not even the return.
    cases hb : values.any Value.isNonFinite with
    | true =>
      rw [hb] at hr
      exact .fault hp hr
    | false =>
      rw [hb] at hr
      exact .read hp hr (membersRead_return _ rfl hreturn)

theorem reads_example {e : Example}
    (h : ∀ x, .float x ∈ e.argumentList ++ e.returns.toList → x.isFinite = false) :
    Reads readExample (writeExample e)
      (orNull (e.argumentList.any Value.isNonFinite) e.dropNonFinite) := by
  have hr : Reads readExample (writeExample e) _ :=
    reads_object (membersRead_example h) ExampleFields.toExample fun _ => rfl
  have he : ExampleFields.toExample
      { arguments := e.arguments.map some
        returns := e.returns.map fun v => Option.filter (!·.isNonFinite) (some v) } =
      e.dropNonFinite := by
    cases ha : e.arguments <;> cases hv : e.returns <;>
      simp [ExampleFields.toExample, Example.dropNonFinite, ha, hv]
  rwa [map_orNull, he] at hr

theorem membersRead_spec {s : Spec} (h : ∀ x, .float x ∈ s.values → x.isFinite = false) :
    MembersRead SpecFields.field {}
      [("subject", some (writeText s.subject)),
       ("examples", s.examples.map fun examples => writeArray (examples.map writeExample))]
      (orNull (s.arguments.any Value.isNonFinite)
        { subject := some s.subject
          examples := s.examples.map fun examples => some (examples.map Example.dropNonFinite) }) := by
  obtain ⟨subject, hp, hr⟩ := reads_once (reads_string s.subject)
    fun t => ({ subject := some t } : SpecFields)
  refine .read hp hr ?_
  cases he : s.examples with
  | none =>
    simp only [Spec.arguments, Spec.exampleList, he]
    exact .absent (.done _)
  | some examples =>
    have hexample : ∀ e ∈ examples, Reads readExample (writeExample e)
        (orNull (e.argumentList.any Value.isNonFinite) e.dropNonFinite) :=
      fun e hmem => reads_example fun x hx =>
        h x (List.mem_flatMap.mpr ⟨e, by simpa [Spec.exampleList, he] using hmem, hx⟩)
    obtain ⟨place, hp, hr⟩ := reads_once (reads_optional_list hexample)
      fun es => ({ subject := some s.subject, examples := some es } : SpecFields)
    have hb : s.arguments.any Value.isNonFinite =
        examples.any fun e => e.argumentList.any Value.isNonFinite := by
      simp [Spec.arguments, Spec.exampleList, he, List.any_flatMap]
    rw [map_orNull, ← hb] at hr
    rw [Option.map_some, Option.map_some]
    cases hn : s.arguments.any Value.isNonFinite with
    | true =>
      rw [hn] at hr
      exact .fault hp hr
    | false =>
      rw [hn] at hr
      exact .read hp hr (.done _)

theorem reads_spec {s : Spec} (h : ∀ x, .float x ∈ s.values → x.isFinite = false) :
    Reads readSpec (writeSpec s) (orNull (s.arguments.any Value.isNonFinite) s.dropNonFinite) := by
  have hr : Reads readSpec (writeSpec s) _ :=
    reads_object (membersRead_spec h) SpecFields.toSpec fun _ => rfl
  have hs : SpecFields.toSpec
      { subject := some s.subject
        examples := s.examples.map fun examples => some (examples.map Example.dropNonFinite) } =
      s.dropNonFinite := by
    cases he : s.examples <;> simp [SpecFields.toSpec, Spec.dropNonFinite, he]
  rwa [map_orNull, hs] at hr

theorem arguments_subset_values {s : Spec} {v : Value} (h : v ∈ s.arguments) : v ∈ s.values := by
  obtain ⟨e, he, hv⟩ := List.mem_flatMap.mp h
  exact List.mem_flatMap.mpr ⟨e, he, List.mem_append_left _ hv⟩

theorem isNonFinite_of_no_float {v : Value} (h : ∀ x, v ≠ .float x) : v.isNonFinite = false := by
  cases v with
  | float x => exact absurd rfl (h x)
  | integer n => rfl
  | raw text => rfl

theorem dropNonFinite_example {e : Example} (h : ∀ x, .float x ∉ e.returns.toList) :
    e.dropNonFinite = e := by
  obtain ⟨arguments, returns⟩ := e
  cases returns with
  | none => rfl
  | some v =>
    have hv : v.isNonFinite = false := isNonFinite_of_no_float fun x hx => h x (by simp [hx])
    simp [Example.dropNonFinite, hv]

theorem dropNonFinite_spec {s : Spec} (h : ∀ x, .float x ∉ s.values) : s.dropNonFinite = s := by
  obtain ⟨subject, examples⟩ := s
  cases examples with
  | none => rfl
  | some examples =>
    have he : examples.map Example.dropNonFinite = examples.map id :=
      List.map_congr_left fun e hmem => dropNonFinite_example fun x hx =>
        h x (List.mem_flatMap.mpr ⟨e, hmem, List.mem_append_right _ hx⟩)
    rw [Spec.dropNonFinite, Option.map_some, he, List.map_id]

/-- A spec without finite floats comes back from its text, except that a return
which was written as null is absent. An argument which was written as null is
the fault that is reported. -/
theorem parseSpec_write (s : Spec) (h : ∀ x, .float x ∈ s.values → x.isFinite = false) :
    ((∀ x, .float x ∉ s.arguments) →
      SourceFormat.json.parseSpec (write s) = .ok s.dropNonFinite) ∧
    ((∀ x, .float x ∉ s.values) → SourceFormat.json.parseSpec (write s) = .ok s) ∧
    ∀ x, .float x ∈ s.arguments → ∃ e, SourceFormat.json.parseSpec (write s) = .error (.json e) ∧
      e.reason = .mismatch ⟨.unit, .value⟩ := by
  have hp : (parseSpec (write s)).mapError Error.reason = _ := reads_all (reads_spec h)
  have hok : (∀ x, .float x ∉ s.arguments) →
      SourceFormat.json.parseSpec (write s) = .ok s.dropNonFinite := by
    intro ha
    have hn : s.arguments.any Value.isNonFinite = false := by
      rw [List.any_eq_false]
      intro v hv
      rw [isNonFinite_of_no_float fun x hx => ha x (hx ▸ hv)]
      exact Bool.false_ne_true
    rw [hn] at hp
    cases hr : parseSpec (write s) with
    | error e => rw [hr] at hp; cases hp
    | ok t =>
      rw [hr] at hp
      cases hp
      simp only [SourceFormat.parseSpec, hr]
      rfl
  refine ⟨hok, fun hv => ?_, fun x hx => ?_⟩
  · rw [hok fun x hx => hv x (arguments_subset_values hx), dropNonFinite_spec hv]
  · have hn : s.arguments.any Value.isNonFinite = true := by
      have hf := h x (arguments_subset_values hx)
      exact List.any_eq_true.mpr ⟨_, hx, by simp [Value.isNonFinite, hf]⟩
    rw [hn] at hp
    cases hr : parseSpec (write s) with
    | ok t => rw [hr] at hp; cases hp
    | error e =>
      rw [hr] at hp
      exact ⟨e, by simp only [SourceFormat.parseSpec, hr]; rfl, Except.error.inj hp⟩

/-- A return that is no number, next to lists that are empty and absent, and an
argument that is infinite. -/
theorem parseSpec_write_null :
    let nan := Float.ofBits 0x7FF8000000000000
    let infinity := Float.ofBits 0x7FF0000000000000
    let spec : Spec :=
      { subject := "a\"\\\x00"
        examples := some [{ arguments := some [], returns := some (.float nan) },
          { returns := some (.integer Int64.minValue) }] }
    let failing : Spec := { examples := some [{ arguments := some [.raw "x", .float infinity] }] }
    SourceFormat.json.parseSpec (write spec) =
        .ok { subject := "a\"\\\x00"
              examples := some [{ arguments := some [] },
                { returns := some (.integer Int64.minValue) }] } ∧
      ∃ e, SourceFormat.json.parseSpec (write failing) = .error (.json e) ∧
        e.reason = .mismatch ⟨.unit, .value⟩ := by
  intro nan infinity spec failing
  have hspec : ∀ x, .float x ∈ spec.values → x.isFinite = false := by
    simp [spec, Spec.values, Spec.exampleList, Example.argumentList]
    decide +kernel
  have hfailing : ∀ x, .float x ∈ failing.values → x.isFinite = false := by
    simp [failing, Spec.values, Spec.exampleList, Example.argumentList]
    decide +kernel
  have hnone : ∀ x, .float x ∉ spec.arguments := by
    simp [spec, Spec.arguments, Spec.exampleList, Example.argumentList]
  have hsome : .float infinity ∈ failing.arguments := by
    simp [failing, Spec.arguments, Spec.exampleList, Example.argumentList]
  have hnan : (Value.float nan).isNonFinite = true := by decide +kernel
  have hread := (parseSpec_write spec hspec).1 hnone
  simp only [spec, Spec.dropNonFinite, Example.dropNonFinite, Option.map_some, List.map_cons,
    List.map_nil, Option.filter, hnan] at hread
  exact ⟨hread, (parseSpec_write failing hfailing).2.2 infinity hsome⟩

end Specs

end Json

end ExampleTests
