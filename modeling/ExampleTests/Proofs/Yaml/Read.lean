import ExampleTests.Yaml.Read

/-! Readers on the items of a document. A reader takes a row of items if it reads
them to the same result whatever follows them, and wherever they stand in the
source. -/

namespace ExampleTests.Yaml

variable {α σ : Type}

/-- The reader takes exactly these items. -/
def Takes (read : Reader α) (items : List Item) (a : α) : Prop :=
  ∀ marked : List (Marked Item), marked.map Prod.fst = items →
    ∀ rest followed, read ⟨marked ++ rest, followed⟩ = .ok (a, ⟨rest, followed⟩)

def textItem (text : String) : Item := .scalar { text }

namespace Document

variable {d : Document}

theorem readNode_cons {item : Item} (h : ∀ n, item ≠ .alias n) (path : Path)
    (read : Item → Reader α) (m : Mark) (rest : List (Marked Item)) (followed : Nat) :
    d.readNode path read ⟨(item, m) :: rest, followed⟩ =
      (read item ⟨rest, followed⟩).mapError (·.inPart path m) := by
  cases item with
  | «alias» n => exact absurd rfl (h n)
  | _ => rfl

theorem takes_node {item : Item} (h : ∀ n, item ≠ .alias n) {path : Path} {read : Item → Reader α}
    {items : List Item} {a : α} (hr : Takes (read item) items a) :
    Takes (d.readNode path read) (item :: items) a := by
  intro marked hmarked rest followed
  obtain ⟨⟨item, m⟩, marked, rfl, rfl, hm⟩ := List.map_eq_cons_iff.mp hmarked
  rw [List.cons_append, readNode_cons h, hr marked hm]
  rfl

theorem takes_text (wanted : Wanted) (path : Path) (text : String) :
    Takes (d.readText wanted path) [textItem text] text :=
  takes_node (by simp [textItem]) fun marked hm rest followed => by
    obtain rfl := List.map_eq_nil_iff.mp hm
    rfl

theorem takes_value {path : Path} {text : String} {v : Value}
    (h : Value.ofFound? (Plain.resolve text.toList) = some v) :
    Takes (d.readValue path) [textItem text] v :=
  takes_node (by simp [textItem]) fun marked hm rest followed => by
    obtain rfl := List.map_eq_nil_iff.mp hm
    have hv : Value.ofFound (Plain.resolve text.toList) = .ok v := by
      simp only [Value.ofFound, h]
    simp [textItem, isOwnTag, Scalar.resolve, hv, bind, Except.bind]

theorem takes_present {read : Reader α} {item : Item} {items : List Item} {a : α}
    (hs : ∀ s, item = .scalar s → s.isAbsent = .ok false) (ha : ∀ n, item ≠ .alias n)
    (hn : item ≠ .nothing) (hr : Takes read (item :: items) a) :
    Takes (d.readOptional read) (item :: items) (some a) := by
  intro marked hmarked rest followed
  have h := hr marked hmarked rest followed
  obtain ⟨⟨item, m⟩, marked, rfl, rfl, -⟩ := List.map_eq_cons_iff.mp hmarked
  simp only [List.cons_append] at h ⊢
  cases item with
  | «alias» n => exact absurd rfl (ha n)
  | nothing => exact absurd rfl hn
  | scalar s => simp [readOptional, follow, hs s rfl, h, bind, Except.bind]
  | _ => simp [readOptional, follow, h, bind, Except.bind]

theorem takes_absent {read : Reader α} {s : Scalar} (h : s.isAbsent = .ok true) :
    Takes (d.readOptional read) [.scalar s] none := by
  intro marked hmarked rest followed
  obtain ⟨⟨item, m⟩, rfl, rfl⟩ := List.map_eq_singleton_iff.mp hmarked
  simp [readOptional, follow, h, bind, Except.bind]

/-- A text that is not empty is read as the literal it resolves to, if to any. -/
theorem takes_optionalValue (path : Path) {text : String} (h : text ≠ "") :
    Takes (d.readOptional (d.readValue path)) [textItem text]
      (Value.ofFound? (Plain.resolve text.toList)) := by
  have he : text.toList.isEmpty = false := by simpa using h
  have habsent : Scalar.isAbsent { text } = .ok (Plain.isNull text.toList) := by
    simp [Scalar.isAbsent, h]
  cases hn : Plain.isNull text.toList with
  | true =>
    have hr : Plain.resolve text.toList = .unit := by simp [Plain.resolve, hn]
    rw [hr]
    exact takes_absent (habsent.trans (by rw [hn]))
  | false =>
    obtain ⟨v, hv⟩ : ∃ v, Value.ofFound? (Plain.resolve text.toList) = some v := by
      simp only [Plain.resolve, he, hn, Bool.or_self, Bool.false_eq_true, if_false]
      split
      · exact ⟨_, rfl⟩
      · split
        · exact ⟨_, rfl⟩
        · split <;> exact ⟨_, rfl⟩
    rw [hv]
    refine takes_present ?_ (by simp [textItem]) (by simp [textItem]) (takes_value hv)
    rintro s he
    cases he
    exact habsent.trans (by rw [hn])

/-- Elements up to the end of their sequence, with as much fuel as there are items. -/
def TakesElements (d : Document) (read : Path → Reader α) (path : Path) (index : Nat)
    (items : List Item) (as : List α) : Prop :=
  ∀ fuel, items.length ≤ fuel → Takes (d.readElements read path fuel index) items as

theorem TakesElements.nil (read : Path → Reader α) (path : Path) (index : Nat) :
    TakesElements d read path index [.sequenceEnd] [] := by
  intro fuel hf marked hmarked rest followed
  obtain ⟨fuel, rfl⟩ : ∃ n, fuel = n + 1 := ⟨fuel - 1, by simp at hf; omega⟩
  obtain ⟨⟨item, m⟩, rfl, rfl⟩ := List.map_eq_singleton_iff.mp hmarked
  rfl

theorem TakesElements.cons {read : Path → Reader α} {path : Path} {index : Nat} {item : Item}
    {items more : List Item} {a : α} {as : List α} (he : item ≠ .sequenceEnd)
    (hr : Takes (read (.element path index)) (item :: items) a)
    (h : TakesElements d read path (index + 1) more as) :
    TakesElements d read path index (item :: items ++ more) (a :: as) := by
  intro fuel hf marked hmarked rest followed
  simp only [List.length_append, List.length_cons] at hf
  obtain ⟨fuel, rfl⟩ : ∃ n, fuel = n + 1 := ⟨fuel - 1, by omega⟩
  obtain ⟨first, last, rfl, hfirst, hlast⟩ := List.map_eq_append_iff.mp hmarked
  have hread := hr first hfirst (last ++ rest) followed
  obtain ⟨⟨item, m⟩, first, rfl, rfl, -⟩ := List.map_eq_cons_iff.mp hfirst
  have hmore := h fuel (by omega) last hlast rest followed
  simp only [List.cons_append, List.append_assoc] at hread ⊢
  rw [readElements]
  cases item with
  | sequenceEnd => exact absurd rfl he
  | _ => simp [hread, hmore, bind, Except.bind]

theorem takes_list {read : Path → Reader α} {path : Path} {tag : Option Bytes} {items : List Item}
    {as : List α} (h : TakesElements d read path 0 items as) :
    Takes (d.readList read path) (.sequenceStart tag :: items) as :=
  takes_node (by simp) fun marked hm rest followed =>
    h _ (by simp [← hm]; omega) marked hm rest followed

/-- Members up to the end of their mapping, with as much fuel as there are items. -/
def TakesMembers (d : Document) (field : σ → String → Field σ) (path : Path) (fields : σ)
    (items : List Item) (result : σ) : Prop :=
  ∀ fuel, items.length ≤ fuel → Takes (d.readMembers field path fuel fields) items result

theorem TakesMembers.nil (field : σ → String → Field σ) (path : Path) (fields : σ) :
    TakesMembers d field path fields [.mappingEnd] fields := by
  intro fuel hf marked hmarked rest followed
  obtain ⟨fuel, rfl⟩ : ∃ n, fuel = n + 1 := ⟨fuel - 1, by simp at hf; omega⟩
  obtain ⟨⟨item, m⟩, rfl, rfl⟩ := List.map_eq_singleton_iff.mp hmarked
  rfl

theorem TakesMembers.known {field : σ → String → Field σ} {path : Path} {fields fields' result : σ}
    {key : String} {read : Path → Reader σ} {items more : List Item}
    (hf : field fields key = .value read) (hr : Takes (read (.member path key)) items fields')
    (h : TakesMembers d field path fields' more result) :
    TakesMembers d field path fields (textItem key :: (items ++ more)) result := by
  intro fuel hfuel marked hmarked rest followed
  simp only [List.length_append, List.length_cons] at hfuel
  obtain ⟨fuel, rfl⟩ : ∃ n, fuel = n + 1 := ⟨fuel - 1, by omega⟩
  obtain ⟨⟨item, m⟩, marked, rfl, rfl, hmarked'⟩ := List.map_eq_cons_iff.mp hmarked
  obtain ⟨first, last, rfl, hfirst, hlast⟩ := List.map_eq_append_iff.mp hmarked'
  have hkey := takes_text (d := d) .fieldName path key [(textItem key, m)] rfl (first ++ last ++ rest)
    followed
  have hread := hr first hfirst (last ++ rest) followed
  have hmore := h fuel (by omega) last hlast rest followed
  have hpath : keyPath path (textItem key) = .member path key := rfl
  simp only [List.singleton_append, List.append_assoc] at hkey hread
  rw [List.cons_append, List.append_assoc, readMembers]
  simp [textItem] at hkey hpath ⊢
  simp [hkey, hpath, hf, hread, hmore, bind, Except.bind]

/-- The value of a key that means nothing is skipped. -/
theorem TakesMembers.unknown {field : σ → String → Field σ} {path : Path} {fields result : σ}
    {key value : String} {more : List Item} (hf : field fields key = .unknown)
    (h : TakesMembers d field path fields more result) :
    TakesMembers d field path fields (textItem key :: textItem value :: more) result := by
  intro fuel hfuel marked hmarked rest followed
  simp only [List.length_cons] at hfuel
  obtain ⟨fuel, rfl⟩ : ∃ n, fuel = n + 1 := ⟨fuel - 1, by omega⟩
  obtain ⟨⟨item, m⟩, marked, rfl, rfl, hmarked'⟩ := List.map_eq_cons_iff.mp hmarked
  obtain ⟨⟨item, n⟩, last, rfl, rfl, hlast⟩ := List.map_eq_cons_iff.mp hmarked'
  have hkey := takes_text (d := d) .fieldName path key [(textItem key, m)] rfl
    ((textItem value, n) :: (last ++ rest)) followed
  have hmore := h fuel (by omega) last hlast rest followed
  simp only [List.singleton_append] at hkey
  rw [List.cons_append, List.cons_append, readMembers]
  simp [textItem] at hkey ⊢
  simp [hkey, hf, skipNode, hmore, bind, Except.bind]

theorem takes_mapping {field : σ → String → Field σ} {wanted : Wanted} {path : Path}
    {fields result : σ} {tag : Option Bytes} {items : List Item}
    (h : TakesMembers d field path fields items result) :
    Takes (d.readMapping wanted field fields path) (.mappingStart tag :: items) result :=
  takes_node (by simp) fun marked hm rest followed =>
    h _ (by simp [← hm]; omega) marked hm rest followed

theorem takes_once (read : Path → Reader α) {path : Path} {items : List Item} {a : α}
    (h : Takes (read path) items a) (set : α → σ) :
    ∃ place, Field.once none read set = .value place ∧ Takes (place path) items (set a) := by
  refine ⟨_, rfl, fun marked hm rest followed => ?_⟩
  simp [h marked hm rest followed, bind, Except.bind]

/-- An example with a title, which means nothing, and a result. -/
theorem takes_example (path : Path) (title : String) {returns : String} (h : returns ≠ "") :
    Takes (d.readExample path) [.mappingStart none, textItem "title", textItem title,
      textItem "return", textItem returns, .mappingEnd]
      { returns := Value.ofFound? (Plain.resolve returns.toList) } := by
  obtain ⟨place, hplace, htakes⟩ := takes_once (fun path => d.readOptional (d.readValue path))
    (takes_optionalValue (.member path "return") h) fun r => ({ returns := some r } : ExampleFields)
  have hfield : d.exampleField {} "return" = .value place := by simpa [exampleField] using hplace
  have hreturn := TakesMembers.known (d := d) hfield htakes (.nil d.exampleField path _)
  have hmembers : TakesMembers d d.exampleField path {} [textItem "title", textItem title,
      textItem "return", textItem returns, .mappingEnd] _ := .unknown rfl hreturn
  intro marked hm rest followed
  rw [readExample, takes_mapping hmembers marked hm rest followed]
  rfl

/-- A spec with a subject and examples. -/
theorem takes_spec (path : Path) (subject : String) {items : List Item} {examples : List Example}
    (h : TakesElements d d.readExample (.member path "examples") 0 items examples) :
    Takes (d.readSpec path) (.mappingStart none :: textItem "subject" :: textItem subject ::
      textItem "examples" :: .sequenceStart none :: (items ++ [.mappingEnd]))
      { subject, examples := some examples } := by
  obtain ⟨subjectPlace, hsubject, htakesSubject⟩ := takes_once (d.readText .text)
    (takes_text .text (.member path "subject") subject) fun s => ({ subject := some s } : SpecFields)
  have hlist : Takes (d.readOptional (d.readList d.readExample (.member path "examples")))
      (.sequenceStart none :: items) (some examples) :=
    takes_present (by simp) (by simp) (by simp) (takes_list h)
  obtain ⟨place, hexamples, htakes⟩ := takes_once
    (fun path => d.readOptional (d.readList d.readExample path)) hlist
    fun es => ({ subject := some subject, examples := some es } : SpecFields)
  have hfirst : d.specField {} "subject" = .value subjectPlace := by simpa [specField] using hsubject
  have hsecond : d.specField { subject := some subject } "examples" = .value place := by
    simpa [specField] using hexamples
  have hmembers := TakesMembers.known (d := d) hfirst htakesSubject
    (.known hsecond htakes (.nil d.specField path _))
  intro marked hm rest followed
  rw [readSpec, takes_mapping hmembers marked hm rest followed]
  rfl

end Document

end ExampleTests.Yaml
