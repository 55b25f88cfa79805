import ExampleTests.Proofs.Json.Accepted

/-! The shapes of specs. A source that is a spec is an object, or an array of its parts
that is read as an object, and so is each of its examples. -/

namespace ExampleTests.Json

namespace Tree

/-- Members under their keys, or items in the order of the keys, some of which may be left out
at the end. -/
inductive Keyed (keys : List String) : Tree → List (String × Tree) → Prop where
  | object (members : List (String × Tree)) : Keyed keys (object members) members
  | array {items : List Tree} (h : items.length ≤ keys.length) :
      Keyed keys (array items) (keys.zip items)

variable {α β γ : Type} {key₁ key₂ : String} {read₁? : Tree → Option α} {read₂? : Tree → Option β} {missing₁ : α}
  {missing₂ : β} {build : α → β → γ} {t : Tree}

theorem Keyed.parts?_eq (hne : key₂ ≠ key₁) {members : List (String × Tree)}
    (h : Keyed [key₁, key₂] t members) : parts? key₁ key₂ t = parts? key₁ key₂ (.object members) := by
  cases h with
  | object => rfl
  | @array items hl =>
    match items with
    | [] => rfl
    | [u] => simp [parts?, valuesAt, hne.symm]
    | [u, v] => simp [parts?, valuesAt, hne, hne.symm]
    | _ :: _ :: _ :: _ => simp at hl

/-- An array is read as the object that has its items under the keys. -/
theorem Keyed.record?_eq (hne : key₂ ≠ key₁) {members : List (String × Tree)}
    (h : Keyed [key₁, key₂] t members) :
    record? key₁ key₂ read₁? read₂? missing₁ missing₂ build t =
      record? key₁ key₂ read₁? read₂? missing₁ missing₂ build (.object members) := by
  simp only [record?, h.parts?_eq hne]

theorem exists_keyed {c : γ}
    (h : record? key₁ key₂ read₁? read₂? missing₁ missing₂ build t = some c) :
    ∃ members, Keyed [key₁, key₂] t members := by
  cases t with
  | object members => exact ⟨members, .object members⟩
  | null | boolean | number | text => cases h
  | array items =>
    simp only [record?, parts?, Option.bind_some, Option.bind_eq_some_iff, Option.map_eq_some_iff,
      readOnce?_eq_some_iff, List.length_drop] at h
    obtain ⟨-, -, -, ⟨⟨hl, -⟩, -⟩, -⟩ := h
    refine ⟨_, .array ?_⟩
    simp only [List.length_cons, List.length_nil]
    omega

theorem example?_isSome_of_mem {number? : String → Option Value} {members : List (String × Tree)}
    {s : Spec} (h : spec? number? (object members) = some s) {u : Tree}
    (hu : u ∈ exampleTrees members) : (example? number? u).isSome := by
  obtain ⟨-, ⟨-, hexamples⟩, -⟩ := record?_object_eq_some_iff.mp h
  obtain ⟨t, ht, hu⟩ := List.mem_flatMap.mp hu
  rcases optional?_isSome.mp (hexamples t ht) with rfl | hlist
  · cases hu
  · obtain ⟨items, rfl, hitems⟩ := list?_isSome.mp hlist
    exact hitems u hu

end Tree

/-- Each text of an array is accepted as each text of the object is. -/
theorem toOption_parseSpec_keyed {t : Tree} {members : List (String × Tree)} {text : List Char}
    (h : SpellsSource t text) (hkeyed : Tree.Keyed ["subject", "examples"] t members) :
    (SourceFormat.json.parseSpec (String.ofList text)).toOption =
      Tree.spec? numberAlone? (.object members) :=
  (toOption_parseSpec h).trans (hkeyed.record?_eq (by decide))

/-- What is accepted as a spec is an object, or an array of at most two items that is read as
the object with these under its keys, and so is each of the examples. Conversely each text of
such an array is accepted as that object is. -/
theorem parseSpec_keyed (source : String) (s : Spec) :
    (SourceFormat.json.parseSpec source = .ok s →
      ∃ t members, Shown (SpellsSource t) source.toList ∧
        Tree.Keyed ["subject", "examples"] t members ∧
        Tree.spec? numberAlone? (.object members) = some s ∧
        ∀ u ∈ Tree.exampleTrees members, ∃ ms, Tree.Keyed ["arguments", "return"] u ms ∧
          Tree.example? numberAlone? u = Tree.example? numberAlone? (.object ms)) ∧
    ∀ t members, SpellsSource t source.toList → Tree.Keyed ["subject", "examples"] t members →
      (SourceFormat.json.parseSpec source = .ok s ↔
        Tree.spec? numberAlone? (.object members) = some s) := by
  refine ⟨fun h => ?_, fun t members ht hkeyed => ?_⟩
  · have hread : parseSpec source = .ok s := by
      rw [eq_ok_iff] at h ⊢
      rwa [SourceFormat.parseSpec, toOption_mapError] at h
    obtain ⟨t, hsource, hspec⟩ := readAll_sound sound_readSpec hread
    obtain ⟨members, hkeyed⟩ := Tree.exists_keyed hspec
    have hspec : Tree.spec? numberAlone? (.object members) = some s :=
      (hkeyed.record?_eq (by decide)).symm.trans hspec
    refine ⟨t, members, hsource, hkeyed, hspec, fun u hu => ?_⟩
    obtain ⟨e, he⟩ := Option.isSome_iff_exists.mp (Tree.example?_isSome_of_mem hspec hu)
    obtain ⟨ms, hms⟩ := Tree.exists_keyed he
    exact ⟨ms, hms, hms.record?_eq (by decide)⟩
  · have hread := toOption_parseSpec_keyed ht hkeyed
    rw [String.ofList_toList] at hread
    rw [eq_ok_iff, hread]

theorem not_shown_object (members : List (String × Tree)) (rest : List Char) :
    ¬Shown (SpellsSource (.object members)) ('[' :: rest) := by
  rintro ⟨mended, hm, hs⟩
  have hhead := hm.head?_eq
  cases hs with
  | @intro before text after hb ht ha =>
    cases ht with
    | object =>
      cases before with
      | nil => cases hhead
      | cons b before =>
        obtain rfl : '[' = b := Option.some.inj hhead
        cases hb '[' List.mem_cons_self

/-- Neither the spec nor its example has a key. -/
theorem parseSpec_keyed_arrays :
    let source := "[\"f\",[[[true],false]]]"
    let examples := Tree.array [.array [.array [.boolean true], .boolean false]]
    let spec : Spec :=
      { subject := "f"
        examples := some [{ arguments := some [.raw "true"], returns := some (.raw "false") }] }
    SourceFormat.json.parseSpec source = .ok spec ∧
      (∃ t members, Shown (SpellsSource t) source.toList ∧
        Tree.Keyed ["subject", "examples"] t members ∧
        Tree.spec? numberAlone? (.object members) = some spec ∧
        ∀ u ∈ Tree.exampleTrees members, ∃ ms, Tree.Keyed ["arguments", "return"] u ms ∧
          Tree.example? numberAlone? u = Tree.example? numberAlone? (.object ms)) ∧
      SpellsSource (.array [.text "f", examples]) source.toList ∧
      Tree.spec? numberAlone? (.object [("subject", .text "f"), ("examples", examples)]) =
        some spec := by
  intro source examples spec
  obtain ⟨hkeyed, hconverse⟩ := parseSpec_keyed source spec
  have hnone : Blanks [] := by decide
  have hsubject : SpellsText "f".toList "f".toList := .plain (by decide)
  have harguments : Spells (.array [.boolean true]) _ :=
    .array (.next hnone hnone .isTrue (.done hnone))
  have hexample : Spells (.array [.array [.boolean true], .boolean false]) _ :=
    .array (.next hnone hnone harguments (.next hnone hnone .isFalse (.done hnone)))
  have hexamples : Spells examples _ := .array (.next hnone hnone hexample (.done hnone))
  have htext : SpellsSource (.array [.text "f", examples]) _ :=
    .intro hnone (.array (.next hnone hnone (.text hsubject) (.next hnone hnone hexamples
      (.done hnone)))) hnone
  have hsource : SpellsSource (.array [.text "f", examples]) source.toList := by
    refine Eq.mp (congrArg (SpellsSource _) ?_) htext
    decide
  have hspec : Tree.spec? numberAlone?
      (.object [("subject", .text "f"), ("examples", examples)]) = some spec := rfl
  have hread := (hconverse _ _ hsource (.array (by decide))).mpr hspec
  exact ⟨hread, hkeyed hread, hsource, hspec⟩

/-- A source that is accepted need be no object, and neither need its examples be. -/
theorem arrays_are_accepted : ¬∀ source s, SourceFormat.json.parseSpec source = .ok s →
    ∃ members, Shown (SpellsSource (.object members)) source.toList ∧
      ∀ u ∈ Tree.exampleTrees members, ∃ ms, u = .object ms := by
  intro h
  obtain ⟨members, hs, -⟩ := h "[\"f\",[[[true],false]]]" _ rfl
  exact not_shown_object members _ hs

end ExampleTests.Json
