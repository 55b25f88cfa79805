import ExampleTests.FileTree
import ExampleTests.Loading
import Mathlib.Data.List.TakeDrop

/-! The format of a source from the name of its file. Only the last name of a path
counts, and of that only its ending; a file whose name ends otherwise is not even
looked for. -/

namespace ExampleTests

namespace PathName

/-- What may stand behind the last name of a path and leads nowhere. -/
inductive Trailing : Bytes → Prop where
  | nothing : Trailing []
  | separator {rest : Bytes} (h : Trailing rest) : Trailing (slash :: rest)
  | here {rest : Bytes} (h : Trailing rest) : Trailing (slash :: dot :: rest)

structure IsName (name : Bytes) : Prop where
  nonempty : name ≠ []
  notHere : name ≠ [dot]
  notUp : name ≠ [dot, dot]
  noSlash : slash ∉ name

/-- A path that ends in a name, behind nothing or a directory with its slash. -/
structure EndsIn (p : PathName) (name : Bytes) : Prop where
  isName : IsName name
  split : ∃ front tail, p.bytes = front ++ (name ++ tail) ∧
    (front = [] ∨ ∃ directory, front = directory ++ [slash]) ∧ Trailing tail

/-- A path from inside a directory. -/
def under (directory : Bytes) (p : PathName) : PathName := ⟨directory ++ slash :: p.bytes⟩

theorem staysInPlace_iff {piece : Bytes} : staysInPlace piece = true ↔ piece = [] ∨ piece = [dot] := by
  simp [staysInPlace]

theorem isName_iff {name : Bytes} (h : slash ∉ name) :
    IsName name ↔ staysInPlace name = false ∧ goesUp name = false := by
  rw [← Bool.not_eq_true, staysInPlace_iff, ← Bool.not_eq_true, goesUp, beq_iff_eq, not_or]
  exact ⟨fun hn => ⟨⟨hn.nonempty, hn.notHere⟩, hn.notUp⟩, fun hn => ⟨hn.1.1, hn.1.2, hn.2, h⟩⟩

theorem slash_not_mem_of_mem_splitOn {bytes piece : Bytes} (h : piece ∈ bytes.splitOn slash) :
    slash ∉ piece := by
  induction bytes generalizing piece with
  | nil =>
    obtain rfl := List.mem_singleton.mp h
    exact List.not_mem_nil
  | cons b bytes ih =>
    rw [List.splitOn_cons_eq_if_modifyHead] at h
    obtain ⟨head, pieces, hs⟩ := List.exists_cons_of_ne_nil (List.splitOn_ne_nil slash bytes)
    rw [hs] at h ih
    by_cases hb : b = slash
    · rw [if_pos (beq_iff_eq.mpr hb)] at h
      rcases List.mem_cons.mp h with rfl | h
      · exact List.not_mem_nil
      · exact ih h
    · rw [if_neg (mt beq_iff_eq.mp hb)] at h
      rcases List.mem_cons.mp h with rfl | h
      · exact List.not_mem_cons_of_ne_of_not_mem (Ne.symm hb) (ih List.mem_cons_self)
      · exact ih (List.mem_cons_of_mem head h)

theorem Trailing.splitOn {tail : Bytes} (h : Trailing tail) {name : Bytes} (hn : slash ∉ name) :
    ∃ more, (name ++ tail).splitOn slash = name :: more ∧
      ∀ piece ∈ more, staysInPlace piece = true := by
  induction h generalizing name with
  | nothing => exact ⟨[], by rw [List.append_nil, List.splitOn_eq_singleton hn], nofun⟩
  | separator h ih =>
    obtain ⟨more, hm, hall⟩ := ih List.not_mem_nil
    refine ⟨[] :: more, ?_, List.forall_mem_cons.mpr ⟨rfl, hall⟩⟩
    rw [List.nil_append] at hm
    rw [List.splitOn_append_cons_self, List.splitOn_eq_singleton hn, hm, List.singleton_append]
  | here h ih =>
    obtain ⟨more, hm, hall⟩ := @ih [dot] (by decide)
    refine ⟨[dot] :: more, ?_, List.forall_mem_cons.mpr ⟨by decide, hall⟩⟩
    rw [List.singleton_append] at hm
    rw [List.splitOn_append_cons_self, List.splitOn_eq_singleton hn, hm, List.singleton_append]

theorem trailing_flatMap {pieces : List Bytes} (h : ∀ piece ∈ pieces, staysInPlace piece = true) :
    Trailing (pieces.flatMap (slash :: ·)) := by
  induction pieces with
  | nil => exact .nothing
  | cons piece pieces ih =>
    have hrest := ih fun p hp => h p (List.mem_cons_of_mem piece hp)
    rw [List.flatMap_cons]
    rcases staysInPlace_iff.mp (h piece List.mem_cons_self) with rfl | rfl
    · exact .separator hrest
    · exact .here hrest

theorem intercalate_pieces (before : List Bytes) (name : Bytes) (after : List Bytes) :
    [slash].intercalate (before ++ name :: after) =
      before.flatMap (· ++ [slash]) ++ (name ++ after.flatMap (slash :: ·)) := by
  induction before with
  | nil =>
    induction after generalizing name with
    | nil => simp
    | cons piece after ih =>
      simp only [List.nil_append, List.flatMap_nil] at ih ⊢
      rw [List.intercalate_cons_cons, ih, List.flatMap_cons]
      simp
  | cons piece before ih =>
    obtain ⟨next, more, hnext⟩ := List.exists_cons_of_ne_nil
      (List.append_ne_nil_of_right_ne_nil before (List.cons_ne_nil name after))
    rw [hnext] at ih
    rw [List.cons_append, hnext, List.intercalate_cons_cons, ih, List.flatMap_cons]
    simp only [List.append_assoc]

theorem flatMap_slash (pieces : List Bytes) : pieces.flatMap (· ++ [slash]) = [] ∨
    ∃ directory, pieces.flatMap (· ++ [slash]) = directory ++ [slash] := by
  rcases List.eq_nil_or_concat pieces with rfl | ⟨init, last, rfl⟩
  · exact .inl rfl
  · refine .inr ⟨init.flatMap (· ++ [slash]) ++ last, ?_⟩
    simp [List.append_assoc]

theorem EndsIn.pieces_eq {p : PathName} {name : Bytes} (h : p.EndsIn name) :
    ∃ before after, p.pieces = before ++ name :: after ∧
      ∀ piece ∈ after, staysInPlace piece = true := by
  obtain ⟨front, tail, hb, hf, ht⟩ := h.split
  obtain ⟨more, hm, hall⟩ := ht.splitOn h.isName.noSlash
  rw [pieces, hb]
  rcases hf with rfl | ⟨directory, rfl⟩
  · exact ⟨[], more, hm, hall⟩
  · refine ⟨directory.splitOn slash, more, ?_, hall⟩
    rw [List.append_assoc, List.singleton_append, List.splitOn_append_cons_self, hm]

/-- The name of a file is the last name of its path. -/
theorem fileName?_eq_some_iff {p : PathName} {name : Bytes} :
    p.fileName? = some name ↔ p.EndsIn name := by
  rw [fileName?, Option.filter_eq_some_iff, List.getLast?_eq_some_iff]
  constructor
  · rintro ⟨⟨names, hl⟩, hup⟩
    obtain ⟨before, rest, hp, -, hrest⟩ := List.filter_eq_append_iff.mp hl
    obtain ⟨between, after, rfl, -, hstays, hafter⟩ := List.filter_eq_cons_iff.mp hrest
    have hp' : p.pieces = (before ++ between) ++ name :: after := by
      rw [hp, List.append_assoc]
    have hmem : name ∈ p.pieces := by simp [hp']
    have hall : ∀ piece ∈ after, staysInPlace piece = true := by
      simpa using List.filter_eq_nil_iff.mp hafter
    refine ⟨(isName_iff (slash_not_mem_of_mem_splitOn hmem)).mpr ⟨by simpa using hstays, by simpa using hup⟩,
      _, _, ?_, flatMap_slash (before ++ between), trailing_flatMap hall⟩
    rw [← intercalate_pieces, ← hp']
    exact (List.intercalate_splitOn slash).symm
  · intro h
    obtain ⟨before, after, hp, hall⟩ := h.pieces_eq
    obtain ⟨hstays, hup⟩ := (isName_iff h.isName.noSlash).mp h.isName
    refine ⟨⟨before.filter (!staysInPlace ·), ?_⟩, by rw [hup]; rfl⟩
    have hafter : after.filter (!staysInPlace ·) = [] :=
      List.filter_eq_nil_iff.mpr fun piece hm => by simp [hall piece hm]
    rw [hp, List.filter_append, List.filter_cons, hstays, hafter]
    rfl

theorem endsIn_under {p : PathName} {name : Bytes} (h : p.EndsIn name) (directory : Bytes) :
    (p.under directory).EndsIn name := by
  obtain ⟨hn, front, tail, hb, hf, ht⟩ := h
  refine ⟨hn, directory ++ slash :: front, tail, ?_, .inr ?_, ht⟩
  · simp [under, hb]
  · rcases hf with rfl | ⟨inner, rfl⟩
    · exact ⟨directory, rfl⟩
    · exact ⟨directory ++ slash :: inner, by simp⟩

/-- A name has an extension if its last dot is not its first byte. -/
theorem extensionOf?_eq_some_iff {name extension : Bytes} : extensionOf? name = some extension ↔
    ∃ stem, stem ≠ [] ∧ name = stem ++ dot :: extension ∧ dot ∉ extension := by
  have hsplit := List.takeWhile_append_dropWhile (p := (· != dot)) (l := name.reverse)
  rw [extensionOf?, List.span_eq_takeWhile_dropWhile]
  constructor
  · intro h
    have hafter : dot ∉ name.reverse.takeWhile (· != dot) := fun hm => by
      have hall := List.all_takeWhile (p := (· != dot)) (l := name.reverse)
      simpa using List.all_eq_true.mp hall dot hm
    have hhead := List.head?_dropWhile_not (· != dot) name.reverse
    generalize name.reverse.takeWhile (· != dot) = after at *
    generalize name.reverse.dropWhile (· != dot) = before at *
    match before with
    | [] => cases h
    | [_] => cases h
    | b :: c :: before =>
      cases h
      obtain rfl : b = dot := by simpa using hhead
      refine ⟨(c :: before).reverse, by simp, ?_, ?_⟩
      · rw [← List.reverse_reverse name, ← hsplit]
        simp
      · simpa using hafter
  · rintro ⟨stem, hne, rfl, hdot⟩
    have hall : ∀ b ∈ extension.reverse, (b != dot) = true := by
      intro b hb
      rw [bne_iff_ne]
      rintro rfl
      exact hdot (List.mem_reverse.mp hb)
    have hname : (stem ++ dot :: extension).reverse = extension.reverse ++ dot :: stem.reverse := by
      simp
    rw [hname, List.takeWhile_append_of_pos hall, List.dropWhile_append_of_pos hall]
    obtain ⟨b, bs, hs⟩ := List.exists_cons_of_ne_nil (List.reverse_ne_nil_iff.mpr hne)
    simp [hs]

/-- What the extension of a path is: the ending of its last name. -/
theorem extension?_eq_some_iff {p : PathName} {extension : Bytes} (hd : dot ∉ extension) :
    p.extension? = some extension ↔
      ∃ stem, stem ≠ [] ∧ p.EndsIn (stem ++ dot :: extension) := by
  rw [extension?, Option.bind_eq_some_iff]
  simp only [fileName?_eq_some_iff, extensionOf?_eq_some_iff]
  constructor
  · rintro ⟨name, hn, stem, hne, rfl, -⟩
    exact ⟨stem, hne, hn⟩
  · rintro ⟨stem, hne, hn⟩
    exact ⟨_, hn, stem, hne, rfl, hd⟩

end PathName

namespace SourceFormat

theorem ofExtension?_eq_json_iff {bytes : Bytes} :
    ofExtension? bytes = some json ↔ bytes = Text.encode "json" := by
  unfold ofExtension?
  split
  · simp_all
  · split <;> simp_all

theorem ofExtension?_eq_yaml_iff {bytes : Bytes} :
    ofExtension? bytes = some yaml ↔ bytes = Text.encode "yaml" ∨ bytes = Text.encode "yml" := by
  have hy : Text.encode "yaml" ≠ Text.encode "json" := by decide +kernel
  have hs : Text.encode "yml" ≠ Text.encode "json" := by decide +kernel
  unfold ofExtension?
  split
  · rename_i h
    simp [h, hy.symm, hs.symm]
  · split <;> simp_all

theorem ofPath_eq_ok_iff {p : PathName} {format : SourceFormat} :
    ofPath p = .ok format ↔ ∃ extension, p.extension? = some extension ∧
      ofExtension? extension = some format := by
  rw [← Option.bind_eq_some_iff, ofPath]
  cases p.extension?.bind ofExtension? <;> simp

/-- The format of a file is that of the ending of its name, which stands behind at
least one byte. A path without such an ending is reported before anything is read, and
a directory in front of a name has no part in the choice. -/
theorem ofPath_eq_iff (p : PathName) :
    (ofPath p = .ok json ↔ ∃ stem, stem ≠ [] ∧ p.EndsIn (stem ++ Text.encode ".json")) ∧
    (ofPath p = .ok yaml ↔ ∃ stem, stem ≠ [] ∧
      (p.EndsIn (stem ++ Text.encode ".yaml") ∨ p.EndsIn (stem ++ Text.encode ".yml"))) ∧
    (∀ name, p.EndsIn name → ∀ directory,
      (ofPath (p.under directory)).toOption = (ofPath p).toOption) ∧
    ∀ e, ofPath p = .error e → e = .unsupported p ∧
      ∀ {m : Type → Type} [Monad m] (files : FileAccess m),
        loadSpec files p = pure ⟨.error (.unsupported p), []⟩ := by
  have hjson : Text.encode ".json" = PathName.dot :: Text.encode "json" := by decide +kernel
  have hyaml : Text.encode ".yaml" = PathName.dot :: Text.encode "yaml" := by decide +kernel
  have hyml : Text.encode ".yml" = PathName.dot :: Text.encode "yml" := by decide +kernel
  have hdot : ∀ word ∈ ["json", "yaml", "yml"], PathName.dot ∉ Text.encode word := by decide +kernel
  refine ⟨?_, ?_, fun name hn directory => ?_, fun e he => ?_⟩
  · rw [ofPath_eq_ok_iff, hjson, ← PathName.extension?_eq_some_iff (hdot "json" (by simp))]
    simp only [ofExtension?_eq_json_iff, exists_eq_right]
  · simp only [ofPath_eq_ok_iff, ofExtension?_eq_yaml_iff, hyaml, hyml, and_or_left, exists_or,
      exists_eq_right]
    rw [PathName.extension?_eq_some_iff (hdot "yaml" (by simp)),
      PathName.extension?_eq_some_iff (hdot "yml" (by simp))]
  · have hinside := PathName.fileName?_eq_some_iff.mpr (PathName.endsIn_under hn directory)
    have hname := PathName.fileName?_eq_some_iff.mpr hn
    simp only [ofPath, PathName.extension?, hinside, hname, Option.bind_some]
    cases (PathName.extensionOf? name).bind ofExtension? <;> rfl
  · have hu : e = .unsupported p := by
      rw [ofPath] at he
      split at he
      · cases he
      · exact (Except.error.inj he).symm
    subst hu
    refine ⟨rfl, fun files => ?_⟩
    simp only [loadSpec, he]

/-- A name with two dots in an inner directory, and one whose only dot is its first byte. -/
theorem ofPath_eq_iff_dots :
    let p := PathName.ofString "a.yml/b.c.json/./"
    let hidden := PathName.ofString ".json"
    p.EndsIn (Text.encode "b.c" ++ Text.encode ".json") ∧ ofPath p = .ok json ∧
      (ofPath (p.under (Text.encode "d"))).toOption = some json ∧
      ofPath hidden = .error (.unsupported hidden) ∧
      ∀ tree, loadSpec FileTree.access hidden tree = (⟨.error (.unsupported hidden), []⟩, tree) := by
  intro p hidden
  have hname : p.EndsIn (Text.encode "b.c" ++ Text.encode ".json") := by
    refine ⟨⟨?_, ?_, ?_, ?_⟩, Text.encode "a.yml/", [PathName.slash, PathName.dot, PathName.slash],
      ?_, .inr ⟨Text.encode "a.yml", ?_⟩, .here (.separator .nothing)⟩ <;> decide +kernel
  obtain ⟨hjson, -, hunder, -⟩ := ofPath_eq_iff p
  have hp : ofPath p = .ok json := hjson.mpr ⟨Text.encode "b.c", by decide +kernel, hname⟩
  have he : ofPath hidden = .error (.unsupported hidden) := by
    have hx : hidden.extension? = none := by decide +kernel
    rw [ofPath, hx]
    rfl
  obtain ⟨-, -, -, herror⟩ := ofPath_eq_iff hidden
  have hd := hunder _ hname (Text.encode "d")
  rw [hp] at hd
  exact ⟨hname, hp, hd, he, fun tree => congrFun ((herror _ he).2 FileTree.access) tree⟩

end SourceFormat

end ExampleTests
