import ExampleTests.FileTree
import ExampleTests.Proofs.Text.Utf8

/-! Files as part of a state. Reading gives the text of a file and changes no state, a
failed write changes none either, and a write that succeeds replaces the content of one
file. The files and directories in memory are such a store. -/

namespace ExampleTests

/-- A result is what is there. Where something is there, only a refusal keeps it back. -/
structure Fetches {ε α : Type} (refusal : String → ε) (held : Option α) (result : Except ε α) :
    Prop where
  ok : ∀ a, result = .ok a → held = some a
  error : ∀ e a, result = .error e → held = some a → ∃ details, e = refusal details

namespace Fetches

variable {ε ε' α β : Type} {refusal : String → ε} {held : Option α} {result : Except ε α}

theorem of_toOption (h : result.toOption = held) : Fetches refusal held result := by
  subst h
  refine ⟨?_, ?_⟩
  · rintro a rfl
    rfl
  · rintro e a rfl ha
    cases ha

/-- What is made of the thing that is there is there too. -/
theorem bind (h : Fetches refusal held result) (wrap : ε → ε') (f : α → Except ε' β) :
    Fetches (wrap ∘ refusal) (held.bind fun a => (f a).toOption) ((result.mapError wrap).bind f) := by
  cases result with
  | ok a =>
    rw [h.ok a rfl]
    exact of_toOption rfl
  | error e =>
    refine ⟨nofun, ?_⟩
    rintro _ b ⟨⟩ hb
    obtain ⟨a, ha, -⟩ := Option.bind_eq_some_iff.mp hb
    obtain ⟨details, rfl⟩ := h.error e a rfl ha
    exact ⟨details, rfl⟩

end Fetches

/-- Which file a name leads to in a state, and what each file holds. -/
structure FileView (σ : Type) where
  File : Type
  file? : σ → PathName → Option File
  content? : σ → File → Option Bytes

/-- The file of a name holds a text, and every other file what it held before. -/
def FileView.Replaced {σ : Type} (v : FileView σ) (name : PathName) (text : String)
    (before after : σ) : Prop :=
  ∃ file, v.file? after name = some file ∧ v.content? after file = some (Text.encode text) ∧
    ∀ other, other ≠ file → v.content? after other = v.content? before other

def FileView.text? {σ : Type} (v : FileView σ) (s : σ) (name : PathName) : Option String :=
  (v.file? s name).bind fun file => (v.content? s file).bind Text.decode?

/-- What has been written to a file is its text. -/
theorem FileView.Replaced.text?_eq {σ : Type} {v : FileView σ} {name : PathName} {text : String}
    {before after : σ} (h : v.Replaced name text before after) : v.text? after name = some text := by
  obtain ⟨file, hfile, hcontent, -⟩ := h
  rw [FileView.text?, hfile, Option.bind_some, hcontent, Option.bind_some, Text.decode?_encode]

structure FileStore (σ : Type) extends FileView σ where
  access : FileAccess (StateM σ)
  read_fetches : ∀ s name, Fetches .other (toFileView.text? s name) (access.read name s).1
  read_keeps : ∀ s name, (access.read name s).2 = s
  failed_write_keeps : ∀ s name text e,
    (access.write name text s).1 = .error e → (access.write name text s).2 = s
  write_replaces : ∀ s name text, (access.write name text s).1 = .ok () →
    toFileView.Replaced name text s (access.write name text s).2

namespace FileTree

/-- Where a file stands, or where one can be put. -/
def placeOf? : Reached → Option Place
  | .file place _ => some place
  | .vacant place => place
  | .directory _ => none

def look (t : FileTree) (place : Place) : Reached :=
  match t.entry? place with
  | none => .vacant (some place)
  | some .directory => .directory (some place)
  | some (.file content) => .file place content

/-- What has been reached is what the tree holds there. -/
def Describes (t : FileTree) (r : Reached) : Prop :=
  ∀ place, placeOf? r = some place → r = t.look place

theorem put_entry_self (t : FileTree) (place : Place) (e : Entry) :
    FileTree.entry? (t.put place e) place = some e := by
  simp [put]

theorem put_entry_other (t : FileTree) {place other : Place} (e : Entry) (h : other ≠ place) :
    FileTree.entry? (t.put place e) other = t.entry? other := by
  simp [put, h]

theorem placeOf?_look {t : FileTree} {place q : Place} (h : placeOf? (t.look place) = some q) :
    q = place := by
  simp only [look] at h
  split at h <;> cases h <;> rfl

/-- A step from a directory looks at one place of the tree, or at none and then
leads to no place for a file. -/
theorem next_directory (start : Option Place) (piece : Bytes) :
    (∃ result, (∀ t : FileTree, t.next (.directory start) piece = result) ∧
      ∀ r, result = .ok r → placeOf? r = none) ∨
    ∃ place, ∀ t : FileTree, t.next (.directory start) piece = .ok (t.look place) := by
  by_cases hs : PathName.staysInPlace piece = true
  · exact .inl ⟨_, fun t => if_pos hs, fun r h => by cases h; rfl⟩
  by_cases hu : PathName.goesUp piece = true
  · exact .inl ⟨_, fun t => (if_neg hs).trans (if_pos hu), fun r h => by cases h; rfl⟩
  by_cases hl : longestPiece < piece.length
  · exact .inl ⟨_, fun t => (if_neg hs).trans ((if_neg hu).trans (if_pos hl)), nofun⟩
  have hn : ∀ t : FileTree, t.next (.directory start) piece = _ :=
    fun t => (if_neg hs).trans ((if_neg hu).trans (if_neg hl))
  cases start with
  | none => exact .inl ⟨_, hn, fun r h => by cases h; rfl⟩
  | some p =>
    refine .inr ⟨p ++ [piece], fun t => (hn t).trans ?_⟩
    simp only [look]
    split <;> simp_all

theorem next_describes {t : FileTree} {r r' : Reached} {piece : Bytes}
    (h : t.next r piece = .ok r') : t.Describes r' := by
  cases r with
  | file place content => cases h
  | vacant place => cases h
  | directory start =>
    intro place hp
    rcases next_directory start piece with ⟨result, hn, hr⟩ | ⟨q, hn⟩
    · rw [hr r' ((hn t).symm.trans h)] at hp
      cases hp
    · rw [hn t] at h
      cases h
      rw [placeOf?_look hp]

theorem foldlM_next_describes {t : FileTree} {pieces : List Bytes} {r r' : Reached}
    (hr : t.Describes r) (h : pieces.foldlM t.next r = .ok r') : t.Describes r' := by
  induction pieces generalizing r with
  | nil => cases h; exact hr
  | cons piece pieces ih =>
    rw [List.foldlM_cons] at h
    cases hn : t.next r piece with
    | error e => rw [hn] at h; cases h
    | ok r₁ => rw [hn] at h; exact ih (next_describes hn) h

theorem foldlM_next_stops {t : FileTree} {pieces : List Bytes} {r r' : Reached}
    (hr : ∀ place, r ≠ .directory place) (h : pieces.foldlM t.next r = .ok r') :
    pieces = [] ∧ r' = r := by
  cases pieces with
  | nil => cases h; exact ⟨rfl, rfl⟩
  | cons piece pieces =>
    cases r with
    | directory place => exact absurd rfl (hr place)
    | file place content => cases h
    | vacant place => cases h

/-- A directory on the way is none that a new file takes the place of. -/
theorem next_put_directory {t : FileTree} {place : Place} {content : Bytes}
    (hp : t.entry? place ≠ some .directory) {start up : Option Place} {piece : Bytes}
    (h : t.next (.directory start) piece = .ok (.directory up)) :
    (t.put place (.file content)).next (.directory start) piece = .ok (.directory up) := by
  rcases next_directory start piece with ⟨result, hn, _⟩ | ⟨q, hn⟩
  · rw [hn _, ← hn t, h]
  · rw [hn t] at h
    have hq : q ≠ place := by
      rintro rfl
      simp only [look] at h
      split at h <;> simp_all
    rw [hn _, ← h, look, look, put_entry_other t _ hq]

theorem next_put_end {t : FileTree} {place : Place} {content : Bytes} {start : Option Place}
    {piece : Bytes} {r : Reached} (h : t.next (.directory start) piece = .ok r)
    (hr : placeOf? r = some place) :
    (t.put place (.file content)).next (.directory start) piece = .ok (.file place content) := by
  rcases next_directory start piece with ⟨result, hn, hnone⟩ | ⟨q, hn⟩
  · rw [hnone r ((hn t).symm.trans h)] at hr
    cases hr
  · rw [hn t] at h
    cases h
    rw [hn _, placeOf?_look hr, look, put_entry_self]

theorem foldlM_next_put {t : FileTree} {place : Place} {content : Bytes} {pieces : List Bytes}
    {start : Option Place} {r : Reached} (h : pieces.foldlM t.next (.directory start) = .ok r)
    (hr : placeOf? r = some place) :
    pieces.foldlM (t.put place (.file content)).next (.directory start) =
      .ok (.file place content) := by
  -- The walk ends at the place with no directory, so it passes through others only.
  have hp : t.entry? place ≠ some .directory := by
    intro hd
    have hl := foldlM_next_describes (fun _ h => by cases h) h place hr
    rw [look, hd] at hl
    rw [hl] at hr
    cases hr
  induction pieces generalizing start with
  | nil => cases h; cases hr
  | cons piece pieces ih =>
    rw [List.foldlM_cons] at h ⊢
    cases hn : t.next (.directory start) piece with
    | error e => rw [hn] at h; cases h
    | ok r₁ =>
      rw [hn] at h
      cases r₁ with
      | directory q => rw [next_put_directory hp hn]; exact ih h
      | file q c =>
        obtain ⟨rfl, rfl⟩ := foldlM_next_stops (by simp) h
        rw [next_put_end hn hr]
        rfl
      | vacant q =>
        obtain ⟨rfl, rfl⟩ := foldlM_next_stops (by simp) h
        rw [next_put_end hn hr]
        rfl

theorem follow_ok_iff {t : FileTree} {name : PathName} {pieces : List Bytes} {r : Reached} :
    t.follow name pieces = .ok r ↔
      (0 ∉ name.bytes ∧ name.bytes ≠ [] ∧ name.bytes.length ≤ longestName) ∧
        pieces.foldlM t.next (.directory (if name.isAbsolute then none else some [])) = .ok r := by
  by_cases hz : 0 ∈ name.bytes
  · simp [follow, hz]
  by_cases he : name.bytes = []
  · simp [follow, he]
  by_cases hl : longestName < name.bytes.length
  · simp [follow, hz, he, hl, Nat.not_le_of_lt hl]
  · simp [follow, hz, he, hl, Nat.le_of_not_lt hl]

theorem follow_put {t : FileTree} {place : Place} {content : Bytes} {name : PathName}
    {pieces : List Bytes} {r : Reached} (h : t.follow name pieces = .ok r)
    (hr : placeOf? r = some place) :
    (t.put place (.file content)).follow name pieces = .ok (.file place content) := by
  have hf := follow_ok_iff.mp h
  exact follow_ok_iff.mpr ⟨hf.1, foldlM_next_put hf.2 hr⟩

def file? (t : FileTree) (name : PathName) : Option Place :=
  match t.follow name name.pieces with
  | .ok (.file place _) => some place
  | _ => none

def contentAt? (t : FileTree) (place : Place) : Option Bytes :=
  match t.entry? place with
  | some (.file content) => some content
  | _ => none

def view : FileView FileTree := ⟨Place, file?, contentAt?⟩

theorem contentAt?_of_follow {t : FileTree} {name : PathName} {pieces : List Bytes} {place : Place}
    {content : Bytes} (h : t.follow name pieces = .ok (.file place content)) :
    t.contentAt? place = some content := by
  have hd : Reached.file place content = t.look place :=
    foldlM_next_describes (fun _ h => by cases h) (follow_ok_iff.mp h).2 place rfl
  cases he : t.entry? place with
  | none => simp [look, he] at hd
  | some e =>
    cases e with
    | directory => simp [look, he] at hd
    | file c =>
      rw [look, he] at hd
      rw [contentAt?, he]
      exact congrArg some (Reached.file.inj hd).2.symm

theorem toOption_read (t : FileTree) (name : PathName) :
    (t.read name).toOption = view.text? t name := by
  have htext : view.text? t name = (t.file? name).bind fun place =>
      (t.contentAt? place).bind Text.decode? := rfl
  rw [htext, read, file?]
  cases hf : t.follow name name.pieces with
  | error e => rfl
  | ok reached =>
    cases reached with
    | directory place => rfl
    | vacant place => rfl
    | file place content =>
      rw [Option.bind_some, contentAt?_of_follow hf, Option.bind_some]
      simp only [bind, Except.bind]
      cases Text.decode? content <;> rfl

end FileTree

namespace PathName

theorem getLast?_intercalate_slash {ps : List Bytes} (h : ps ≠ []) :
    ([slash].intercalate (ps ++ [[]])).getLast? = some slash := by
  induction ps with
  | nil => exact absurd rfl h
  | cons p ps ih =>
    cases ps with
    | nil => simp
    | cons q qs =>
      have hi := ih (by simp)
      rw [List.cons_append, List.cons_append, List.intercalate_cons_cons, List.getLast?_append]
      rw [List.cons_append] at hi
      rw [hi]
      rfl

/-- A name that does not end in a slash has no empty piece at its end. -/
theorem pieces_trimmed {name : PathName} (hne : name.bytes ≠ [])
    (hs : name.bytes.getLast? ≠ some slash) :
    (name.pieces.reverse.dropWhile (·.isEmpty)).reverse = name.pieces := by
  have hb : [slash].intercalate name.pieces = name.bytes := List.intercalate_splitOn slash
  rcases List.eq_nil_or_concat name.pieces with hp | ⟨ps, p, hp⟩
  · rw [hp]; rfl
  · have hpe : p ≠ [] := by
      rintro rfl
      rw [hp, List.concat_eq_append] at hb
      by_cases hps : ps = []
      · subst hps
        exact hne hb.symm
      · exact hs (hb ▸ getLast?_intercalate_slash hps)
    simp [hp, hpe]

end PathName

namespace FileTree

theorem write_ok {t t' : FileTree} {name : PathName} {text : String}
    (h : t.write name text = .ok t') : ∃ r place, t.follow name name.pieces = .ok r ∧
      placeOf? r = some place ∧ t' = t.put place (.file (Text.encode text)) := by
  cases hf : t.follow name (name.pieces.reverse.dropWhile (·.isEmpty)).reverse with
  | error e => simp [write, hf, bind, Except.bind] at h
  | ok r =>
    by_cases hs : name.bytes.getLast? = some PathName.slash
    · simp [write, hf, hs, bind, Except.bind] at h
    simp only [write, hf, bind, Except.bind, if_neg hs] at h
    rw [PathName.pieces_trimmed (follow_ok_iff.mp hf).1.2.1 hs] at hf
    cases r with
    | directory place => cases h
    | file place content => cases h; exact ⟨_, place, hf, rfl, rfl⟩
    | vacant place =>
      cases place with
      | none => cases h
      | some place => cases h; exact ⟨_, place, hf, rfl, rfl⟩

theorem write_replaces {t t' : FileTree} {name : PathName} {text : String}
    (h : t.write name text = .ok t') : view.Replaced name text t t' := by
  obtain ⟨r, place, hf, hr, rfl⟩ := write_ok h
  refine ⟨place, ?_, ?_, fun other ho => ?_⟩
  · simp only [view, file?, follow_put hf hr]
  · simp only [view, contentAt?, put_entry_self]
  · simp only [view, contentAt?, put_entry_other t _ ho]

def store : FileStore FileTree where
  toFileView := view
  access := access
  read_fetches t name := .of_toOption (toOption_read t name)
  read_keeps _ _ := rfl
  failed_write_keeps t name text e h := by
    simp only [access] at h ⊢
    cases hw : t.write name text with
    | error e => rfl
    | ok t' => rw [hw] at h; cases h
  write_replaces t name text h := by
    simp only [access] at h ⊢
    cases hw : t.write name text with
    | error e => rw [hw] at h; cases h
    | ok t' => exact write_replaces hw

end FileTree

end ExampleTests
