import ExampleTests.Json.Read
import ExampleTests.Proofs.Json.Number
import ExampleTests.Proofs.Json.Text

/-! Readers on the parts that are written. A part is read to the same result
in front of everything that ends it, and this carries over from the parts of an
array or object to the whole, the first fault included. -/

namespace ExampleTests.Json

variable {α β σ : Type}

/-- The reader takes exactly the text, or fails in it; only the place of a fault
depends on what follows. -/
structure Reads (read : Reader α) (text : List Char) (result : Except Reason α) : Prop where
  opens : ∃ c cs, text = c :: cs ∧ isBlank c = false ∧ c ≠ ']'
  reads : ∀ rest, Delimited rest →
    (read (text ++ rest)).mapError Fault.reason = result.map fun a => (a, rest)

theorem mapError_bind {ε ε' : Type} (x : Except ε α) (next : α → Except ε β) (f : ε → ε') :
    (x >>= next).mapError f = x.mapError f >>= fun a => (next a).mapError f := by
  cases x <;> rfl

theorem skipBlanks_cons {c : Char} (h : isBlank c = false) (rest : List Char) :
    skipBlanks (c :: rest) = c :: rest := by
  simp [skipBlanks, h]

theorem delimited_cons {c : Char} (h : c = ',' ∨ c = ']' ∨ c = '}') (rest : List Char) :
    Delimited (c :: rest) := by
  intro d hd
  cases hd
  rcases h with rfl | rfl | rfl <;> decide

/-- Parts of an array or object from one of them on, each with the comma in front of it. -/
def separated : Bool → List (List Char) → List Char
  | _, [] => []
  | first, part :: parts => (if first then [] else [',']) ++ part ++ separated false parts

theorem commas_eq_separated (parts : List (List Char)) : commas parts = separated true parts := by
  have hf : ∀ (part : List Char) (parts : List (List Char)),
      commas (part :: parts) = part ++ separated false parts := by
    intro part parts
    induction parts generalizing part with
    | nil => simp [commas, separated]
    | cons next parts ih =>
      simp only [commas, separated, Bool.false_eq_true, if_false] at ih ⊢
      rw [ih next]
      rfl
  cases parts with
  | nil => rfl
  | cons part parts => simp [hf part parts, separated]

theorem length_le_separated (first : Bool) (parts : List (List Char)) :
    parts.length ≤ (separated first parts).length + 1 := by
  have hf : ∀ parts : List (List Char), parts.length ≤ (separated false parts).length := by
    intro parts
    induction parts with
    | nil => exact Nat.le_refl 0
    | cons part parts ih =>
      simp only [separated, List.length_append, List.length_cons, Bool.false_eq_true, if_false]
      omega
  cases parts with
  | nil => exact Nat.zero_le _
  | cons part parts =>
    have hp := hf parts
    simp only [separated, List.length_append, List.length_cons]
    omega

theorem delimited_separated (parts : List (List Char)) {c : Char} (h : c = ']' ∨ c = '}')
    (rest : List Char) : Delimited (separated false parts ++ c :: rest) := by
  cases parts with
  | nil => exact delimited_cons (.inr h) rest
  | cons part parts => exact delimited_cons (.inl rfl) _

section Arrays

theorem nextElement_part {c : Char} (hb : isBlank c = false) (hc : c ≠ ']') (first : Bool)
    (rest : List Char) :
    nextElement first ((if first then [] else [',']) ++ c :: rest) = .ok (some (c :: rest)) := by
  cases first with
  | true =>
    simp only [if_true, List.nil_append, nextElement, skipBlanks_cons hb]
  | false =>
    have hs : skipBlanks (',' :: c :: rest) = ',' :: c :: rest := rfl
    simp only [Bool.false_eq_true, if_false, List.cons_append, List.nil_append, nextElement, hs]
    split
    case h_1 he => cases he
    case h_2 he => cases he
    case h_3 he =>
      cases he
      rw [if_pos rfl, skipBlanks_cons hb]
      split <;> simp_all

theorem readElements_separated {read : Reader β} {write : α → List Char}
    {result : α → Except Reason β} {xs : List α}
    (h : ∀ x ∈ xs, Reads read (write x) (result x)) (first : Bool) {fuel : Nat}
    (hf : xs.length < fuel) (rest : List Char) :
    (readElements read fuel first (separated first (xs.map write) ++ ']' :: rest)).mapError
      Fault.reason = (xs.mapM result).map fun ys => (ys, rest) := by
  induction xs generalizing first fuel with
  | nil =>
    obtain ⟨fuel, rfl⟩ := Nat.exists_eq_add_one_of_ne_zero (Nat.ne_of_gt hf)
    rfl
  | cons x xs ih =>
    obtain ⟨fuel, rfl⟩ := Nat.exists_eq_add_one_of_ne_zero (Nat.ne_of_gt (Nat.zero_lt_of_lt hf))
    have hi := ih (fun y hy => h y (List.mem_cons_of_mem x hy)) false (Nat.lt_of_succ_lt_succ hf)
    obtain ⟨⟨c, cs, hx, hb, hc⟩, hr⟩ := h x List.mem_cons_self
    -- A comma or the bracket follows the element, so it is read as a part on its own.
    have hr := hr _ (delimited_separated (xs.map write) (.inl rfl) rest)
    have hn := nextElement_part hb hc first (cs ++ (separated false (xs.map write) ++ ']' :: rest))
    rw [← List.cons_append, ← hx] at hn
    rw [List.map_cons, separated, List.append_assoc, List.append_assoc, readElements, hn]
    refine (mapError_bind (read _) _ _).trans ?_
    rw [hr, List.mapM_cons]
    cases result x with
    | error e => rfl
    | ok y =>
      refine (mapError_bind (readElements read fuel false _) _ _).trans ?_
      rw [hi]
      cases xs.mapM result <;> rfl

theorem reads_list {read : Reader β} {write : α → List Char} {result : α → Except Reason β}
    {xs : List α} (h : ∀ x ∈ xs, Reads read (write x) (result x)) :
    Reads (readList read) (writeArray (xs.map write)) (xs.mapM result) := by
  refine ⟨⟨'[', _, rfl, rfl, by decide⟩, fun rest _ => ?_⟩
  have hl := length_le_separated true (xs.map write)
  have ht : writeArray (xs.map write) ++ rest =
      '[' :: (separated true (xs.map write) ++ ']' :: rest) := by
    simp [writeArray, commas_eq_separated]
  rw [ht]
  refine readElements_separated h true ?_ rest
  rw [List.length_map] at hl
  rw [List.length_append, List.length_cons]
  omega

end Arrays

section Optional

theorem reads_null (read : Reader α) : Reads (readOptional read) "null".toList (.ok none) := by
  rw [show "null".toList = ['n', 'u', 'l', 'l'] by decide]
  exact ⟨⟨'n', _, rfl, rfl, by decide⟩, fun _ _ => rfl⟩

theorem reads_optional {read : Reader α} {text : List Char} {result : Except Reason α}
    (h : Reads read text result) (hn : text.head? ≠ some 'n') :
    Reads (readOptional read) text (result.map some) := by
  refine ⟨h.opens, fun rest hrest => ?_⟩
  obtain ⟨c, cs, rfl, hb, -⟩ := h.opens
  have hr := h.reads rest hrest
  simp only [List.cons_append, readOptional, skipBlanks_cons hb] at hr ⊢
  split
  case h_1 he => cases he; exact absurd rfl hn
  case h_2 =>
    refine (mapError_bind (read _) _ _).trans ?_
    rw [hr]
    cases result <;> rfl

theorem reads_once {read : Reader α} {text : List Char} {result : Except Reason α}
    (h : Reads read text result) (set : α → σ) :
    ∃ place, Field.once none read set = .value place ∧ Reads place text (result.map set) := by
  refine ⟨_, rfl, h.opens, fun rest hrest => ?_⟩
  refine (mapError_bind (read _) _ _).trans ?_
  rw [h.reads rest hrest]
  cases result <;> rfl

end Optional

section Objects

def present (members : List (String × Option (List Char))) : List (List Char) :=
  members.filterMap fun (name, value) => value.map (writeText name ++ ':' :: ·)

/-- Members read in their order: absent ones are not seen, and each other one goes
into a field that is free, up to the first with a fault. -/
inductive MembersRead (field : σ → String → Field σ) :
    σ → List (String × Option (List Char)) → Except Reason σ → Prop
  | done (s : σ) : MembersRead field s [] (.ok s)
  | absent {s : σ} {name : String} {members : List (String × Option (List Char))}
      {result : Except Reason σ} (next : MembersRead field s members result) :
      MembersRead field s ((name, none) :: members) result
  | read {s s' : σ} {name : String} {text : List Char} {read : Reader σ}
      {members : List (String × Option (List Char))} {result : Except Reason σ}
      (place : field s name = .value read) (member : Reads read text (.ok s'))
      (next : MembersRead field s' members result) :
      MembersRead field s ((name, some text) :: members) result
  | fault {s : σ} {name : String} {text : List Char} {read : Reader σ}
      {members : List (String × Option (List Char))} {reason : Reason}
      (place : field s name = .value read) (member : Reads read text (.error reason)) :
      MembersRead field s ((name, some text) :: members) (.error reason)

theorem nextKey_quote (first : Bool) (rest : List Char) :
    nextKey first ((if first then [] else [',']) ++ '"' :: rest) = .ok (some rest) := by
  cases first <;> rfl

theorem readMembers_member {field : σ → String → Field σ} {s : σ} {name : String}
    {read : Reader σ} (place : field s name = .value read) (first : Bool) (fuel : Nat)
    (text rest : List Char) :
    readMembers field (fuel + 1) first s
      (separated first [writeText name ++ ':' :: text] ++ rest) =
      read (text ++ rest) >>= fun next => readMembers field fuel false next.1 next.2 := by
  have hk := nextKey_quote first (name.toList.flatMap escapeChar ++ '"' :: ':' :: (text ++ rest))
  have ht := readText_escape name (':' :: (text ++ rest))
  have hc : expectColon (':' :: (text ++ rest)) = .ok (text ++ rest) := rfl
  simp only [separated, writeText, List.cons_append, List.nil_append, List.append_assoc,
    List.append_nil, readMembers, hk, ht, hc, place, bind, Except.bind]

theorem readMembers_separated {field : σ → String → Field σ} {s : σ} {name : String}
    {text : List Char} {read : Reader σ} {result : Except Reason σ}
    (place : field s name = .value read) (member : Reads read text result) (first : Bool)
    (fuel : Nat) (parts : List (List Char)) (rest : List Char) :
    (readMembers field (fuel + 1) first s
      (separated first ((writeText name ++ ':' :: text) :: parts) ++ '}' :: rest)).mapError
      Fault.reason =
      result >>= fun s' =>
        (readMembers field fuel false s' (separated false parts ++ '}' :: rest)).mapError
          Fault.reason := by
  have ht : separated first ((writeText name ++ ':' :: text) :: parts) ++ '}' :: rest =
      separated first [writeText name ++ ':' :: text] ++
        (separated false parts ++ '}' :: rest) := by
    simp [separated]
  rw [ht, readMembers_member place, mapError_bind,
    member.reads _ (delimited_separated parts (.inr rfl) rest)]
  cases result <;> rfl

theorem MembersRead.readMembers {field : σ → String → Field σ} {s : σ}
    {members : List (String × Option (List Char))} {result : Except Reason σ}
    (h : MembersRead field s members result) (first : Bool) {fuel : Nat}
    (hf : (present members).length < fuel) (rest : List Char) :
    (readMembers field fuel first s (separated first (present members) ++ '}' :: rest)).mapError
      Fault.reason = result.map fun s => (s, rest) := by
  induction h generalizing first fuel with
  | done s =>
    obtain ⟨fuel, rfl⟩ := Nat.exists_eq_add_one_of_ne_zero (Nat.ne_of_gt hf)
    rfl
  | absent _ ih => exact ih first hf
  | read place member _ ih =>
    obtain ⟨fuel, rfl⟩ := Nat.exists_eq_add_one_of_ne_zero (Nat.ne_of_gt (Nat.zero_lt_of_lt hf))
    refine (readMembers_separated place member first fuel _ rest).trans ?_
    exact ih false (Nat.lt_of_succ_lt_succ hf)
  | fault place member =>
    obtain ⟨fuel, rfl⟩ := Nat.exists_eq_add_one_of_ne_zero (Nat.ne_of_gt (Nat.zero_lt_of_lt hf))
    exact readMembers_separated place member first fuel _ rest

theorem MembersRead.readObject {field : σ → String → Field σ} {s : σ}
    {members : List (String × Option (List Char))} {result : Except Reason σ}
    (h : MembersRead field s members result) (rest : List Char) :
    ∃ inner, writeObject members ++ rest = '{' :: inner ∧
      (readObject field s inner).mapError Fault.reason = result.map fun s => (s, rest) := by
  refine ⟨separated true (present members) ++ '}' :: rest, ?_, h.readMembers true ?_ rest⟩
  · simp [writeObject, commas_eq_separated, present]
  · have hl := length_le_separated true (present members)
    rw [List.length_append, List.length_cons]
    omega

theorem reads_object {field : σ → String → Field σ} {s : σ}
    {members : List (String × Option (List Char))} {result : Except Reason σ}
    (h : MembersRead field s members result) {read : Reader α} (finish : σ → α)
    (hread : ∀ inner, read ('{' :: inner) =
      readObject field s inner >>= fun next => .ok (finish next.1, next.2)) :
    Reads read (writeObject members) (result.map finish) := by
  refine ⟨⟨'{', _, rfl, rfl, by decide⟩, fun rest _ => ?_⟩
  obtain ⟨inner, ht, ho⟩ := h.readObject rest
  rw [ht, hread, mapError_bind, ho]
  cases result <;> rfl

end Objects

theorem reads_all {read : Reader α} {text : List Char} {result : Except Reason α}
    (h : Reads read text result) :
    (readAll read (String.ofList text)).mapError Error.reason = result := by
  have hr := h.reads [] nofun
  rw [List.append_nil] at hr
  simp only [readAll, String.toList_ofList]
  cases hx : read text with
  | error fault =>
    rw [hx] at hr
    cases result with
    | error reason => exact congrArg Except.error (Except.error.inj hr)
    | ok a => cases hr
  | ok x =>
    rw [hx] at hr
    cases result with
    | error reason => cases hr
    | ok a =>
      cases hr
      rfl

end ExampleTests.Json
