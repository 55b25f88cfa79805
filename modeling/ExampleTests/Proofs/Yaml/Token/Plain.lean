import ExampleTests.Yaml.Token.Stream

/-! One-line plain scalars. Such a scalar is a row of words with blanks between
them. It is read whole, up to a colon that ends a key, a comment, the end of its
line or the end of the source. -/

namespace ExampleTests.Yaml

/-- Whether a colon in the text ends a key: a space follows it, or nothing. -/
def endsKey : List Char → Bool
  | [] => false
  | c :: rest => (c = ':' && rest.head?.all isSpace) || endsKey rest

def Blanks (gap : List Char) : Prop := ∀ c ∈ gap, isBlank c = true

structure IsWord (w : List Char) : Prop where
  ne : w ≠ []
  noSpace : ∀ c ∈ w, isSpace c = false
  noKey : endsKey w = false

/-- Words with blanks between them, where a blank begins no comment. -/
inductive Words : List Char → Prop where
  | word {w : List Char} (hw : IsWord w) : Words w
  | cons {w gap text : List Char} (hw : IsWord w) (hg : Blanks gap) (hne : gap ≠ [])
      (hc : text.head? ≠ some '#') (ht : Words text) : Words (w ++ (gap ++ text))

/-- What follows a word: nothing, a space, or a colon that ends a key. -/
def Stops (tail : List Char) : Prop :=
  tail.head?.all isSpace = true ∨ ∃ rest, tail = ':' :: rest ∧ rest.head?.all isSpace = true

theorem isSpace_of_isBlank {c : Char} (h : isBlank c = true) : isSpace c = true := by
  simp [isSpace, h]

theorem not_isBreak_of_isBlank {c : Char} (h : isBlank c = true) : isBreak c = false := by
  simp only [isBlank, Bool.or_eq_true, decide_eq_true_eq] at h
  rcases h with rfl | rfl <;> decide

theorem Words.ne_nil {text : List Char} (h : Words text) : text ≠ [] := by
  cases h with
  | word hw => exact hw.ne
  | cons hw => simp [hw.ne]

theorem IsWord.head_not_space {w : List Char} (h : IsWord w) (rest : List Char) :
    (w ++ rest).head?.any isSpace = false := by
  obtain ⟨x, w, rfl⟩ := List.exists_cons_of_ne_nil h.ne
  simpa using h.noSpace x List.mem_cons_self

theorem Words.head_not_space {text : List Char} (h : Words text) (rest : List Char) :
    (text ++ rest).head?.any isSpace = false := by
  cases h with
  | word hw => exact hw.head_not_space rest
  | cons hw =>
    rw [List.append_assoc]
    exact hw.head_not_space _

theorem Blanks.head_isSpace {gap : List Char} (h : Blanks gap) (hne : gap ≠ []) (rest : List Char) :
    (gap ++ rest).head?.any isSpace = true := by
  obtain ⟨x, gap, rfl⟩ := List.exists_cons_of_ne_nil hne
  simpa using isSpace_of_isBlank (h x List.mem_cons_self)

theorem Stops.of_space {tail : List Char} (h : tail.head?.any isSpace = true) : Stops tail := by
  cases tail with
  | nil => cases h
  | cons x tail => exact .inl (by simpa using h)

theorem plainPart_stops {tail : List Char} (h : Stops tail) : plainPart false tail = ([], false) := by
  cases tail with
  | nil => rfl
  | cons x tail =>
    rcases h with h | ⟨rest, he, h⟩
    · have hx : isSpace x = true := by simpa using h
      simp [plainPart, hx]
    · cases he
      have hc : isSpace ':' = false := by decide
      simp [plainPart, hc, isMisplacedColon, endsPlain, h]

theorem plainPart_word {w tail : List Char} (hs : ∀ c ∈ w, isSpace c = false)
    (hk : endsKey w = false) (ht : Stops tail) : plainPart false (w ++ tail) = (w, false) := by
  induction w with
  | nil => exact plainPart_stops ht
  | cons x w ih =>
    simp only [endsKey, Bool.or_eq_false_iff] at hk
    have hx : isSpace x = false := hs x List.mem_cons_self
    have hw := ih (fun c hc => hs c (List.mem_cons_of_mem x hc)) hk.2
    have he : endsPlain false x (w ++ tail).head? = false := by
      cases w with
      | nil =>
        have hxc : x ≠ ':' := by simpa using hk.1
        simp [endsPlain, hxc]
      | cons y w =>
        have hy : isSpace y = false := hs y (by simp)
        simp [endsPlain, hy]
    rw [List.cons_append, plainPart, if_neg (by simp [hx]), if_neg (by simp [isMisplacedColon]),
      if_neg (by rw [he]; simp), hw]

/-- How a plain scalar goes on after one of its words. -/
def continuePlain (indent : Int) (start : Mark) (fuel : Nat) (p : PlainText) : Scanner PlainText :=
  fun c =>
    if !c.head?.any isSpace then .ok (p, c)
    else do
      let (gap, c) ← scanGap indent start c.rest.length p.gap c
      let p := { p with gap := gap }
      if (c.column : Int) < indent then .ok (p, c)
      else scanPlainText false indent start fuel p c

theorem continuePlain_gap {indent : Int} {start : Mark} (fuel : Nat) (p : PlainText) {c c' : Cursor}
    {gap : Gap} (hs : c.rest.head?.any isSpace = true)
    (hg : scanGap indent start c.rest.length p.gap c = .ok (gap, c')) :
    continuePlain indent start fuel p c =
      if (c'.column : Int) < indent then .ok ({ p with gap := gap }, c')
      else scanPlainText false indent start fuel { p with gap := gap } c' := by
  simp only [continuePlain, Cursor.head?, hs, hg, bind, Except.bind, Bool.not_true,
    Bool.false_eq_true, if_false]

/-- Where no marker of a document or comment can begin. -/
structure Midline (text : List Char) (m : Mark) : Prop where
  noComment : text.head? ≠ some '#'
  noMarker : m.column = 0 → text.head? ≠ some '-' ∧ text.head? ≠ some '.'

theorem Midline.notAtBoundary {text : List Char} {m : Mark} (h : Midline text m) :
    (Cursor.mk text m).atDocumentBoundary = false := by
  by_cases hc : m.column = 0
  · simp [Cursor.atDocumentBoundary, Cursor.atDocumentIndicator, Cursor.isAt, Cursor.head?,
      h.noMarker hc]
  · simp [Cursor.atDocumentBoundary, Cursor.atDocumentIndicator, Cursor.column, hc]

theorem scanPlainText_word {w tail : List Char} {m : Mark} {indent : Int} {start : Mark}
    {p : PlainText} (fuel : Nat) (hw : IsWord w) (hm : Midline w m) (ht : Stops tail) :
    scanPlainText false indent start (fuel + 1) p ⟨w ++ tail, m⟩ =
      continuePlain indent start fuel
        { text := p.text ++ p.gap.text ++ w, gap := {}, stop := m.move w.length }
        ⟨tail, m.move w.length⟩ := by
  have hh : (w ++ tail).head? = w.head? := by
    cases w with
    | nil => exact absurd rfl hw.ne
    | cons x w => rfl
  have hm' : Midline (w ++ tail) m := ⟨hh ▸ hm.noComment, hh ▸ hm.noMarker⟩
  have hc : (Cursor.mk (w ++ tail) m).isAt '#' = false := by
    simpa [Cursor.isAt, Cursor.head?] using hm'.noComment
  have hp := plainPart_word hw.noSpace hw.noKey ht
  have hne : w.isEmpty = false := by simpa using hw.ne
  simp [scanPlainText, continuePlain, hm'.notAtBoundary, hc, hp, hne, Cursor.advance, bind,
    Except.bind]

theorem lineBreak?_eq_none {rest : List Char} (m : Mark) (h : rest.head?.any isBreak = false) :
    (Cursor.mk rest m).lineBreak? = none := by
  simp only [Cursor.lineBreak?]
  split
  · exact absurd h (by simp; decide)
  · rename_i x rest _
    have hx : isBreak x = false := by simpa using h
    rw [hx]
    rfl
  · rfl

theorem scanGap_blanks {gap rest : List Char} (m : Mark) (indent : Int) (start : Mark)
    (blanks : List Char) (fuel : Nat) (hg : Blanks gap) (hr : rest.head?.any isSpace = false)
    (hl : gap.length ≤ fuel) :
    scanGap indent start fuel { blanks } ⟨gap ++ rest, m⟩ =
      .ok ({ blanks := blanks ++ gap }, ⟨rest, m.move gap.length⟩) := by
  induction gap generalizing blanks m fuel with
  | nil =>
    cases fuel with
    | zero => simp [scanGap, Mark.move]
    | succ fuel =>
      have hb : (Cursor.mk rest m).lineBreak? = none := by
        apply lineBreak?_eq_none
        cases rest <;> simp_all [isSpace]
      cases rest with
      | nil => simp [scanGap, hb, Cursor.head?, Mark.move]
      | cons x rest =>
        have hx : isBlank x = false := by
          simp only [List.head?_cons, Option.any_some, isSpace, Bool.or_eq_false_iff] at hr
          exact hr.1
        simp [scanGap, hb, Cursor.head?, hx, Mark.move]
  | cons x gap ih =>
    obtain ⟨fuel, rfl⟩ : ∃ n, fuel = n + 1 := ⟨fuel - 1, by simp at hl; omega⟩
    have hx : isBlank x = true := hg x List.mem_cons_self
    have hb : (Cursor.mk (x :: (gap ++ rest)) m).lineBreak? = none :=
      lineBreak?_eq_none m (by simp [not_isBreak_of_isBlank hx])
    have hi := ih (m.move 1) (blanks ++ [x]) fuel
      (fun c hc => hg c (List.mem_cons_of_mem x hc)) (by simp at hl; omega)
    rw [List.cons_append, scanGap, hb]
    simpa [Cursor.head?, hx, Cursor.advance, Mark.move, Nat.add_assoc, Nat.add_comm 1] using hi

theorem not_isBlank_of_head {rest : List Char} {x : Char} (h : rest.head? = some x)
    (hr : rest.head?.any isSpace = false) : isBlank x = false ∧ isBreak x = false := by
  rw [h] at hr
  simpa [isSpace] using hr

theorem scanGap_spaces {rest : List Char} (m : Mark) (indent : Int) (start : Mark) {g : Gap}
    {k : Nat} (fuel : Nat) (hf : g.folded = true) (hr : rest.head?.any isSpace = false)
    (hl : k ≤ fuel) :
    scanGap indent start fuel g ⟨List.replicate k ' ' ++ rest, m⟩ =
      .ok (g, ⟨rest, m.move k⟩) := by
  induction k generalizing m fuel with
  | zero =>
    cases fuel with
    | zero => simp [scanGap, Mark.move]
    | succ fuel =>
      have hb : (Cursor.mk rest m).lineBreak? = none := by
        apply lineBreak?_eq_none
        cases rest <;> simp_all [isSpace]
      cases rest with
      | nil => simp [scanGap, hb, Cursor.head?, Mark.move]
      | cons x rest =>
        have hx := (not_isBlank_of_head (x := x) rfl hr).1
        simp [scanGap, hb, Cursor.head?, hx, Mark.move]
  | succ k ih =>
    obtain ⟨fuel, rfl⟩ : ∃ n, fuel = n + 1 := ⟨fuel - 1, by omega⟩
    have hb : (Cursor.mk (' ' :: (List.replicate k ' ' ++ rest)) m).lineBreak? = none :=
      lineBreak?_eq_none m (by simp; decide)
    have hi := ih (m.move 1) fuel (by omega)
    have hs : isBlank ' ' = true := by decide
    rw [List.replicate_succ, List.cons_append, scanGap, hb]
    simpa [Cursor.head?, hs, hf, Cursor.advance, Mark.move, Nat.add_assoc, Nat.add_comm 1] using hi

theorem scanGap_lineEnd {rest : List Char} (m : Mark) (indent : Int) (start : Mark)
    {k : Nat} (fuel : Nat) (hr : rest.head?.any isSpace = false) (hl : k + 1 ≤ fuel) :
    scanGap indent start fuel {} ⟨'\n' :: (List.replicate k ' ' ++ rest), m⟩ =
      .ok ({ first := some '\n', folded := true }, ⟨rest, (m.nextLine 1).move k⟩) := by
  obtain ⟨fuel, rfl⟩ : ∃ n, fuel = n + 1 := ⟨fuel - 1, by omega⟩
  have hb : (Cursor.mk ('\n' :: (List.replicate k ' ' ++ rest)) m).lineBreak? =
      some ('\n', ⟨List.replicate k ' ' ++ rest, m.nextLine 1⟩) := rfl
  rw [scanGap, hb]
  exact scanGap_spaces _ indent start fuel rfl hr (by omega)

/-- The words of a scalar are read one by one, with the blanks between them. -/
theorem scanPlainText_words {text tail : List Char} {m : Mark} (start : Mark) {p : PlainText}
    {indent : Int} (fuel : Nat) (ht : Words text) (hm : Midline text m) (htail : Stops tail)
    (hi : indent ≤ m.column) (hl : text.length ≤ fuel) :
    ∃ fuel', fuel ≤ fuel' + text.length ∧ scanPlainText false indent start fuel p ⟨text ++ tail, m⟩ =
      continuePlain indent start fuel'
        { text := p.text ++ p.gap.text ++ text, gap := {}, stop := m.move text.length }
        ⟨tail, m.move text.length⟩ := by
  induction ht generalizing m p fuel with
  | @word w hw =>
    have hpos := List.length_pos_iff.mpr hw.ne
    obtain ⟨fuel, rfl⟩ : ∃ n, fuel = n + 1 := ⟨fuel - 1, by omega⟩
    exact ⟨fuel, by omega, scanPlainText_word fuel hw hm htail⟩
  | @cons w gap text hw hg hne hc ht ih =>
    have hpos := List.length_pos_iff.mpr hw.ne
    have hgap := List.length_pos_iff.mpr hne
    simp only [List.length_append] at hl
    obtain ⟨fuel, rfl⟩ : ∃ n, fuel = n + 1 := ⟨fuel - 1, by omega⟩
    have hmw : Midline w m := by
      obtain ⟨x, w, rfl⟩ := List.exists_cons_of_ne_nil hw.ne
      exact ⟨hm.noComment, hm.noMarker⟩
    have hmt : Midline text ((m.move w.length).move gap.length) :=
      ⟨hc, fun h => by simp only [Mark.move] at h; omega⟩
    have hcol : indent ≤ ((m.move w.length).move gap.length).column := by
      simp only [Mark.move]
      omega
    have hb := hg.head_isSpace hne (text ++ tail)
    obtain ⟨fuel', hle, hi⟩ := ih
      (p := ⟨p.text ++ p.gap.text ++ w, { blanks := gap }, m.move w.length⟩) fuel hmt hcol
      (by omega)
    refine ⟨fuel', by simp only [List.length_append]; omega, ?_⟩
    have hgapread := scanGap_blanks (m.move w.length) indent start [] (gap ++ (text ++ tail)).length
      hg (ht.head_not_space tail) (by simp)
    have hmove : ((m.move w.length).move gap.length).move text.length =
        m.move (w ++ (gap ++ text)).length := by
      simp [Mark.move, Nat.add_assoc]
    have hcont : ¬ ((Cursor.mk (text ++ tail) ((m.move w.length).move gap.length)).column : Int) <
        indent := by
      exact Int.not_lt.mpr hcol
    rw [List.append_assoc, List.append_assoc, scanPlainText_word fuel hw hmw (.of_space hb),
      continuePlain_gap fuel _ hb hgapread, if_neg hcont, List.nil_append, hi, hmove]
    simp [Gap.text, List.append_assoc]

/-- How a value in a block ends: the column, what follows, whether the line ends
there, and where the scanner stops. -/
inductive PlainEnds (indent : Int) (column : Nat) : List Char → Bool → List Char → Nat → Prop where
  | source : PlainEnds indent column [] false [] column
  | line {k : Nat} {rest : List Char} (hk : (k : Int) < indent)
      (hr : rest.head?.any isSpace = false) :
      PlainEnds indent column ('\n' :: (List.replicate k ' ' ++ rest)) true rest k
  | comment {gap rest : List Char} (hg : Blanks gap) (hne : gap ≠ []) :
      PlainEnds indent column (gap ++ '#' :: rest) false ('#' :: rest) (column + gap.length)

theorem PlainEnds.stops {indent : Int} {column column' : Nat} {tail rest : List Char}
    {lineEnded : Bool} (h : PlainEnds indent column tail lineEnded rest column') : Stops tail := by
  cases h with
  | source => exact .inl rfl
  | line => exact .inl (by simp; decide)
  | comment hg hne => exact .of_space (hg.head_isSpace hne _)

theorem PlainEnds.shorter {indent : Int} {column column' : Nat} {tail rest : List Char}
    {lineEnded : Bool} (h : PlainEnds indent column tail lineEnded rest column') :
    rest.length ≤ tail.length := by
  cases h with
  | source => exact Nat.le_refl _
  | line =>
    simp only [List.length_append, List.length_cons]
    omega
  | comment => simp

theorem scanPlainText_comment {m start : Mark} {rest : List Char} {indent : Int} (fuel : Nat)
    (p : PlainText) :
    scanPlainText false indent start fuel p ⟨'#' :: rest, m⟩ = .ok (p, ⟨'#' :: rest, m⟩) := by
  cases fuel with
  | zero => rfl
  | succ fuel => simp [scanPlainText, Cursor.isAt, Cursor.head?]

theorem continuePlain_ends {indent : Int} {m : Mark} (start : Mark) {column' : Nat} {tail rest : List Char}
    {lineEnded : Bool} (h : PlainEnds indent m.column tail lineEnded rest column')
    (hi : indent ≤ m.column) {p : PlainText} (hp : p.gap = {}) (fuel : Nat) :
    ∃ (gap : Gap) (m' : Mark), gap.folded = lineEnded ∧ m'.column = column' ∧ m.index ≤ m'.index ∧
      continuePlain indent start fuel p ⟨tail, m⟩ = .ok ({ p with gap := gap }, ⟨rest, m'⟩) := by
  cases h with
  | source =>
    exact ⟨p.gap, m, by rw [hp], rfl, Nat.le_refl _, by simp [continuePlain, Cursor.head?]⟩
  | line hk hr =>
    have hg := scanGap_lineEnd m indent start
      ('\n' :: (List.replicate column' ' ' ++ rest)).length hr (k := column') (by simp)
    have hs : ('\n' :: (List.replicate column' ' ' ++ rest)).head?.any isSpace = true := by
      simp; decide
    have hc : (((m.nextLine 1).move column').column : Int) < indent := by
      simpa [Mark.move, Mark.nextLine] using hk
    rw [continuePlain_gap fuel p hs (by rw [hp, hg])]
    refine ⟨_, _, rfl, ?_, ?_, if_pos hc⟩
    · simp [Mark.move, Mark.nextLine]
    · simp only [Mark.move, Mark.nextLine]
      omega
  | @comment gap rest hg hne =>
    have hr : ('#' :: rest).head?.any isSpace = false := by simp; decide
    have hs := hg.head_isSpace hne ('#' :: rest)
    have hgap := scanGap_blanks m indent start [] (gap ++ '#' :: rest).length hg hr (by simp)
    have hc : ¬ ((m.move gap.length).column : Int) < indent := by
      simp only [Mark.move]
      omega
    rw [continuePlain_gap fuel p hs (by rw [hp, hgap])]
    exact ⟨{ blanks := gap }, _, rfl, rfl, Nat.le_add_right _ _,
      (if_neg hc).trans (scanPlainText_comment fuel _)⟩

/-- A value in a block is read whole, if it stands to the right of its keys. -/
theorem scanPlain_words {text tail rest : List Char} {m : Mark} {indent : Int} {lineEnded : Bool}
    {column' : Nat} (ht : Words text) (hm : Midline text m) (hi : indent < m.column)
    (he : PlainEnds (indent + 1) (m.column + text.length) tail lineEnded rest column') :
    ∃ m' : Mark, m'.column = column' ∧ m.index < m'.index ∧
      scanPlain false indent ⟨text ++ tail, m⟩ =
        .ok (⟨.scalar (String.ofList text) .plain, m, m.move text.length⟩, lineEnded, ⟨rest, m'⟩) := by
  obtain ⟨fuel, -, hw⟩ := scanPlainText_words m (p := { stop := m })
    ((text ++ tail).length + 1) ht hm he.stops (show indent + 1 ≤ m.column by omega)
    (by simp only [List.length_append]; omega)
  have hcol : indent + 1 ≤ ((m.move text.length).column : Int) := by
    simp only [Mark.move]
    omega
  obtain ⟨gap, m', hg, hc, hx, hp⟩ := continuePlain_ends (m := m.move text.length) m he hcol
    (p := ⟨[] ++ Gap.text {} ++ text, {}, m.move text.length⟩) rfl fuel
  have hpos := List.length_pos_iff.mpr ht.ne_nil
  refine ⟨m', hc, Nat.lt_of_lt_of_le (Nat.lt_add_of_pos_right hpos) hx, ?_⟩
  simp only [scanPlain, hw, hp, bind, Except.bind]
  simp [hg, Gap.text]

/-- A key is one word, and may stand at the indentation. -/
theorem scanPlain_key {k rest : List Char} {m : Mark} (indent : Int) (hk : IsWord k)
    (hm : Midline k m) (hr : rest.head?.all isSpace = true) :
    scanPlain false indent ⟨k ++ ':' :: rest, m⟩ =
      .ok (⟨.scalar (String.ofList k) .plain, m, m.move k.length⟩, false,
        ⟨':' :: rest, m.move k.length⟩) := by
  have hs : isSpace ':' = false := by decide
  simp only [scanPlain, scanPlainText_word (k ++ ':' :: rest).length hk hm (.inr ⟨rest, rfl, hr⟩),
    continuePlain, Cursor.head?, bind, Except.bind]
  simp [hs, Gap.text]

end ExampleTests.Yaml
