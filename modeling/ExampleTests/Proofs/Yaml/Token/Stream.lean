import ExampleTests.Proofs.Yaml.Unquoted

/-! Runs of the token stream over block mappings. Between two lines of a mapping
the stream holds no token back, and a place says all that the next tokens depend on. -/

namespace ExampleTests.Yaml

/-- A place between two tokens of a block, where none is held back. -/
structure Place where
  rest : List Char
  column : Nat
  indent : Int
  outer : List Int
  keyAllowed : Bool

def Place.state (p : Place) (m : Mark) (given : Nat) : Stream :=
  { cursor := ⟨p.rest, m⟩, given, indent := p.indent, outer := p.outer,
    keyAllowed := p.keyAllowed, started := true }

/-- A state of the stream at a place; a byte order mark counts only at the start
of the source. -/
def Place.Is (p : Place) (s : Stream) : Prop :=
  ∃ (m : Mark) (given : Nat), m.column = p.column ∧
    (0 < m.index ∨ p.rest.head? ≠ some Stream.byteOrderMark) ∧ s = p.state m given

/-- The tokens that are given out on the way between two states, in so many steps. -/
def Gives (n : Nat) (s : Stream) (ls : List Lexeme) (s' : Stream) : Prop :=
  ∃ ts : List Token, ts.map Token.lexeme = ls ∧ ∀ fuel,
    Stream.tokens (fuel + n) s = (ts ++ (Stream.tokens fuel s').1, (Stream.tokens fuel s').2)

/-- From one place to another with six steps for a character at most. -/
def Leads (p : Place) (ls : List Lexeme) (q : Place) : Prop :=
  ∀ s, p.Is s → ∃ n s', n + 6 * q.rest.length ≤ 6 * p.rest.length ∧ q.Is s' ∧ Gives n s ls s'

theorem Gives.refl (s : Stream) : Gives 0 s [] s := ⟨[], rfl, fun _ => rfl⟩

theorem Gives.trans {m n : Nat} {s t u : Stream} {ls ls' : List Lexeme} (h : Gives m s ls t)
    (h' : Gives n t ls' u) : Gives (m + n) s (ls ++ ls') u := by
  obtain ⟨ts, rfl, ht⟩ := h
  obtain ⟨ts', rfl, ht'⟩ := h'
  refine ⟨ts ++ ts', List.map_append, fun fuel => ?_⟩
  rw [Nat.add_comm m n, ← Nat.add_assoc, ht, ht', List.append_assoc]

theorem Leads.refl (p : Place) : Leads p [] p :=
  fun s h => ⟨0, s, by omega, h, .refl s⟩

theorem Leads.trans {p q r : Place} {ls ls' : List Lexeme} (h : Leads p ls q)
    (h' : Leads q ls' r) : Leads p (ls ++ ls') r := by
  intro s hs
  obtain ⟨m, t, hm, ht, hst⟩ := h s hs
  obtain ⟨n, u, hn, hu, htu⟩ := h' t ht
  exact ⟨m + n, u, by omega, hu, hst.trans htu⟩

/-- A state in which no token can be a key. -/
def Quiet (s : Stream) : Prop := s.blockKey = none ∧ s.flowKeys = []

theorem Quiet.dropStale {s : Stream} (h : Quiet s) : s.dropStale = .ok s := by
  cases s
  obtain ⟨rfl, rfl⟩ := h
  rfl

theorem Quiet.firstIsCandidate {s : Stream} (h : Quiet s) : s.firstIsCandidate = false := by
  simp [Stream.firstIsCandidate, h.1, h.2]

theorem Gives.read {s s' : Stream} (hw : s.waiting = []) (hr : s.readMore = .ok s') :
    Gives 1 s [] s' := by
  refine ⟨[], rfl, fun fuel => ?_⟩
  rw [Stream.tokens]
  simp [hw, hr]

/-- Where the waiting token may be a key, more is read first. -/
theorem Gives.readCandidate {s s' : Stream} (hw : s.waiting ≠ []) (hd : s.dropStale = .ok s)
    (hf : s.firstIsCandidate = true) (hr : s.readMore = .ok s') : Gives 1 s [] s' := by
  obtain ⟨t, waiting, hw⟩ := List.exists_cons_of_ne_nil hw
  refine ⟨[], rfl, fun fuel => ?_⟩
  rw [Stream.tokens]
  simp [hw, hd, hf, hr]

theorem Gives.give {s : Stream} {t : Token} {waiting : List Token} (hq : Quiet s)
    (hw : s.waiting = t :: waiting) (he : t.lexeme ≠ .streamEnd) :
    Gives 1 s [t.lexeme] { s with waiting, given := s.given + 1 } := by
  refine ⟨[t], rfl, fun fuel => ?_⟩
  rw [Stream.tokens]
  simp [hw, hq.dropStale, hq.firstIsCandidate, he]

theorem Gives.giveAll {s : Stream} (hq : Quiet s)
    (he : ∀ t ∈ s.waiting, t.lexeme ≠ .streamEnd) :
    Gives s.waiting.length s (s.waiting.map Token.lexeme)
      { s with waiting := [], given := s.given + s.waiting.length } := by
  generalize hw : s.waiting = waiting at he
  induction waiting generalizing s with
  | nil =>
    cases s
    cases hw
    exact .refl _
  | cons t waiting ih =>
    have hg := Gives.give hq hw (he t List.mem_cons_self)
    have hi := ih (s := { s with waiting, given := s.given + 1 }) hq rfl
      fun t ht => he t (List.mem_cons_of_mem _ ht)
    have h := hg.trans hi
    rw [Nat.add_comm 1 waiting.length] at h
    simpa [Nat.add_assoc, Nat.add_comm 1] using h

section Spaces

def NoBreaks (text : List Char) : Prop := ∀ c ∈ text, isBreak c = false

structure Visible (text : List Char) : Prop where
  noSpace : text.head?.any isSpace = false
  noComment : text.head? ≠ some '#'

/-- What the scanner skips on one line, blanks apart. -/
structure SkipsTo (comment tail : List Char) : Prop where
  noBlank : (comment ++ tail).head?.any isBlank = false
  noBreaks : NoBreaks comment
  ends : comment ≠ [] → comment.head? = some '#' ∧ tail.head?.all isBreak = true
  noComment : tail.head? ≠ some '#'

theorem skip_append {p : Char → Bool} {taken rest : List Char} (m : Mark)
    (ht : ∀ c ∈ taken, p c = true) (hr : rest.head?.any p = false) :
    (Cursor.mk (taken ++ rest) m).skip p = ⟨rest, m.move taken.length⟩ := by
  have hn : rest.takeWhile p = [] ∧ rest.dropWhile p = rest := by
    cases rest with
    | nil => exact ⟨rfl, rfl⟩
    | cons x rest =>
      have hx : p x = false := by simpa using hr
      simp [hx]
  simp [Cursor.skip, Cursor.span, List.takeWhile_append_of_pos ht, List.dropWhile_append_of_pos ht,
    hn.1, hn.2]

theorem skipSpaces_round {comment tail : List Char} {m : Mark} (keyAllowed : Bool) (j fuel : Nat)
    (hb : 0 < m.index ∨ (List.replicate j ' ' ++ (comment ++ tail)).head? ≠ some Stream.byteOrderMark)
    (h : SkipsTo comment tail) :
    Stream.skipSpaces false (fuel + 1) keyAllowed ⟨List.replicate j ' ' ++ (comment ++ tail), m⟩ =
      match (Cursor.mk tail ((m.move j).move comment.length)).lineBreak? with
      | some (_, c) => Stream.skipSpaces false fuel true c
      | none => (keyAllowed, ⟨tail, (m.move j).move comment.length⟩) := by
  -- Only at the start of the source would a byte order mark be skipped as well.
  have hm : ¬ (m.index = 0 && (Cursor.mk (List.replicate j ' ' ++ (comment ++ tail)) m).isAt
      Stream.byteOrderMark) := by
    simp only [Cursor.isAt, Cursor.head?, Bool.and_eq_true, decide_eq_true_eq, not_and]
    intro h0
    simpa using hb.resolve_left (by omega)
  have hblanks : (Cursor.mk (List.replicate j ' ' ++ (comment ++ tail)) m).skip
      (fun x => x = ' ' || ((false || !keyAllowed) && x = '\t')) = ⟨comment ++ tail, m.move j⟩ := by
    have hs := skip_append (p := fun x => x = ' ' || ((false || !keyAllowed) && x = '\t')) m
      (fun c (hc : c ∈ List.replicate j ' ') => by simp [(List.mem_replicate.mp hc).2])
      (show (comment ++ tail).head?.any _ = false by
        have := h.noBlank
        cases hh : (comment ++ tail).head? with
        | none => rfl
        | some x =>
          rw [hh] at this
          simp only [Option.any_some, isBlank, Bool.or_eq_false_iff, decide_eq_false_iff_not] at this
          simp [this])
    simpa using hs
  have hcomment : (if (Cursor.mk (comment ++ tail) (m.move j)).isAt '#' then
      (Cursor.mk (comment ++ tail) (m.move j)).skipLine else ⟨comment ++ tail, m.move j⟩) =
      ⟨tail, (m.move j).move comment.length⟩ := by
    by_cases hc : comment = []
    · subst hc
      simp [Cursor.isAt, Cursor.head?, h.noComment, Mark.move]
    · obtain ⟨x, comment, rfl⟩ := List.exists_cons_of_ne_nil hc
      have hx : x = '#' := by simpa using (h.ends hc).1
      rw [if_pos (by simp [Cursor.isAt, Cursor.head?, hx]), Cursor.skipLine]
      refine skip_append _ (fun c hc => by simp [h.noBreaks c hc]) ?_
      have := (h.ends hc).2
      cases tail with
      | nil => rfl
      | cons y tail => simpa using this
  rw [Stream.skipSpaces, if_neg hm]
  simp only [hblanks, hcomment]
  cases (Cursor.mk tail ((m.move j).move comment.length)).lineBreak? with
  | none => rfl
  | some found => rw [Bool.not_false, Bool.or_true]

theorem skipSpaces_visible {rest : List Char} {m : Mark} (keyAllowed : Bool) (k fuel : Nat)
    (hb : 0 < m.index ∨ (List.replicate k ' ' ++ rest).head? ≠ some Stream.byteOrderMark)
    (hv : Visible rest) :
    Stream.skipSpaces false (fuel + 1) keyAllowed ⟨List.replicate k ' ' ++ rest, m⟩ =
      (keyAllowed, ⟨rest, m.move k⟩) := by
  have hv' : rest.head?.any isBlank = false ∧ rest.head?.any isBreak = false := by
    have := hv.noSpace
    cases rest with
    | nil => exact ⟨rfl, rfl⟩
    | cons x rest => simpa [isSpace] using this
  have hto : SkipsTo [] rest := ⟨hv'.1, by simp [NoBreaks], by simp, hv.noComment⟩
  have h := skipSpaces_round keyAllowed k fuel hb hto
  rw [lineBreak?_eq_none _ hv'.2] at h
  exact h

theorem skipSpaces_lineEnd {comment rest : List Char} {m : Mark} (keyAllowed : Bool) (j k fuel : Nat)
    (hc : comment ≠ [] → comment.head? = some '#') (hn : NoBreaks comment) (hv : Visible rest) :
    Stream.skipSpaces false (fuel + 2) keyAllowed
      ⟨List.replicate j ' ' ++ (comment ++ '\n' :: (List.replicate k ' ' ++ rest)), m⟩ =
      (true, ⟨rest, (((m.move j).move comment.length).nextLine 1).move k⟩) := by
  have hblank : (comment ++ '\n' :: (List.replicate k ' ' ++ rest)).head?.any isBlank = false := by
    cases comment with
    | nil => simp; decide
    | cons x comment =>
      have hx : x = '#' := by simpa using hc
      simp [hx]; decide
  have hmark : (List.replicate j ' ' ++ (comment ++ '\n' :: (List.replicate k ' ' ++ rest))).head? ≠
      some Stream.byteOrderMark := by
    cases j with
    | succ j => simp [List.replicate_succ, Stream.byteOrderMark]
    | zero =>
      cases comment with
      | nil => simp [Stream.byteOrderMark]
      | cons x comment =>
        have hx : x = '#' := by simpa using hc
        simp [hx, Stream.byteOrderMark]
  have h := skipSpaces_round (m := m) keyAllowed j (fuel + 1) (.inr hmark)
    (SkipsTo.mk hblank hn (fun h => ⟨hc h, by simp; decide⟩) (by simp))
  refine h.trans ?_
  exact skipSpaces_visible true k fuel (.inl (Nat.succ_pos _)) hv

/-- The next token begins at the second place, after what has no meaning. -/
structure Skips (p q : Place) : Prop where
  indent : q.indent = p.indent
  outer : q.outer = p.outer
  shorter : q.rest.length ≤ p.rest.length
  reaches : ∀ s, p.Is s → q.Is s.toNextToken

theorem Skips.blanks (k column : Nat) {rest : List Char} (indent : Int) (outer : List Int)
    (keyAllowed : Bool) (hv : Visible rest) :
    Skips ⟨List.replicate k ' ' ++ rest, column, indent, outer, keyAllowed⟩
      ⟨rest, column + k, indent, outer, keyAllowed⟩ := by
  refine ⟨rfl, rfl, by simp, ?_⟩
  rintro s ⟨m, given, rfl, hb, rfl⟩
  refine ⟨m.move k, given, rfl, ?_, ?_⟩
  · cases k with
    | zero => simpa [Mark.move] using hb
    | succ k => exact .inl (Nat.succ_pos _)
  · simp only [Place.state, Stream.toNextToken, Stream.inFlow, List.isEmpty_nil, Bool.not_true,
      skipSpaces_visible keyAllowed k _ hb hv]

theorem Skips.lineEnd {comment rest : List Char} (j k column : Nat) (indent : Int)
    (outer : List Int) (keyAllowed : Bool) (hc : comment ≠ [] → comment.head? = some '#')
    (hn : NoBreaks comment) (hv : Visible rest) :
    Skips ⟨List.replicate j ' ' ++ (comment ++ '\n' :: (List.replicate k ' ' ++ rest)), column,
        indent, outer, keyAllowed⟩ ⟨rest, k, indent, outer, true⟩ := by
  refine ⟨rfl, rfl, by simp; omega, ?_⟩
  rintro s ⟨m, given, -, -, rfl⟩
  obtain ⟨fuel, hf⟩ : ∃ fuel, (List.replicate j ' ' ++
      (comment ++ '\n' :: (List.replicate k ' ' ++ rest))).length + 1 = fuel + 2 :=
    ⟨j + (comment.length + (k + rest.length)), by simp; omega⟩
  refine ⟨(((m.move j).move comment.length).nextLine 1).move k, given, ?_, .inl ?_, ?_⟩
  · simp [Mark.move, Mark.nextLine]
  · simp only [Mark.move, Mark.nextLine]
    omega
  · simp only [Place.state, Stream.toNextToken, Stream.inFlow, List.isEmpty_nil, Bool.not_true, hf,
      skipSpaces_lineEnd keyAllowed j k fuel hc hn hv]

end Spaces

section Tokens

theorem takeToken_plain {s : Stream} (hf : s.flowKeys = []) (hp : startsPlain s.cursor.rest = true)
    (hm : Midline s.cursor.rest s.mark) : s.takeToken = s.takePlain := by
  obtain ⟨⟨rest, m⟩, waiting, given, indent, outer, blockKey, flowKeys, keyAllowed, started⟩ := s
  obtain rfl : flowKeys = [] := hf
  have hb := hm.notAtBoundary
  simp only [Cursor.atDocumentBoundary, Bool.or_eq_false_iff] at hb
  cases rest with
  | nil => cases hp
  | cons x rest =>
    simp only [startsPlain, Bool.and_eq_true, Bool.not_eq_true', Bool.or_eq_true] at hp
    obtain ⟨hs, hi | ⟨hi, hn⟩⟩ := hp
    -- Three indicators begin a plain scalar too, where no space comes after them.
    · simp only [Stream.indicators, List.contains_eq_mem, List.mem_cons, List.not_mem_nil, or_false,
        decide_eq_false_iff_not, not_or] at hi
      have hplain : Stream.atPlain ⟨⟨x :: rest, m⟩, waiting, given, indent, outer, blockKey, [],
          keyAllowed, started⟩ = true := by
        simp [Stream.atPlain, Cursor.spaceOrEnd, Cursor.peek?, Cursor.head?, Stream.indicators, hi, hs]
      simp only [Stream.mark] at hb
      simp [Stream.takeToken, Cursor.atEnd, Cursor.isAt, Cursor.head?, hi, hb, hplain]
    · simp only [Stream.mark] at hb
      simp only [List.contains_eq_mem, List.mem_cons, List.not_mem_nil, or_false,
        decide_eq_true_eq] at hi
      have hn' : (Cursor.mk (x :: rest) m).spaceOrEnd 1 = false := by
        simpa [Cursor.spaceOrEnd, Cursor.peek?, List.head?_eq_getElem?] using hn
      have hblank : ((Cursor.mk (x :: rest) m).peek? 1).any isBlank = false := by
        simp only [Cursor.spaceOrEnd] at hn'
        cases hy : (Cursor.mk (x :: rest) m).peek? 1 with
        | none => rfl
        | some y =>
          rw [hy] at hn'
          simp only [Option.all_some, isSpace, Bool.or_eq_false_iff] at hn'
          exact hn'.1
      have hplain : Stream.atPlain ⟨⟨x :: rest, m⟩, waiting, given, indent, outer, blockKey, [],
          keyAllowed, started⟩ = true := by
        rcases hi with rfl | rfl | rfl <;>
          simp [Stream.atPlain, Cursor.isAt, Cursor.head?, Stream.inFlow, hn', hblank]
      rcases hi with rfl | rfl | rfl <;>
        simp [Stream.takeToken, Cursor.atEnd, Cursor.isAt, Cursor.head?, hb, hplain, hn', Stream.inFlow]

theorem closeTo_of_le {s : Stream} {column : Int} (h : s.indent ≤ column) :
    s.closeTo column = s := by
  have hc : ¬ column < s.indent := by omega
  simp only [Stream.closeTo]
  split
  · rfl
  · cases s.outer <;> simp [Stream.closeBlocks, hc]

theorem Place.Is.waiting {p : Place} {s : Stream} (h : p.Is s) : s.waiting = [] := by
  obtain ⟨_, _, -, -, rfl⟩ := h
  rfl

theorem readMore_of_skips {p q : Place} {s : Stream} (h : Skips p q) (hs : p.Is s) :
    ∃ m given, m.column = q.column ∧
      s.readMore = ((q.state m given).closeTo q.column).takeToken := by
  obtain ⟨m, given, hc, -, he⟩ := h.reaches s hs
  have hstarted : s.started = true := by
    obtain ⟨_, _, -, -, rfl⟩ := hs
    rfl
  have hq : Quiet (q.state m given) := ⟨rfl, rfl⟩
  refine ⟨m, given, hc, ?_⟩
  simp only [Stream.readMore, hstarted, he, hq.dropStale, bind, Except.bind]
  simp [Cursor.column, Place.state, hc]

/-- Tokens that are read in one step and then given out. -/
theorem Leads.of_readMore {p q : Place} {ls : List Lexeme} (he : .streamEnd ∉ ls)
    (hn : 1 + ls.length + 6 * q.rest.length ≤ 6 * p.rest.length)
    (h : ∀ s, p.Is s → ∃ (m : Mark) (given : Nat) (waiting : List Token), m.column = q.column ∧
      0 < m.index ∧ waiting.map Token.lexeme = ls ∧ s.readMore = .ok { q.state m given with waiting }) :
    Leads p ls q := by
  intro s hp
  obtain ⟨m, given, waiting, hc, hm, rfl, hread⟩ := h s hp
  have hend : ∀ t ∈ waiting, t.lexeme ≠ .streamEnd := fun t ht hs =>
    he (hs ▸ List.mem_map_of_mem ht)
  have hgive := (Gives.read hp.waiting hread).trans (.giveAll ⟨rfl, rfl⟩ hend)
  rw [List.length_map] at hn
  exact ⟨_, _, hn, ⟨m, given + waiting.length, hc, .inl hm, rfl⟩, hgive⟩

theorem startsPlain_append {text : List Char} (h : startsPlain text = true) (tail : List Char) :
    startsPlain (text ++ tail) = true := by
  match text with
  | [] => cases h
  | [x] =>
    simp only [startsPlain, List.head?_nil, Option.all_none, Bool.not_true, Bool.and_false,
      Bool.or_false, Bool.and_eq_true] at h
    simp only [List.cons_append, startsPlain, h.1, h.2, Bool.true_or, Bool.and_self]
  | x :: y :: text => exact h

theorem midline_of_startsPlain {text : List Char} {m : Mark} (h : startsPlain text = true)
    (hm : m.column = 0 → text.head? ≠ some '-' ∧ text.head? ≠ some '.') : Midline text m := by
  refine ⟨?_, hm⟩
  cases text with
  | nil => simp
  | cons x text =>
    rintro hx
    cases hx
    exact absurd h (by simp [startsPlain, Stream.indicators])

theorem Leads.value {p : Place} {text tail rest : List Char} {column column' : Nat} {indent : Int}
    {outer : List Int} {lineEnded : Bool} (h : Skips p ⟨text ++ tail, column, indent, outer, false⟩)
    (hw : Words text) (hs : startsPlain text = true) (hi : indent < column) (hc : 0 < column)
    (he : PlainEnds (indent + 1) (column + text.length) tail lineEnded rest column') :
    Leads p [.scalar (String.ofList text) .plain] ⟨rest, column', indent, outer, lineEnded⟩ := by
  have hlength : 1 + 1 + 6 * rest.length ≤ 6 * p.rest.length := by
    have hpos := List.length_pos_iff.mpr hw.ne_nil
    have hshort := h.shorter
    have htail := he.shorter
    simp only [List.length_append] at hshort
    omega
  refine .of_readMore (by simp) hlength fun s hp => ?_
  obtain ⟨m, given, rfl, hr⟩ := readMore_of_skips h hp
  have hsp := startsPlain_append hs tail
  have h0 : m.column ≠ 0 := Nat.ne_of_gt hc
  have hmid : Midline (text ++ tail) m := midline_of_startsPlain hsp fun h => (h0 h).elim
  obtain ⟨m', hm', hx, hscan⟩ := scanPlain_words (m := m) hw
    (midline_of_startsPlain hs fun h => (h0 h).elim) hi he
  have ht := takeToken_plain (s := Place.state ⟨text ++ tail, m.column, indent, outer, false⟩ m given)
    rfl hsp hmid
  refine ⟨m', given, [⟨.scalar (String.ofList text) .plain, m, m.move text.length⟩], hm',
    by omega, rfl, ?_⟩
  rw [hr, closeTo_of_le (Int.le_of_lt hi), ht]
  simp [Stream.takePlain, Place.state, Stream.saveCandidate, Stream.inFlow, Stream.push, hscan,
    bind, Except.bind]

/-- A word in front of a colon, which makes it a key. -/
structure IsKey (k : List Char) : Prop where
  word : IsWord k
  starts : startsPlain k = true
  notMarker : k.head? ≠ some '-' ∧ k.head? ≠ some '.'
  short : k.length ≤ Stream.longestKey

/-- The state after a word that may be a key, in front of its colon. -/
def keyRead (rest : List Char) (k : Candidate) (t : Token) (m : Mark) (indent : Int)
    (outer : List Int) : Stream :=
  { cursor := ⟨':' :: rest, m⟩, waiting := [t], given := k.number, indent, outer,
    blockKey := some k, keyAllowed := false, started := true }

theorem keyRead_dropStale {rest : List Char} {k : Candidate} (t : Token) {m : Mark} (indent : Int)
    (outer : List Int) (hl : k.mark.line = m.line)
    (hx : m.index ≤ k.mark.index + Stream.longestKey) :
    (keyRead rest k t m indent outer).dropStale = .ok (keyRead rest k t m indent outer) := by
  have hs : Stream.isStale m k = false := by
    simp only [Stream.isStale, Bool.or_eq_false_iff, decide_eq_false_iff_not]
    omega
  simp [Stream.dropStale, Stream.dropIfStale, keyRead, Stream.mark, hs, bind, Except.bind, pure,
    Except.pure]

/-- The tokens of a key, in front of which a mapping may have to be opened. -/
def keyTokens (indent : Int) (start : Mark) (t : Token) (m : Mark) : List Token :=
  (if indent < start.column then [⟨.blockMappingStart, start, start⟩] else []) ++
    [⟨.key, start, start⟩, t, ⟨.value, m, m.move 1⟩]

theorem keyTokens_lexemes (indent : Int) (start : Mark) (t : Token) (m : Mark) :
    (keyTokens indent start t m).map Token.lexeme =
      (if indent < start.column then [.blockMappingStart] else []) ++ [.key, t.lexeme, .value] := by
  rw [keyTokens]
  split <;> rfl

theorem length_keyTokens_le (indent : Int) (start : Mark) (t : Token) (m : Mark) :
    (keyTokens indent start t m).length ≤ 4 := by
  rw [keyTokens]
  split <;> simp

def colonRead (rest : List Char) (k : Candidate) (t : Token) (m : Mark) (indent : Int)
    (outer : List Int) : Stream :=
  { cursor := ⟨rest, m.move 1⟩, waiting := keyTokens indent k.mark t m, given := k.number
    indent := k.mark.column, outer := if indent < k.mark.column then indent :: outer else outer
    keyAllowed := false, started := true }

theorem readMore_colon {rest : List Char} {k : Candidate} (t : Token) {m : Mark} {indent : Int}
    (outer : List Int) (hr : rest.head?.all isSpace = true) (hl : k.mark.line = m.line)
    (hx : m.index ≤ k.mark.index + Stream.longestKey) (hpos : 0 < m.index) (hi : indent ≤ m.column)
    (hk : indent ≤ k.mark.column) :
    (keyRead rest k t m indent outer).readMore = .ok (colonRead rest k t m indent outer) := by
  have hv : Visible (':' :: rest) := ⟨by simp; decide, by simp⟩
  have hnext : (keyRead rest k t m indent outer).toNextToken = keyRead rest k t m indent outer := by
    have h := skipSpaces_visible (m := m) false 0 (':' :: rest).length (.inl hpos) hv
    simp only [Stream.toNextToken, Stream.inFlow, keyRead, List.isEmpty_nil, Bool.not_true]
    exact congrArg (fun r : Bool × Cursor => { keyRead rest k t m indent outer with
      keyAllowed := r.1, cursor := r.2 }) h
  have htake : (keyRead rest k t m indent outer).takeToken =
      (keyRead rest k t m indent outer).takeValue := by
    have halone : (Cursor.mk (':' :: rest) m).spaceOrEnd 1 = true := by
      simpa [Cursor.spaceOrEnd, Cursor.peek?, List.head?_eq_getElem?] using hr
    simp [Stream.takeToken, Cursor.atEnd, Cursor.isAt, Cursor.head?, Cursor.atDocumentIndicator,
      keyRead, halone]
  have hclose : (keyRead rest k t m indent outer).closeTo m.column = keyRead rest k t m indent outer :=
    closeTo_of_le hi
  have hcolumn : (keyRead rest k t m indent outer).cursor.column = m.column := rfl
  simp only [Stream.readMore, hnext, keyRead_dropStale t indent outer hl hx, bind, Except.bind,
    hcolumn, hclose, htake]
  by_cases hc : indent < k.mark.column
  · simp [Stream.takeValue, keyRead, colonRead, keyTokens, Stream.candidate, Stream.insert,
      Stream.openBlock, Stream.setCandidate, Stream.take, Stream.push, Stream.inFlow, Stream.mark,
      Cursor.advance, hc]
  · obtain rfl : indent = k.mark.column := by omega
    simp [Stream.takeValue, keyRead, colonRead, keyTokens, Stream.candidate, Stream.insert,
      Stream.openBlock, Stream.setCandidate, Stream.take, Stream.push, Stream.inFlow, Stream.mark,
      Cursor.advance]

theorem readMore_key {p : Place} {s : Stream} {k rest : List Char} {column : Nat} {indent : Int}
    {outer : List Int} (h : Skips p ⟨k ++ ':' :: rest, column, indent, outer, true⟩) (hp : p.Is s)
    (hk : IsKey k) (hi : indent ≤ column) (hr : rest.head?.all isSpace = true) :
    ∃ required given m, m.column = column ∧ s.readMore = .ok (keyRead rest ⟨required, given, m⟩
      ⟨.scalar (String.ofList k) .plain, m, m.move k.length⟩ (m.move k.length) indent outer) := by
  obtain ⟨m, given, rfl, hread⟩ := readMore_of_skips h hp
  have hs := startsPlain_append hk.starts (':' :: rest)
  have hmid : Midline k m := midline_of_startsPlain hk.starts fun _ => hk.notMarker
  have hhead : (k ++ ':' :: rest).head? = k.head? := by
    rw [List.head?_append, List.head?_eq_some_head hk.word.ne, Option.some_or]
  have hmid' : Midline (k ++ ':' :: rest) m :=
    midline_of_startsPlain hs fun _ => hhead.symm ▸ hk.notMarker
  have ht := takeToken_plain
    (s := Place.state ⟨k ++ ':' :: rest, m.column, indent, outer, true⟩ m given) rfl hs hmid'
  refine ⟨indent = m.column, given, m, rfl, ?_⟩
  rw [hread, closeTo_of_le hi, ht]
  simp [Stream.takePlain, Place.state, Stream.saveCandidate, Stream.dropCandidate,
    Stream.candidate, Stream.setCandidate, Stream.inFlow, Stream.push,
    scanPlain_key indent hk.word hmid hr, Stream.mark, Cursor.column, keyRead, bind, Except.bind]
  rfl

/-- A key with its colon, which opens a mapping if none is open in its column. -/
theorem Leads.key {p : Place} {k rest : List Char} {column : Nat} {indent : Int} {outer : List Int}
    (h : Skips p ⟨k ++ ':' :: rest, column, indent, outer, true⟩) (hk : IsKey k)
    (hi : indent ≤ column) (hr : rest.head?.all isSpace = true) :
    Leads p ((if indent < column then [.blockMappingStart] else []) ++
        [.key, .scalar (String.ofList k) .plain, .value])
      ⟨rest, column + k.length + 1, column, if indent < column then indent :: outer else outer,
        false⟩ := by
  have hshort := h.shorter
  have hpos := List.length_pos_iff.mpr hk.word.ne
  intro s hp
  obtain ⟨required, given, m, rfl, hread⟩ := readMore_key h hp hk hi hr
  have hline : (Candidate.mk required given m).mark.line = (m.move k.length).line := rfl
  have hx : (m.move k.length).index ≤ m.index + Stream.longestKey :=
    Nat.add_le_add_left hk.short m.index
  have hindex : 0 < (m.move k.length).index := Nat.lt_of_lt_of_le hpos (Nat.le_add_left _ _)
  have hcolumn : indent ≤ ((m.move k.length).column : Int) := by
    simp only [Mark.move]
    omega
  -- The word waits as a candidate, so the colon is read before a token is given out.
  have hcolon := Gives.readCandidate (List.cons_ne_nil _ _)
    (keyRead_dropStale _ indent outer hline hx) (by simp [keyRead, Stream.firstIsCandidate])
    (readMore_colon ⟨.scalar (String.ofList k) .plain, m, m.move k.length⟩ outer hr hline hx hindex
      hcolumn hi)
  obtain ⟨t, ht⟩ : ∃ t : Token, t = ⟨.scalar (String.ofList k) .plain, m, m.move k.length⟩ := ⟨_, rfl⟩
  rw [← ht] at hcolon hread
  have hlexemes : (keyTokens indent m t (m.move k.length)).map Token.lexeme =
      (if indent < m.column then [.blockMappingStart] else []) ++
        [.key, .scalar (String.ofList k) .plain, .value] := by
    rw [keyTokens_lexemes, ht]
  have hend : ∀ u ∈ keyTokens indent m t (m.move k.length), u.lexeme ≠ .streamEnd := by
    intro u hu he
    have hm := List.mem_map_of_mem (f := Token.lexeme) hu
    rw [hlexemes, he] at hm
    split at hm <;> simp at hm
  have hgive := ((Gives.read hp.waiting hread).trans hcolon).trans (.giveAll ⟨rfl, rfl⟩ hend)
  have hlength := length_keyTokens_le indent m t (m.move k.length)
  simp only [List.nil_append, colonRead, hlexemes] at hgive
  refine ⟨_, _, ?_, ⟨(m.move k.length).move 1, _, rfl, .inl (Nat.succ_pos _), rfl⟩, hgive⟩
  simp only [List.length_append, List.length_cons] at hshort ⊢
  omega

theorem Leads.firstKey {p : Place} {k rest : List Char} {column : Nat} {indent : Int}
    {outer : List Int} (h : Skips p ⟨k ++ ':' :: rest, column, indent, outer, true⟩) (hk : IsKey k)
    (hi : indent < column) (hr : rest.head?.all isSpace = true) :
    Leads p [.blockMappingStart, .key, .scalar (String.ofList k) .plain, .value]
      ⟨rest, column + k.length + 1, column, indent :: outer, false⟩ := by
  have h := Leads.key h hk (Int.le_of_lt hi) hr
  rwa [if_pos hi, if_pos hi] at h

theorem Leads.nextKey {p : Place} {k rest : List Char} {column : Nat} {outer : List Int}
    (h : Skips p ⟨k ++ ':' :: rest, column, column, outer, true⟩) (hk : IsKey k)
    (hr : rest.head?.all isSpace = true) :
    Leads p [.key, .scalar (String.ofList k) .plain, .value]
      ⟨rest, column + k.length + 1, column, outer, false⟩ := by
  have h := Leads.key h hk (Int.le_refl _) hr
  rwa [if_neg (Int.lt_irrefl _), if_neg (Int.lt_irrefl _)] at h

/-- A dash in the column of the innermost block, which allows entries there. -/
theorem takeToken_entry {s : Stream} {rest : List Char} (hq : Quiet s) (hs : s.cursor.rest = '-' :: rest)
    (hr : rest.head?.any isSpace = true) (ha : s.keyAllowed = true) (hi : s.indent = s.cursor.column) :
    s.takeToken = .ok { s with
      cursor := s.cursor.advance 1, keyAllowed := true
      waiting := s.waiting ++ [⟨.blockEntry, s.mark, (s.cursor.advance 1).mark⟩] } := by
  obtain ⟨⟨rest₀, m⟩, waiting, given, indent, outer, blockKey, flowKeys, keyAllowed, started⟩ := s
  obtain ⟨rfl, rfl⟩ := hq
  obtain rfl : rest₀ = '-' :: rest := hs
  obtain rfl : keyAllowed = true := ha
  cases rest with
  | nil => cases hr
  | cons x rest =>
    have hx : isSpace x = true := hr
    have hd : x ≠ '-' := by
      rintro rfl
      exact absurd hx (by decide)
    have hi' : ¬ indent < (Cursor.mk ('-' :: x :: rest) m).column := by
      rw [show indent = _ from hi]
      exact Int.lt_irrefl _
    simp [Stream.takeToken, Cursor.atEnd, Cursor.isAt, Cursor.head?, Cursor.atDocumentIndicator,
      Cursor.peek?, Cursor.spaceOrEnd, hd, hx, Stream.takeBlockEntry, Stream.openFor, Stream.openBlock,
      Stream.inFlow, Stream.dropCandidate, Stream.candidate, Stream.setCandidate, Stream.take,
      Stream.push, Stream.mark, hi', bind, Except.bind]

theorem Leads.entry {p : Place} {rest : List Char} {column : Nat} {outer : List Int}
    (h : Skips p ⟨'-' :: rest, column, column, outer, true⟩) (hr : rest.head?.any isSpace = true) :
    Leads p [.blockEntry] ⟨rest, column + 1, column, outer, true⟩ := by
  have hlength : 1 + 1 + 6 * rest.length ≤ 6 * p.rest.length := by
    have hshort := h.shorter
    simp only [List.length_cons] at hshort
    omega
  refine .of_readMore (by simp) hlength fun s hp => ?_
  obtain ⟨m, given, rfl, hread⟩ := readMore_of_skips h hp
  have hclose : (Place.state ⟨'-' :: rest, m.column, m.column, outer, true⟩ m given).closeTo m.column =
      Place.state ⟨'-' :: rest, m.column, m.column, outer, true⟩ m given :=
    closeTo_of_le (Int.le_refl _)
  rw [hclose, takeToken_entry ⟨rfl, rfl⟩ rfl hr rfl rfl] at hread
  exact ⟨m.move 1, given, [⟨.blockEntry, m, m.move 1⟩], rfl, Nat.succ_pos _, rfl, hread⟩

/-- The next dash closes the block of the entry before it. -/
theorem Leads.nextEntry {p : Place} {rest : List Char} {column : Nat} {indent : Int}
    {outer : List Int} (h : Skips p ⟨'-' :: rest, column, indent, column :: outer, true⟩)
    (hi : column < indent) (hr : rest.head?.any isSpace = true) :
    Leads p [.blockEnd, .blockEntry] ⟨rest, column + 1, column, outer, true⟩ := by
  have hlength : 1 + 2 + 6 * rest.length ≤ 6 * p.rest.length := by
    have hshort := h.shorter
    simp only [List.length_cons] at hshort
    omega
  refine .of_readMore (by simp) hlength fun s hp => ?_
  obtain ⟨m, given, rfl, hread⟩ := readMore_of_skips h hp
  have hclose : (Place.state ⟨'-' :: rest, m.column, indent, m.column :: outer, true⟩ m given).closeTo
      m.column = (Place.state ⟨'-' :: rest, m.column, m.column, outer, true⟩ m given).push
        ⟨.blockEnd, m, m⟩ := by
    have hstop := closeTo_of_le (s := (Place.state ⟨'-' :: rest, m.column, m.column, outer, true⟩ m
      given).push ⟨.blockEnd, m, m⟩) (Int.le_refl _)
    simp only [Stream.closeTo, Stream.inFlow, Place.state, Stream.push, List.isEmpty_nil,
      Bool.not_true, Bool.false_eq_true, if_false] at hstop ⊢
    rw [Stream.closeBlocks, if_pos hi]
    exact hstop
  rw [hclose, takeToken_entry ⟨rfl, rfl⟩ rfl hr rfl rfl] at hread
  exact ⟨m.move 1, given, [⟨.blockEnd, m, m⟩, ⟨.blockEntry, m, m.move 1⟩], rfl, Nat.succ_pos _, rfl,
    hread⟩

theorem tokens_streamEnd {s : Stream} {t : Token} (hq : Quiet s) (hw : s.waiting = [t])
    (he : t.lexeme = .streamEnd) (fuel : Nat) : Stream.tokens (fuel + 1) s = ([t], none) := by
  rw [Stream.tokens]
  simp [hw, hq.dropStale, hq.firstIsCandidate, he]

theorem takeEnd_nested (m : Mark) (given column inner outer : Nat) (keyAllowed : Bool) :
    ∃ m' : Mark, (Place.state ⟨[], column, inner, [outer, -1], keyAllowed⟩ m given).takeEnd =
      .ok { cursor := ⟨[], m'⟩
            waiting := [⟨.blockEnd, m', m'⟩, ⟨.blockEnd, m', m'⟩, ⟨.streamEnd, m', m'⟩]
            given, indent := -1, outer := [], keyAllowed := false, started := true } := by
  have hi : (-1 : Int) < inner := by omega
  have ho : (-1 : Int) < outer := by omega
  refine ⟨if m.column = 0 then m else { m with line := m.line + 1, column := 0 }, ?_⟩
  simp [Stream.takeEnd, Place.state, Stream.closeTo, Stream.inFlow, Stream.closeBlocks, hi, ho,
    Stream.push, Stream.mark, Stream.dropCandidate, Stream.candidate, Stream.setCandidate, bind,
    Except.bind]
  rfl

theorem tokens_atEnd {p : Place} {column inner outer : Nat} {keyAllowed : Bool} {s : Stream}
    (h : Skips p ⟨[], column, inner, [outer, -1], keyAllowed⟩) (hp : p.Is s) (hi : inner ≤ column) :
    ∃ ts, ts.map Token.lexeme = [.blockEnd, .blockEnd, .streamEnd] ∧
      ∀ fuel, Stream.tokens (fuel + 4) s = (ts, none) := by
  obtain ⟨m, given, rfl, hread⟩ := readMore_of_skips h hp
  have hclose : (Place.state ⟨[], m.column, inner, [outer, -1], keyAllowed⟩ m given).closeTo m.column =
      Place.state ⟨[], m.column, inner, [outer, -1], keyAllowed⟩ m given :=
    closeTo_of_le (by simpa [Place.state] using hi)
  obtain ⟨m', hend⟩ := takeEnd_nested m given m.column inner outer keyAllowed
  have htake : ∀ s : Stream, s.cursor.rest = [] → s.takeToken = s.takeEnd := by
    intro s hs
    simp [Stream.takeToken, Cursor.atEnd, hs]
  rw [hclose, htake _ rfl, hend] at hread
  have hgive := ((Gives.read hp.waiting hread).trans (.give ⟨rfl, rfl⟩ rfl (by simp))).trans
    (.give ⟨rfl, rfl⟩ rfl (by simp))
  obtain ⟨ts, hts, hrun⟩ := hgive
  refine ⟨ts ++ [⟨.streamEnd, m', m'⟩], by rw [List.map_append, hts]; rfl, fun fuel => ?_⟩
  have hstep : Stream.tokens (fuel + 4) s = _ := hrun (fuel + 1)
  rw [hstep, tokens_streamEnd ⟨rfl, rfl⟩ rfl rfl]

theorem disallowedAt?_eq_none {text : List Char} (h : ∀ c ∈ text, isAllowed c = true) (offset : Nat) :
    disallowedAt? offset text = none := by
  induction text generalizing offset with
  | nil => rfl
  | cons x text ih =>
    rw [disallowedAt?, if_pos (h x List.mem_cons_self)]
    exact ih (fun c hc => h c (List.mem_cons_of_mem x hc)) _

/-- The tokens of a source in which blocks are nested to the depth of two at its end. -/
theorem tokens_of_leads {source : String} {ls : List Lexeme} {column : Nat} (inner outer : Nat)
    {keyAllowed : Bool} (ha : ∀ c ∈ source.toList, isAllowed c = true)
    (hb : source.toList.head? ≠ some Stream.byteOrderMark) (hi : inner ≤ column)
    (h : Leads ⟨source.toList, 0, -1, [], true⟩ ls ⟨[], column, inner, [outer, -1], keyAllowed⟩) :
    ∃ ts, tokens source = (ts, none) ∧
      ts.map Token.lexeme = .streamStart :: (ls ++ [.blockEnd, .blockEnd, .streamEnd]) := by
  have hread : (Stream.ofSource source).readMore = .ok
      { cursor := ⟨source.toList, {}⟩, waiting := [⟨.streamStart, {}, {}⟩], started := true } := rfl
  have hstart : Gives 2 (Stream.ofSource source) [.streamStart]
      (Place.state ⟨source.toList, 0, -1, [], true⟩ {} 1) :=
    (Gives.read rfl hread).trans (.give ⟨rfl, rfl⟩ rfl (by simp))
  obtain ⟨n, s, hn, hs, hrun⟩ := h _ ⟨{}, 1, rfl, .inr hb, rfl⟩
  have hskip : Skips ⟨[], column, inner, [outer, -1], keyAllowed⟩
      ⟨[], column, inner, [outer, -1], keyAllowed⟩ :=
    Skips.blanks 0 column inner [outer, -1] keyAllowed ⟨rfl, by simp⟩
  obtain ⟨ends, hends, hend⟩ := tokens_atEnd hskip hs hi
  obtain ⟨ts, hts, htokens⟩ := hstart.trans hrun
  refine ⟨ts ++ ends, ?_, by simp [hts, hends]⟩
  -- Two steps at the start and four at the end are left over from the fuel for the characters.
  obtain ⟨fuel, hf⟩ : ∃ fuel, 6 * source.toList.length + 16 = fuel + 4 + (2 + n) :=
    ⟨6 * source.toList.length + 10 - n, by simp only [List.length_nil] at hn; omega⟩
  simp only [tokens, Stream.ofSource, Cursor.ofSource, disallowedAt?_eq_none ha]
  simp only [Stream.ofSource, Cursor.ofSource] at htokens
  rw [hf, htokens, hend]

end Tokens

end ExampleTests.Yaml
