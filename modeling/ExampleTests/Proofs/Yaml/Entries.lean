import ExampleTests.Proofs.Yaml.Event.Grammar
import ExampleTests.Proofs.Yaml.Read
import ExampleTests.Proofs.Yaml.Token.Stream

/-! Documents of a subject and a list of entries, each with a title and a result.
Their tokens and events show the parts in order, and no comment. -/

namespace ExampleTests.Yaml

/-- An entry with the comment that may follow its title. -/
structure Entry where
  title : List Char
  comment : List Char
  returns : List Char

structure Entry.Fits (e : Entry) : Prop where
  title : Words e.title
  titleStarts : startsPlain e.title = true
  comment : IsComment e.comment
  oneLine : NoBreaks e.comment
  returns : Words e.returns
  returnsStarts : startsPlain e.returns = true

def titleKey : List Char := "title".toList
def returnKey : List Char := "return".toList
def subjectKey : List Char := "subject".toList
def examplesKey : List Char := "examples".toList

@[simp] theorem ofList_titleKey : String.ofList titleKey = "title" := String.ofList_toList
@[simp] theorem ofList_returnKey : String.ofList returnKey = "return" := String.ofList_toList
@[simp] theorem ofList_subjectKey : String.ofList subjectKey = "subject" := String.ofList_toList
@[simp] theorem ofList_examplesKey : String.ofList examplesKey = "examples" := String.ofList_toList

theorem isKey_of {k : List Char} (hs : k.any isSpace = false)
    (hw : k ≠ [] ∧ endsKey k = false ∧ startsPlain k = true)
    (hk : (k.head? ≠ some '-' ∧ k.head? ≠ some '.') ∧ k.length ≤ Stream.longestKey) : IsKey k := by
  have hspace : ∀ c ∈ k, isSpace c = false := by simpa using hs
  exact ⟨⟨hw.1, hspace, hw.2.1⟩, hw.2.2, hk.1, hk.2⟩

theorem isKey_title : IsKey titleKey := isKey_of (by decide) (by decide) (by decide)

theorem isKey_return : IsKey returnKey := isKey_of (by decide) (by decide) (by decide)

theorem isKey_subject : IsKey subjectKey := isKey_of (by decide) (by decide) (by decide)

theorem isKey_examples : IsKey examplesKey := isKey_of (by decide) (by decide) (by decide)

namespace Entry

/-- The text of an entry behind its dash. -/
def body (e : Entry) : List Char :=
  ' ' :: (titleKey ++ ':' :: ' ' :: (e.title ++ (e.comment ++
    '\n' :: ' ' :: ' ' :: (returnKey ++ ':' :: ' ' :: e.returns))))

def text (e : Entry) : List Char := '\n' :: '-' :: e.body

def lexemes (e : Entry) : List Lexeme :=
  [.blockMappingStart, .key, .scalar "title" .plain, .value, .scalar (String.ofList e.title) .plain,
    .key, .scalar "return" .plain, .value, .scalar (String.ofList e.returns) .plain]

end Entry

theorem visible_of_startsPlain {text : List Char} (h : startsPlain text = true) : Visible text := by
  cases text with
  | nil => cases h
  | cons x text =>
    simp only [startsPlain, Bool.and_eq_true, Bool.not_eq_true'] at h
    refine ⟨by simpa using h.1, ?_⟩
    rintro hx
    cases hx
    exact absurd h.2 (by simp [Stream.indicators])

theorem IsKey.visible {k : List Char} (h : IsKey k) (tail : List Char) : Visible (k ++ tail) :=
  visible_of_startsPlain (startsPlain_append h.starts tail)

section Places

variable {text tail rest : List Char} {column' : Nat} {lineEnded : Bool}

theorem leads_value {column : Nat} {indent : Int} (outer : List Int) (hw : Words text)
    (hs : startsPlain text = true) (hi : indent < column)
    (he : PlainEnds (indent + 1) (column + 1 + text.length) tail lineEnded rest column') :
    Leads ⟨' ' :: (text ++ tail), column, indent, outer, false⟩ [.scalar (String.ofList text) .plain]
      ⟨rest, column', indent, outer, lineEnded⟩ :=
  Leads.value (Skips.blanks 1 column indent outer false
    (visible_of_startsPlain (startsPlain_append hs tail))) hw hs (by omega) (Nat.succ_pos _) he

/-- A value, and what its line may hold behind it, up to the next line. -/
theorem leads_line {comment : List Char} {column k : Nat} {indent : Int} (outer : List Int)
    (hi : indent < column) (hk : k ≤ indent) (hw : Words text) (hs : startsPlain text = true)
    (hc : IsComment comment) (hn : NoBreaks comment) (hv : Visible rest) :
    ∃ p, Leads ⟨' ' :: (text ++ (comment ++ '\n' :: (List.replicate k ' ' ++ rest))), column, indent,
        outer, false⟩ [.scalar (String.ofList text) .plain] p ∧ Skips p ⟨rest, k, indent, outer, true⟩ := by
  obtain rfl | ⟨gap, comment, rfl, hg, hne⟩ := hc
  · exact ⟨_, leads_value outer hw hs hi (.line (by omega) hv.noSpace),
      Skips.blanks 0 k indent outer true hv⟩
  · have hline : NoBreaks ('#' :: comment) := fun c hc => hn c (List.mem_append_right gap hc)
    refine ⟨_, ?_, Skips.lineEnd 0 k (column + 1 + text.length + gap.length) indent outer false
      (fun _ => rfl) hline hv⟩
    rw [List.append_assoc]
    exact leads_value outer hw hs hi (.comment hg hne)

theorem Entry.Fits.leads_body {e : Entry} (h : e.Fits) {more : List Char}
    (he : PlainEnds 3 (10 + e.returns.length) more lineEnded rest column') :
    Leads ⟨e.body ++ more, 1, 0, [-1], true⟩ e.lexemes ⟨rest, column', 2, [0, -1], lineEnded⟩ := by
  have hkey := Leads.firstKey (Skips.blanks 1 1 0 [-1] true (isKey_title.visible (':' :: ' ' ::
    (e.title ++ (e.comment ++ '\n' :: ' ' :: ' ' :: (returnKey ++ ':' :: ' ' :: (e.returns ++ more)))))))
    isKey_title (by decide) rfl
  obtain ⟨p, htitle, hp⟩ := leads_line [0, -1] (show (2 : Int) < (8 : Nat) by decide)
    (show ((2 : Nat) : Int) ≤ 2 by decide) h.title h.titleStarts h.comment h.oneLine
    (isKey_return.visible (':' :: ' ' :: (e.returns ++ more)))
  have hreturn := Leads.nextKey hp isKey_return rfl
  have hvalue := leads_value [0, -1] h.returns h.returnsStarts (show (2 : Int) < (9 : Nat) by decide) he
  have hall := hkey.trans (htitle.trans (hreturn.trans hvalue))
  simpa [Entry.body, Entry.lexemes] using hall

theorem leads_entries {e : Entry} {es : List Entry} (h : ∀ e' ∈ e :: es, e'.Fits) :
    ∃ column, 2 ≤ column ∧ Leads ⟨e.body ++ es.flatMap Entry.text, 1, 0, [-1], true⟩
      (e.lexemes ++ es.flatMap fun e => .blockEnd :: .blockEntry :: e.lexemes)
      ⟨[], column, 2, [0, -1], false⟩ := by
  induction es generalizing e with
  | nil => exact ⟨10 + e.returns.length, by omega, by
      simpa using (h e List.mem_cons_self).leads_body .source⟩
  | cons next es ih =>
    obtain ⟨column, hc, hi⟩ := ih (e := next) fun e' he => h e' (List.mem_cons_of_mem e he)
    have hdash : Visible ('-' :: (next.body ++ es.flatMap Entry.text)) :=
      ⟨by simp; decide, by simp⟩
    have hbody := (h e List.mem_cons_self).leads_body (.line (k := 0) (by decide) hdash.noSpace)
    have hentry := Leads.nextEntry (Skips.blanks 0 0 2 [0, -1] true hdash) (by decide) rfl
    have hall := hbody.trans (hentry.trans hi)
    exact ⟨column, hc, by simpa [Entry.text] using hall⟩

end Places

/-- The text of a document with at least one entry. -/
def documentText (subject : List Char) (es : List Entry) : List Char :=
  subjectKey ++ ':' :: ' ' :: (subject ++ '\n' :: (examplesKey ++ ':' :: es.flatMap Entry.text))

/-- A subject that is a scalar of one line, or left out. -/
def SubjectFits (subject : List Char) : Prop :=
  subject = [] ∨ Words subject ∧ startsPlain subject = true

def documentLexemes (subject : List Char) (es : List Entry) : List Lexeme :=
  [.blockMappingStart, .key, .scalar "subject" .plain, .value] ++
    (if subject = [] then [] else [.scalar (String.ofList subject) .plain]) ++
    [.key, .scalar "examples" .plain, .value] ++
    (es.flatMap fun e => .blockEntry :: (e.lexemes ++ [.blockEnd])) ++ [.blockEnd]

theorem leads_subject {subject : List Char} (h : SubjectFits subject) {next : List Char}
    (hv : Visible next) :
    ∃ p, Leads ⟨' ' :: (subject ++ '\n' :: next), 8, 0, [-1], false⟩
        (if subject = [] then [] else [.scalar (String.ofList subject) .plain]) p ∧
      Skips p ⟨next, 0, 0, [-1], true⟩ := by
  have hnone : NoBreaks [] := by simp [NoBreaks]
  rcases h with rfl | ⟨hw, hs⟩
  · exact ⟨_, .refl _, Skips.lineEnd 1 0 8 0 [-1] false (fun h => absurd rfl h) hnone hv⟩
  · rw [if_neg hw.ne_nil]
    exact leads_line [-1] (k := 0) (by decide) (by decide) hw hs (.inl rfl) hnone hv

/-- Ends of blocks in front of all entries but the first stand behind the entries. -/
theorem flatMap_blockEnd (es : List Entry) (ls : List Lexeme) :
    (es.flatMap fun e => .blockEnd :: .blockEntry :: e.lexemes) ++ .blockEnd :: ls =
      .blockEnd :: ((es.flatMap fun e => .blockEntry :: (e.lexemes ++ [.blockEnd])) ++ ls) := by
  induction es with
  | nil => rfl
  | cons e es ih => simp [ih]

theorem leads_document {subject : List Char} {es : List Entry} (hs : SubjectFits subject)
    (hne : es ≠ []) (h : ∀ e ∈ es, e.Fits) :
    ∃ ls column, 2 ≤ column ∧ ls ++ [.blockEnd, .blockEnd, .streamEnd] =
        documentLexemes subject es ++ [.streamEnd] ∧
      Leads ⟨documentText subject es, 0, -1, [], true⟩ ls ⟨[], column, 2, [0, -1], false⟩ := by
  obtain ⟨e, es, rfl⟩ := List.exists_cons_of_ne_nil hne
  obtain ⟨column, hc, hentries⟩ := leads_entries h
  have hdash : Visible ('-' :: (e.body ++ es.flatMap Entry.text)) := ⟨by simp; decide, by simp⟩
  have hkey := Leads.firstKey (Skips.blanks 0 0 (-1) [] true (isKey_subject.visible (':' :: ' ' ::
    (subject ++ '\n' :: (examplesKey ++ ':' :: (e :: es).flatMap Entry.text))))) isKey_subject
    (by decide) rfl
  obtain ⟨p, hsubject, hp⟩ := leads_subject hs
    (isKey_examples.visible (':' :: (e :: es).flatMap Entry.text))
  have hexamples := Leads.nextKey hp isKey_examples rfl
  have hnone : NoBreaks [] := by simp [NoBreaks]
  have hentry := Leads.entry (Skips.lineEnd 0 0 9 0 [-1] false (fun h => absurd rfl h) hnone hdash) rfl
  have hall := hkey.trans (hsubject.trans (hexamples.trans (hentry.trans hentries)))
  exact ⟨_, column, hc, by simp [documentLexemes, flatMap_blockEnd], hall⟩

/-- The tokens of a document show its parts in their order, and no comment. -/
theorem tokens_document {source : String} {subject : List Char} {es : List Entry}
    (ht : source.toList = documentText subject es) (hs : SubjectFits subject) (hne : es ≠ [])
    (h : ∀ e ∈ es, e.Fits) (ha : ∀ c ∈ source.toList, isAllowed c = true) :
    ∃ ts, tokens source = (ts, none) ∧
      ts.map Token.lexeme = .streamStart :: (documentLexemes subject es ++ [.streamEnd]) := by
  obtain ⟨ls, column, hc, hls, hl⟩ := leads_document hs hne h
  have hmark : source.toList.head? ≠ some Stream.byteOrderMark := by
    have hhead : source.toList.head? = some 's' := by rw [ht]; rfl
    rw [hhead]
    decide
  obtain ⟨ts, hts, hmap⟩ := tokens_of_leads 2 0 ha hmark hc (ht ▸ hl)
  exact ⟨ts, hts, hls ▸ hmap⟩

section Items

def Entry.items (e : Entry) : List Item :=
  [.mappingStart none, textItem "title", textItem (String.ofList e.title), textItem "return",
    textItem (String.ofList e.returns), .mappingEnd]

/-- The items of a document, which show its parts in their order. -/
def documentItems (subject : List Char) (es : List Entry) : List Item :=
  [.mappingStart none, textItem "subject", textItem (String.ofList subject), textItem "examples",
    .sequenceStart none] ++ es.flatMap Entry.items ++ [.sequenceEnd, .mappingEnd]

/-- The event of an item without an anchor; there is none for an alias. -/
def Item.event? : Item → Option Event
  | .scalar s => some (.scalar none s)
  | .sequenceStart tag => some (.sequenceStart { tag })
  | .sequenceEnd => some .sequenceEnd
  | .mappingStart tag => some (.mappingStart { tag })
  | .mappingEnd => some .mappingEnd
  | .alias _ | .nothing => none

def eventsOf (items : List Item) : List Event := items.filterMap Item.event?

theorem eventsOf_append (items more : List Item) :
    eventsOf (items ++ more) = eventsOf items ++ eventsOf more := List.filterMap_append

theorem Entry.yields (e : Entry) (returns : List Rule) (ls : List Lexeme) :
    Yields ⟨.flatSequence, returns, .blockEntry :: (e.lexemes ++ .blockEnd :: ls)⟩ (eventsOf e.items)
      ⟨.flatSequence, returns, ls⟩ :=
  yields_entry.trans (yields_firstKey.trans (yields_value.trans (yields_key.trans
    (yields_value.trans (yields_mappingEnd (by simp))))))

theorem yields_entries (es : List Entry) (returns : List Rule) (ls : List Lexeme) :
    Yields ⟨.flatSequence, returns,
        (es.flatMap fun e => .blockEntry :: (e.lexemes ++ [.blockEnd])) ++ ls⟩
      (eventsOf (es.flatMap Entry.items)) ⟨.flatSequence, returns, ls⟩ := by
  induction es with
  | nil => exact .refl _
  | cons e es ih =>
    have h := (e.yields returns _).trans ih
    rw [← eventsOf_append] at h
    simpa using h

theorem yields_subject (subject : List Char) (returns : List Rule) (ls : List Lexeme) :
    Yields ⟨.blockValue, returns, .value :: ((if subject = [] then [] else
        [.scalar (String.ofList subject) .plain]) ++ .key :: ls)⟩
      [.scalar none { text := String.ofList subject }] ⟨.blockKey false, returns, .key :: ls⟩ := by
  by_cases h : subject = []
  · rw [h, if_pos rfl]
    exact yields_noValue
  · rw [if_neg h]
    exact yields_value

theorem yields_document {subject : List Char} {es : List Entry} (hne : es ≠ []) :
    Yields ⟨.bareDocument, [], documentLexemes subject es ++ [.streamEnd]⟩
      (.documentStart :: (eventsOf (documentItems subject es) ++ [.documentEnd]))
      ⟨.document, [], [.streamEnd]⟩ := by
  obtain ⟨e, es, rfl⟩ := List.exists_cons_of_ne_nil hne
  have hsubject := yields_subject subject [.documentEnd] (.scalar "examples" .plain :: .value ::
    ((((e :: es).flatMap fun e => .blockEntry :: (e.lexemes ++ [.blockEnd]))) ++
      [.blockEnd, .streamEnd]))
  have hentries := yields_entries (e :: es) [.blockKey false, .documentEnd] [.blockEnd, .streamEnd]
  have hopen := yields_bareDocument.trans (yields_blockNode.trans
    ((yields_firstKey (k := "subject")).trans hsubject))
  have hlist := (yields_key (k := "examples")).trans (yields_sequenceStart.trans hentries)
  have hend := (yields_sequenceEnd (by simp)).trans ((yields_mappingEnd (by simp)).trans yields_documentEnd)
  have hall := hopen.trans (hlist.trans hend)
  simpa [documentLexemes, documentItems, eventsOf, Item.event?, textItem] using hall

theorem length_documentItems_le (subject : List Char) (es : List Entry) :
    (documentItems subject es).length ≤ (documentLexemes subject es).length + 2 := by
  have h : (es.flatMap Entry.items).length ≤
      (es.flatMap fun e => Lexeme.blockEntry :: (e.lexemes ++ [.blockEnd])).length := by
    induction es with
    | nil => exact Nat.le_refl 0
    | cons e es ih =>
      simp only [List.flatMap_cons, List.length_append, List.length_cons, Entry.items, Entry.lexemes,
        List.length_nil] at ih ⊢
      omega
  simp only [documentItems, documentLexemes, List.length_append, List.length_cons, List.length_nil] at h ⊢
  omega

theorem events_document {source : String} {subject : List Char} {es : List Entry}
    (ht : source.toList = documentText subject es) (hs : SubjectFits subject) (hne : es ≠ [])
    (h : ∀ e ∈ es, e.Fits) (ha : ∀ c ∈ source.toList, isAllowed c = true) :
    ∃ ms : List (Marked Event), events source = (ms, none) ∧ ms.map Prod.fst =
      .documentStart :: (eventsOf (documentItems subject es) ++ [.documentEnd, .streamEnd]) := by
  obtain ⟨ts, hts, hmap⟩ := tokens_document ht hs hne h ha
  obtain ⟨start, ts, rfl, -, hls⟩ := List.map_eq_cons_iff.mp hmap
  have hlexemes : ts.length = (documentLexemes subject es).length + 1 := by
    rw [← List.length_map (f := Token.lexeme), hls, List.length_append, List.length_singleton]
  have hevents : (eventsOf (documentItems subject es)).length ≤ (documentItems subject es).length :=
    List.length_filterMap_le _ _
  have hitems := length_documentItems_le subject es
  obtain ⟨ms, hms, hes⟩ := events_of_yields hts
    (by simp only [List.length_append, List.length_cons, List.length_nil]; omega)
    (hls ▸ yields_document hne)
  exact ⟨ms, hms, by simpa using hes⟩

theorem collect_eventsOf {items : List Item} (hi : ∀ i ∈ items, i.event?.isSome)
    {ms : List (Marked Event)} (hms : ms.map Prod.fst = eventsOf items) (rest : List (Marked Event))
    (fault : Option Fault) (d : Document.Draft) :
    ∃ marked : List (Marked Item), marked.map Prod.fst = items ∧
      Document.collect fault (ms ++ rest) d =
        Document.collect fault rest { d with items := d.items ++ marked } := by
  induction items generalizing ms d with
  | nil =>
    obtain rfl : ms = [] := List.map_eq_nil_iff.mp hms
    exact ⟨[], rfl, by simp⟩
  | cons item items ih =>
    have hi' := fun i h => hi i (List.mem_cons_of_mem item h)
    obtain ⟨e, he⟩ := Option.isSome_iff_exists.mp (hi item List.mem_cons_self)
    simp only [eventsOf, List.filterMap_cons, he] at hms
    obtain ⟨⟨e', m⟩, ms, rfl, rfl, hrest⟩ := List.map_eq_cons_iff.mp hms
    obtain ⟨marked, hmarked, hrun⟩ := ih hi' hrest (d.add item m)
    refine ⟨(item, m) :: marked, by rw [List.map_cons, hmarked], ?_⟩
    have hstep : Document.collect fault ((e', m) :: (ms ++ rest)) d =
        Document.collect fault (ms ++ rest) (d.add item m) := by
      cases item <;> simp only [Item.event?, Option.some.injEq, reduceCtorEq] at he <;>
        subst he <;> rfl
    rw [List.cons_append, hstep, hrun]
    simp [Document.Draft.add]

theorem isSome_event? (subject : List Char) (es : List Entry) :
    ∀ i ∈ documentItems subject es, i.event?.isSome := by
  have hentry : ∀ e : Entry, ∀ i ∈ e.items, i.event?.isSome := by
    intro e i hi
    simp only [Entry.items, List.mem_cons, List.not_mem_nil, or_false] at hi
    rcases hi with rfl | rfl | rfl | rfl | rfl | rfl <;> rfl
  intro i hi
  simp only [documentItems, List.mem_append, List.mem_flatMap, List.mem_cons, List.not_mem_nil,
    or_false] at hi
  rcases hi with ((rfl | rfl | rfl | rfl | rfl) | ⟨e, -, hi⟩) | rfl | rfl
  case inl.inr => exact hentry e i hi
  all_goals rfl

theorem ofSource_document {source : String} {subject : List Char} {es : List Entry}
    (ht : source.toList = documentText subject es) (hs : SubjectFits subject) (hne : es ≠ [])
    (h : ∀ e ∈ es, e.Fits) (ha : ∀ c ∈ source.toList, isAllowed c = true) :
    ∃ items, items.map Prod.fst = documentItems subject es ∧
      Document.ofSource source = { items } := by
  obtain ⟨ms, hms, hes⟩ := events_document ht hs hne h ha
  obtain ⟨⟨e, m⟩, inner, rfl, rfl, hinner⟩ := List.map_eq_cons_iff.mp hes
  obtain ⟨nodes, ends, rfl, hnodes, hends⟩ := List.map_eq_append_iff.mp hinner
  obtain ⟨⟨e, n⟩, last, rfl, rfl, hlast⟩ := List.map_eq_cons_iff.mp hends
  obtain ⟨⟨e, n'⟩, rest, rfl, rfl, -⟩ := List.map_eq_cons_iff.mp hlast
  obtain ⟨items, hitems, hcollect⟩ := collect_eventsOf (isSome_event? subject es) hnodes
    ((.documentEnd, n) :: (.streamEnd, n') :: rest) none {}
  refine ⟨items, hitems, ?_⟩
  rw [Document.ofSource, hms]
  simp only [Document.collect, hcollect]
  simp [Document.Draft.finish, Document.isFollowed]

end Items

section Reading

/-- The example that an entry is read as. -/
def Entry.toExample (e : Entry) : Example :=
  { returns := Value.ofFound? (Plain.resolve e.returns) }

theorem takes_entries (d : Document) {es : List Entry} (h : ∀ e ∈ es, e.Fits) (path : Path)
    (index : Nat) :
    Document.TakesElements d d.readExample path index (es.flatMap Entry.items ++ [.sequenceEnd])
      (es.map Entry.toExample) := by
  induction es generalizing index with
  | nil => exact .nil d.readExample path index
  | cons e es ih =>
    have hne : String.ofList e.returns ≠ "" := by
      have := (h e List.mem_cons_self).returns.ne_nil
      simpa using this
    have hread := Document.takes_example (d := d) (.element path index) (String.ofList e.title) hne
    rw [String.toList_ofList] at hread
    have hi := ih (fun e' he => h e' (List.mem_cons_of_mem e he)) (index + 1)
    simpa [Entry.items, Entry.toExample] using Document.TakesElements.cons (by simp) hread hi

/-- A document of fitting texts is read to its subject and its results. -/
theorem parseSpec_document {source : String} {subject : List Char} {es : List Entry}
    (ht : source.toList = documentText subject es) (hs : SubjectFits subject) (hne : es ≠ [])
    (h : ∀ e ∈ es, e.Fits) (ha : ∀ c ∈ source.toList, isAllowed c = true) :
    parseSpec source =
      .ok { subject := String.ofList subject, examples := some (es.map Entry.toExample) } := by
  obtain ⟨items, hitems, hsource⟩ := ofSource_document ht hs hne h ha
  have hread := Document.takes_spec .root (String.ofList subject)
    (takes_entries { items } h (.member .root "examples") 0)
  have hrun := hread items (by rw [hitems]; simp [documentItems]) [] 0
  rw [List.append_nil] at hrun
  simp [parseSpec, readAll, hsource, hrun, bind, Except.bind]

end Reading

end ExampleTests.Yaml
