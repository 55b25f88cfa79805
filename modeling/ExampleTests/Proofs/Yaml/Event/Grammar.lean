import ExampleTests.Yaml.Event.Grammar

/-! Events of block mappings. A stage of the grammar is what it may read next, apart
from the places of the tokens. -/

namespace ExampleTests.Yaml

structure Stage where
  rule : Rule
  returns : List Rule
  lexemes : List Lexeme

def Stage.Is (p : Stage) (g : Grammar) : Prop :=
  g.rule = p.rule ∧ g.returns = p.returns ∧ g.tokens.map Token.lexeme = p.lexemes

/-- The events from one stage up to another. -/
def Yields (p : Stage) (es : List Event) (q : Stage) : Prop :=
  ∀ g, p.Is g → ∃ (ms : List (Marked Event)) (g' : Grammar), ms.map Prod.fst = es ∧ q.Is g' ∧
    ∀ fuel, Grammar.events (fuel + es.length) g =
      (ms ++ (Grammar.events fuel g').1, (Grammar.events fuel g').2)

theorem Yields.refl (p : Stage) : Yields p [] p := fun g h => ⟨[], g, rfl, h, fun _ => rfl⟩

theorem Yields.trans {p q r : Stage} {es es' : List Event} (h : Yields p es q)
    (h' : Yields q es' r) : Yields p (es ++ es') r := by
  intro g hg
  obtain ⟨ms, g', hms, hg', hrun⟩ := h g hg
  obtain ⟨ms', g'', hms', hg'', hrun'⟩ := h' g' hg'
  refine ⟨ms ++ ms', g'', by rw [List.map_append, hms, hms'], hg'', fun fuel => ?_⟩
  rw [List.length_append, Nat.add_comm es.length, ← Nat.add_assoc, hrun, hrun', List.append_assoc]

theorem Yields.step {p q : Stage} {e : Event} (hf : q.rule ≠ .finished)
    (h : ∀ tokens fault starts handles, tokens.map Token.lexeme = p.lexemes →
      ∃ m tokens' starts' handles', tokens'.map Token.lexeme = q.lexemes ∧
        Grammar.next ⟨tokens, fault, p.rule, p.returns, starts, handles⟩ =
          .ok ((e, m), ⟨tokens', fault, q.rule, q.returns, starts', handles'⟩)) : Yields p [e] q := by
  rintro ⟨tokens, fault, rule, returns, starts, handles⟩ ⟨rfl, rfl, ht⟩
  obtain ⟨m, tokens', starts', handles', ht', hn⟩ := h tokens fault starts handles ht
  refine ⟨[(e, m)], ⟨tokens', fault, q.rule, q.returns, starts', handles'⟩, rfl, ⟨rfl, rfl, ht'⟩,
    fun fuel => ?_⟩
  simp [Grammar.events, hn, hf]

section Rules

variable {returns : List Rule} {ls : List Lexeme}

theorem yields_bareDocument :
    Yields ⟨.bareDocument, [], .blockMappingStart :: ls⟩ [.documentStart]
      ⟨.blockNode, [.documentEnd], .blockMappingStart :: ls⟩ := by
  refine .step (by simp) fun tokens fault starts handles h => ?_
  obtain ⟨t, ts, rfl, ht, rfl⟩ := List.map_eq_cons_iff.mp h
  refine ⟨t.start, t :: ts, starts, defaultHandles, by simp [ht], ?_⟩
  simp [Grammar.next, Grammar.bareDocument, Grammar.peek, Grammar.isDirective, Grammar.later,
    Grammar.goto, Grammar.produce, ht, bind, Except.bind]

/-- A mapping in the place of a block node. -/
theorem node_mapping {t : Token} (ts : List Token) (fault : Option Fault) (rule : Rule)
    (returns : List Rule) (starts : List Mark) (handles : List (String × Bytes)) (flat : Bool)
    (ht : t.lexeme = .blockMappingStart) :
    Grammar.node ⟨t :: ts, fault, rule, returns, starts, handles⟩ true flat =
      .ok ((.mappingStart {}, t.start), ⟨t :: ts, fault, .blockKey true, returns, starts, handles⟩) := by
  cases flat <;>
    simp [Grammar.node, Grammar.peek, Grammar.properties, Grammar.resolveTag, Grammar.goto,
      Grammar.produce, ht, bind, Except.bind]

theorem node_scalar {t : Token} {text : String} (ts : List Token) (fault : Option Fault) (rule next : Rule)
    (returns : List Rule) (starts : List Mark) (handles : List (String × Bytes)) (flat : Bool)
    (ht : t.lexeme = .scalar text .plain) :
    Grammar.node ⟨t :: ts, fault, rule, next :: returns, starts, handles⟩ true flat =
      .ok ((.scalar none { text }, t.start), ⟨ts, fault, next, returns, starts, handles⟩) := by
  cases flat <;>
    simp [Grammar.node, Grammar.peek, Grammar.properties, Grammar.resolveTag, Grammar.back,
      Grammar.skip, Grammar.produce, ht, bind, Except.bind]

theorem node_flatSequence {t : Token} (ts : List Token) (fault : Option Fault) (rule : Rule)
    (returns : List Rule) (starts : List Mark) (handles : List (String × Bytes))
    (ht : t.lexeme = .blockEntry) :
    Grammar.node ⟨t :: ts, fault, rule, returns, starts, handles⟩ true true =
      .ok ((.sequenceStart {}, t.start), ⟨t :: ts, fault, .flatSequence, returns, starts, handles⟩) := by
  simp [Grammar.node, Grammar.peek, Grammar.properties, Grammar.resolveTag, Grammar.goto,
    Grammar.produce, ht, bind, Except.bind]

variable {next : Rule} {k v : String}

theorem yields_blockNode :
    Yields ⟨.blockNode, returns, .blockMappingStart :: ls⟩ [.mappingStart {}]
      ⟨.blockKey true, returns, .blockMappingStart :: ls⟩ := by
  refine .step (by simp) fun tokens fault starts handles h => ?_
  obtain ⟨t, ts, rfl, ht, rfl⟩ := List.map_eq_cons_iff.mp h
  exact ⟨_, t :: ts, _, _, by simp [ht], node_mapping ts fault _ returns starts handles false ht⟩

theorem yields_firstKey :
    Yields ⟨.blockKey true, returns, .blockMappingStart :: .key :: .scalar k .plain :: ls⟩
      [.scalar none { text := k }] ⟨.blockValue, returns, ls⟩ := by
  refine .step (by simp) fun tokens fault starts handles h => ?_
  obtain ⟨open', rest, rfl, -, h⟩ := List.map_eq_cons_iff.mp h
  obtain ⟨key, rest, rfl, hk, h⟩ := List.map_eq_cons_iff.mp h
  obtain ⟨t, ts, rfl, ht, rfl⟩ := List.map_eq_cons_iff.mp h
  have hn := node_scalar ts fault (.blockKey true) .blockValue returns (open'.start :: starts) handles
    true ht
  exact ⟨_, ts, _, _, rfl, by simpa [Grammar.next, Grammar.blockKey, Grammar.enter, Grammar.peek, Grammar.skip,
    Grammar.blockPart, Grammar.later, hk, ht, bind, Except.bind] using hn⟩

theorem yields_key :
    Yields ⟨.blockKey false, returns, .key :: .scalar k .plain :: ls⟩
      [.scalar none { text := k }] ⟨.blockValue, returns, ls⟩ := by
  refine .step (by simp) fun tokens fault starts handles h => ?_
  obtain ⟨key, rest, rfl, hk, h⟩ := List.map_eq_cons_iff.mp h
  obtain ⟨t, ts, rfl, ht, rfl⟩ := List.map_eq_cons_iff.mp h
  have hn := node_scalar ts fault (.blockKey false) .blockValue returns starts handles true ht
  exact ⟨_, ts, _, _, rfl, by simpa [Grammar.next, Grammar.blockKey, Grammar.enter, Grammar.peek, Grammar.skip,
    Grammar.blockPart, Grammar.later, hk, ht, bind, Except.bind] using hn⟩

theorem yields_value :
    Yields ⟨.blockValue, returns, .value :: .scalar v .plain :: ls⟩
      [.scalar none { text := v }] ⟨.blockKey false, returns, ls⟩ := by
  refine .step (by simp) fun tokens fault starts handles h => ?_
  obtain ⟨value, rest, rfl, hv, h⟩ := List.map_eq_cons_iff.mp h
  obtain ⟨t, ts, rfl, ht, rfl⟩ := List.map_eq_cons_iff.mp h
  have hn := node_scalar ts fault .blockValue (.blockKey false) returns starts handles true ht
  exact ⟨_, ts, _, _, rfl, by simpa [Grammar.next, Grammar.blockValue, Grammar.peek, Grammar.skip,
    Grammar.blockPart, Grammar.later, hv, ht, bind, Except.bind] using hn⟩

theorem yields_noValue :
    Yields ⟨.blockValue, returns, .value :: .key :: ls⟩ [.scalar none {}]
      ⟨.blockKey false, returns, .key :: ls⟩ := by
  refine .step (by simp) fun tokens fault starts handles h => ?_
  obtain ⟨value, rest, rfl, hv, h⟩ := List.map_eq_cons_iff.mp h
  obtain ⟨t, ts, rfl, ht, rfl⟩ := List.map_eq_cons_iff.mp h
  refine ⟨value.stop, t :: ts, starts, handles, by simp [ht], ?_⟩
  simp [Grammar.next, Grammar.blockValue, Grammar.peek, Grammar.skip, Grammar.blockPart,
    Grammar.goto, Grammar.emptyScalar, Grammar.produce, hv, ht, bind, Except.bind]

theorem yields_sequenceStart :
    Yields ⟨.blockValue, returns, .value :: .blockEntry :: ls⟩ [.sequenceStart {}]
      ⟨.flatSequence, .blockKey false :: returns, .blockEntry :: ls⟩ := by
  refine .step (by simp) fun tokens fault starts handles h => ?_
  obtain ⟨value, rest, rfl, hv, h⟩ := List.map_eq_cons_iff.mp h
  obtain ⟨t, ts, rfl, ht, rfl⟩ := List.map_eq_cons_iff.mp h
  have hn := node_flatSequence ts fault .blockValue (.blockKey false :: returns) starts handles ht
  exact ⟨_, t :: ts, _, _, by simp [ht], by simpa [Grammar.next, Grammar.blockValue, Grammar.peek, Grammar.skip,
    Grammar.blockPart, Grammar.later, hv, ht, bind, Except.bind] using hn⟩

theorem yields_entry :
    Yields ⟨.flatSequence, returns, .blockEntry :: .blockMappingStart :: ls⟩ [.mappingStart {}]
      ⟨.blockKey true, .flatSequence :: returns, .blockMappingStart :: ls⟩ := by
  refine .step (by simp) fun tokens fault starts handles h => ?_
  obtain ⟨entry, rest, rfl, he, h⟩ := List.map_eq_cons_iff.mp h
  obtain ⟨t, ts, rfl, ht, rfl⟩ := List.map_eq_cons_iff.mp h
  have hn := node_mapping ts fault .flatSequence (.flatSequence :: returns) starts handles false ht
  exact ⟨_, t :: ts, _, _, by simp [ht], by simpa [Grammar.next, Grammar.flatSequence, Grammar.peek, Grammar.skip,
    Grammar.later, he, ht, bind, Except.bind] using hn⟩

theorem yields_sequenceEnd (hf : next ≠ .finished) :
    Yields ⟨.flatSequence, next :: returns, .blockEnd :: ls⟩ [.sequenceEnd]
      ⟨next, returns, .blockEnd :: ls⟩ := by
  refine .step hf fun tokens fault starts handles h => ?_
  obtain ⟨t, ts, rfl, ht, rfl⟩ := List.map_eq_cons_iff.mp h
  refine ⟨t.start, t :: ts, starts, handles, by simp [ht], ?_⟩
  simp [Grammar.next, Grammar.flatSequence, Grammar.peek, Grammar.back, Grammar.produce, ht, bind,
    Except.bind]

theorem yields_mappingEnd (hf : next ≠ .finished) :
    Yields ⟨.blockKey false, next :: returns, .blockEnd :: ls⟩ [.mappingEnd]
      ⟨next, returns, ls⟩ := by
  refine .step hf fun tokens fault starts handles h => ?_
  obtain ⟨t, ts, rfl, ht, rfl⟩ := List.map_eq_cons_iff.mp h
  refine ⟨t.start, ts, starts.tail, handles, rfl, ?_⟩
  simp [Grammar.next, Grammar.blockKey, Grammar.enter, Grammar.peek, Grammar.leave, Grammar.back,
    Grammar.skip, Grammar.produce, ht, bind, Except.bind]

theorem yields_documentEnd :
    Yields ⟨.documentEnd, [], [.streamEnd]⟩ [.documentEnd] ⟨.document, [], [.streamEnd]⟩ := by
  refine .step (by simp) fun tokens fault starts handles h => ?_
  obtain ⟨t, rfl, ht⟩ := List.map_eq_singleton_iff.mp h
  refine ⟨t.start, [t], starts, handles, by simp [ht], ?_⟩
  simp [Grammar.next, Grammar.documentEnd, Grammar.peek, Grammar.goto, Grammar.produce, ht, bind,
    Except.bind]

end Rules

theorem events_streamEnd {g : Grammar} (hg : Stage.Is ⟨.document, [], [.streamEnd]⟩ g) (fuel : Nat) :
    ∃ m, Grammar.events (fuel + 1) g = ([(.streamEnd, m)], none) := by
  obtain ⟨tokens, fault, rule, returns, starts, handles⟩ := g
  obtain ⟨rfl, rfl, h⟩ := hg
  obtain ⟨t, rfl, ht⟩ := List.map_eq_singleton_iff.mp h
  refine ⟨t.start, ?_⟩
  simp [Grammar.events, Grammar.next, Grammar.document, Grammar.markedDocument, Grammar.peek,
    Grammar.goto, Grammar.skip, Grammar.produce, ht, bind, Except.bind]

/-- The events of a source whose tokens lead from its start to its end. -/
theorem events_of_yields {source : String} {start : Token} {ts : List Token} {es : List Event}
    (ht : tokens source = (start :: ts, none)) (hl : es.length ≤ 4 * ts.length + 15)
    (h : Yields ⟨.bareDocument, [], ts.map Token.lexeme⟩ es ⟨.document, [], [.streamEnd]⟩) :
    ∃ ms : List (Marked Event), events source = (ms, none) ∧ ms.map Prod.fst = es ++ [.streamEnd] := by
  obtain ⟨ms, g, hms, hg, hrun⟩ := h { tokens := ts, fault := none } ⟨rfl, rfl, rfl⟩
  obtain ⟨m, hm⟩ := events_streamEnd hg (4 * ts.length + 15 - es.length)
  refine ⟨ms ++ [(.streamEnd, m)], ?_, by simp [hms]⟩
  have hf : 4 * ts.length + 16 = 4 * ts.length + 15 - es.length + 1 + es.length := by omega
  rw [events, ht]
  simp only [hf, hrun, hm]

end ExampleTests.Yaml
