import ExampleTests.Proofs.Decimal.Packing
import ExampleTests.Proofs.Document.Outline
import ExampleTests.Proofs.FloatText
import ExampleTests.Proofs.Validity
import Mathlib.Data.List.Forall2

/-! Specs that are equal as data. Equality takes the two zeros for one number, and
their texts differ: so equal specs are valid alike, and their documents are the same
where the zeros with a sign stand at the same places. -/

namespace ExampleTests

namespace Binary64

open Float.Model Float.Model.UnpackedFloat

/-- Floats that compare as equal are the same number, or zeros. -/
theorem eq_or_zeros_of_compare {u v : UnpackedFloat} (h : u.compare v = some .eq) :
    u = v ∨ ∃ s t, u = .zero s ∧ v = .zero t := by
  cases u with
  | notANumber => cases h
  | infinity s =>
    cases v with
    | notANumber => cases s <;> cases h
    | infinity t =>
      have hst : s = t := by cases s <;> cases t <;> trivial
      exact .inl (congrArg _ hst)
    | zero t => cases s <;> cases h
    | finite t n p hn => cases s <;> cases h
  | zero s =>
    cases v with
    | notANumber => cases h
    | infinity t => cases t <;> cases h
    | zero t => exact .inr ⟨s, t, rfl, rfl⟩
    | finite t n p hn => cases t <;> cases h
  | finite s m q hm =>
    cases v with
    | notANumber => cases s <;> cases h
    | infinity t => cases s <;> cases t <;> cases h
    | zero t => cases s <;> cases h
    | finite t n p hn =>
      cases s <;> cases t <;> simp [UnpackedFloat.compare, Ordering.then_eq_eq] at h ⊢ <;> omega

variable {x y : Float}

theorem ofFloat_eq_or_zeros (h : (x == y) = true) :
    ofFloat x = ofFloat y ∨
      ∃ a b, ofFloat x = .finite a 0 minExponent ∧ ofFloat y = .finite b 0 minExponent := by
  have hc : x.toModel.unpack.compare y.toModel.unpack = some .eq := beq_iff_eq.mp h
  rw [ofFloat_eq_ofUnpacked, ofFloat_eq_ofUnpacked]
  rcases eq_or_zeros_of_compare hc with he | ⟨s, t, hs, ht⟩
  · exact .inl (congrArg ofUnpacked he)
  · rw [hs, ht]
    exact .inr ⟨_, _, rfl, rfl⟩

def isMinusZero (x : Float) : Bool := x.toBits == 0x8000000000000000

theorem isMinusZero_iff : isMinusZero x = true ↔ ofFloat x = .finite true 0 minExponent := by
  rw [isMinusZero, beq_iff_eq]
  refine ⟨fun h => ?_, fun h => UInt64.toNat_inj.mp (toBits_of_ofFloat h)⟩
  simp only [ofFloat, h]
  rfl

end Binary64

/-- Texts neither of which begins the other, unless they are the same, which is so if
and only if `P`. -/
structure EqualIff (P : Prop) (s t : List Char) : Prop where
  iff : s = t ↔ P
  apart : s <+: t ∨ t <+: s → s = t

namespace EqualIff

variable {P Q : Prop} {a a' b b' : List Char}

theorem of_eq (h : a = a') (hp : P) : EqualIff P a a' := ⟨iff_of_true h hp, fun _ => h⟩

theorem refl (a : List Char) : EqualIff True a a := of_eq rfl trivial

theorem congr (h : EqualIff P a a') (hpq : P ↔ Q) : EqualIff Q a a' := ⟨h.iff.trans hpq, h.apart⟩

theorem eq_of_append_prefix (h : EqualIff P a a') (hp : a ++ b <+: a' ++ b') : a = a' := by
  have ha : a <+: a' ++ b' := (List.prefix_append a b).trans hp
  exact h.apart (List.prefix_or_prefix_of_prefix ha (List.prefix_append a' b'))

theorem symm (h : EqualIff P a a') : EqualIff P a' a :=
  ⟨eq_comm.trans h.iff, fun hp => (h.apart hp.symm).symm⟩

theorem append (h : EqualIff P a a') (h' : EqualIff Q b b') :
    EqualIff (P ∧ Q) (a ++ b) (a' ++ b') := by
  constructor
  · rw [← h.iff, ← h'.iff]
    constructor
    · intro he
      obtain rfl := h.eq_of_append_prefix ⟨[], by rw [List.append_nil, he]⟩
      exact ⟨rfl, List.append_cancel_left he⟩
    · rintro ⟨rfl, rfl⟩
      rfl
  · rintro (hp | hp)
    · obtain rfl := h.eq_of_append_prefix hp
      rw [h'.apart (.inl ((List.prefix_append_right_inj a).mp hp))]
    · obtain rfl := h.symm.eq_of_append_prefix hp
      rw [h'.apart (.inr ((List.prefix_append_right_inj a').mp hp))]

theorem between (before after : List Char) (h : EqualIff P a a') :
    EqualIff P (before ++ (a ++ after)) (before ++ (a' ++ after)) :=
  ((refl before).append (h.append (refl after))).congr (by simp)

theorem flatMap {α κ : Type} {f : α → List Char} {k : α → κ} {as bs : List α}
    (h : List.Forall₂ (fun a b => EqualIff (k a = k b) (f a) (f b)) as bs) :
    EqualIff (as.map k = bs.map k) (as.flatMap f) (bs.flatMap f) := by
  induction h with
  | nil => exact of_eq rfl rfl
  | cons hab _ ih => exact (hab.append ih).congr (by simp)

end EqualIff

theorem forall₂_of_beq {α : Type} [BEq α] {xs ys : List α} (h : (xs == ys) = true) :
    List.Forall₂ (fun x y => (x == y) = true) xs ys := by
  induction xs generalizing ys with
  | nil =>
    cases ys with
    | nil => exact .nil
    | cons y ys => cases h
  | cons x xs ih =>
    cases ys with
    | nil => cases h
    | cons y ys =>
      rw [List.cons_beq_cons, Bool.and_eq_true] at h
      exact .cons h.1 (ih h.2)

theorem forall₂_getD_of_beq {α : Type} [BEq α] {xs ys : Option (List α)} (h : (xs == ys) = true) :
    List.Forall₂ (fun x y => (x == y) = true) (xs.getD []) (ys.getD []) := by
  cases xs with
  | none =>
    cases ys with
    | none => exact .nil
    | some ys => cases h
  | some xs =>
    cases ys with
    | none => cases h
    | some ys => exact forall₂_of_beq h

namespace Value

def isMinusZero : Value → Bool
  | float x => Binary64.isMinusZero x
  | integer _ | raw _ => false

theorem floatText_zero {x : Float} {negative : Bool}
    (h : Binary64.ofFloat x = .finite negative 0 Binary64.minExponent) :
    floatText x = (if negative then "-0.0" else "0.0") ∧ (float x).isMinusZero = negative := by
  constructor
  · rw [floatText_eq, h]
    cases negative <;> rfl
  · rw [isMinusZero, Bool.eq_iff_iff, Binary64.isMinusZero_iff, h]
    simp

/-- Equal literals have the same text unless they are zeros of which one has a sign. -/
theorem equalIff_render {v w : Value} (h : (v == w) = true) :
    EqualIff (v.isMinusZero = w.isMinusZero) v.render.toList w.render.toList := by
  cases v with
  | integer m =>
    cases w with
    | integer n =>
      have hmn : m = n := beq_iff_eq.mp h
      exact .of_eq (by rw [hmn]) rfl
    | float y | raw t => cases h
  | raw s =>
    cases w with
    | raw t =>
      have hst : s = t := beq_iff_eq.mp h
      exact .of_eq (by rw [hst]) rfl
    | integer n | float y => cases h
  | float x =>
    cases w with
    | integer n | raw t => cases h
    | float y =>
      rcases Binary64.ofFloat_eq_or_zeros (x := x) (y := y) h with he | ⟨a, b, ha, hb⟩
      · refine .of_eq ?_ ?_
        · rw [render, render, floatText_eq, floatText_eq, he]
        · rw [Bool.eq_iff_iff, isMinusZero, isMinusZero, Binary64.isMinusZero_iff,
            Binary64.isMinusZero_iff, he]
      · obtain ⟨htx, hzx⟩ := floatText_zero ha
        obtain ⟨hty, hzy⟩ := floatText_zero hb
        rw [hzx, hzy, render, render, htx, hty]
        cases a <;> cases b <;> exact ⟨by decide, by decide⟩

theorem equalIff_flatMap (sep : List Char) {vs ws : List Value}
    (h : List.Forall₂ (fun v w => (v == w) = true) vs ws) :
    EqualIff (vs.map isMinusZero = ws.map isMinusZero)
      ((vs.map render).flatMap fun t => sep ++ t.toList)
      ((ws.map render).flatMap fun t => sep ++ t.toList) := by
  rw [List.flatMap_map, List.flatMap_map]
  exact .flatMap (h.imp fun _ _ hvw =>
    ((EqualIff.refl sep).append (equalIff_render hvw)).congr (by simp))

theorem equalIff_intercalate (sep : String) {vs ws : List Value}
    (h : List.Forall₂ (fun v w => (v == w) = true) vs ws) :
    EqualIff (vs.map isMinusZero = ws.map isMinusZero)
      (String.intercalate sep (vs.map render)).toList
      (String.intercalate sep (ws.map render)).toList := by
  cases h with
  | nil => exact .of_eq rfl rfl
  | cons hvw hrest =>
    simp only [List.map_cons, toList_intercalate_cons]
    exact ((equalIff_render hvw).append (equalIff_flatMap sep.toList hrest)).congr (by simp)

end Value

theorem equalIff_returnText {v w : Option Value} (h : (v == w) = true) :
    EqualIff (v.map Value.isMinusZero = w.map Value.isMinusZero)
      (returnText v).toList (returnText w).toList := by
  cases v with
  | none =>
    cases w with
    | none => exact .of_eq rfl rfl
    | some w => cases h
  | some v =>
    cases w with
    | none => cases h
    | some w => exact (Value.equalIff_render h).congr (by simp)

theorem Example.beq_iff {e f : Example} :
    (e == f) = true ↔ (e.arguments == f.arguments) = true ∧ (e.returns == f.returns) = true := by
  obtain ⟨arguments, returns⟩ := e
  obtain ⟨arguments', returns'⟩ := f
  exact Bool.and_eq_true_iff

theorem Spec.beq_iff {s t : Spec} :
    (s == t) = true ↔ s.subject = t.subject ∧ (s.examples == t.examples) = true := by
  obtain ⟨subject, examples⟩ := s
  obtain ⟨subject', examples'⟩ := t
  exact Bool.and_eq_true_iff.trans (and_congr_left' beq_iff_eq)

/-- Where the zeros with a sign stand, among the arguments and as the return. -/
def Example.minusZeros (e : Example) : List Bool × Option Bool :=
  (e.argumentList.map Value.isMinusZero, e.returns.map Value.isMinusZero)

def Spec.minusZeros (s : Spec) : List (List Bool × Option Bool) :=
  s.exampleList.map Example.minusZeros

namespace Language

theorem equalIff_application (language : Language) (subject : String) {e f : Example}
    (h : (e == f) = true) :
    EqualIff (e.argumentList.map Value.isMinusZero = f.argumentList.map Value.isMinusZero)
      (language.application subject e).toList (language.application subject f).toList := by
  have ha : List.Forall₂ _ e.argumentList f.argumentList :=
    forall₂_getD_of_beq (Example.beq_iff.mp h).1
  have hlist := (Value.equalIff_intercalate ", " ha).between (subject ++ "(").toList ")".toList
  cases language with
  | haskell =>
    simp only [application, toList_intercalate_cons]
    exact ((EqualIff.refl _).append (Value.equalIff_flatMap " ".toList ha)).congr (by simp)
  | javaScript | gobstones =>
    simpa only [application, String.toList_append, List.append_assoc] using hlist

/-- The text of some lines, each after a line break. -/
def lineText (lines : List String) : List Char := lines.flatMap fun l => '\n' :: l.toList

theorem equalIff_block (language : Language) {P Q : Prop} {call call' expected expected' : String}
    (hc : EqualIff P call.toList call'.toList) (he : EqualIff Q expected.toList expected'.toList) :
    EqualIff (P ∧ Q) (lineText (language.block call expected))
      (lineText (language.block call' expected')) := by
  have htitle := hc.append (he.between " should return ".toList [])
  cases language with
  | haskell =>
    have hbody := hc.append (he.between " `shouldBe` ".toList [])
    have hblock := ((htitle.between "\n  it \"".toList "\" $ do".toList).append
      (hbody.between "\n    ".toList [])).congr (and_self_iff)
    simpa [lineText, block] using hblock
  | javaScript =>
    have hbody := (he.append (hc.between ", ".toList [])).congr and_comm
    have hblock := ((htitle.between "\n  it(\"".toList "\", function() \x7b".toList).append
      (hbody.between "\n    assertEqual(".toList ");\n  \x7d);".toList)).congr (and_self_iff)
    simpa [lineText, block] using hblock
  | gobstones =>
    have hblock := (htitle.between "\n- title: ".toList []).append
      (he.between "\n  return: ".toList [])
    refine EqualIff.congr (P := (P ∧ Q) ∧ Q) ?_ (by tauto)
    simpa [lineText, block] using hblock

theorem equalIff_exampleBlock (language : Language) (subject : String) {e f : Example}
    (h : (e == f) = true) :
    EqualIff (e.minusZeros = f.minusZeros) (lineText (language.exampleBlock subject e))
      (lineText (language.exampleBlock subject f)) :=
  (language.equalIff_block (language.equalIff_application subject h)
    (equalIff_returnText (Example.beq_iff.mp h).2)).congr (by simp [Example.minusZeros])

theorem lineText_outline (language : Language) (spec : Spec) :
    lineText (language.outline spec) = lineText (language.opening spec.subject) ++
      (spec.exampleList.flatMap (fun e => lineText (language.exampleBlock spec.subject e)) ++
        lineText language.closing) := by
  simp only [outline, lineText, List.flatMap_append, List.flatMap_assoc, List.append_assoc]

theorem newline_generate (language : Language) {spec : Spec} (h : spec.exampleList ≠ []) :
    '\n' :: (language.generate spec).toList = lineText (language.outline spec) := by
  have hne : language.outline spec ≠ [] := by cases language <;> simp [outline, opening]
  obtain ⟨line, lines, hl⟩ := List.exists_cons_of_ne_nil hne
  rw [language.generate_eq_intercalate h, hl, toList_intercalate_cons]
  rfl

/-- Documents of equal specs differ by their zeros only. -/
theorem generate_eq_iff_of_beq (language : Language) {s t : Spec} (h : (s == t) = true) :
    language.generate s = language.generate t ↔ s.minusZeros = t.minusZeros := by
  obtain ⟨hsubject, hexamples⟩ := Spec.beq_iff.mp h
  have hall : List.Forall₂ _ s.exampleList t.exampleList := forall₂_getD_of_beq hexamples
  by_cases hs : s.exampleList = []
  · have ht : t.exampleList = [] := List.forall₂_nil_left_iff.mp (hs ▸ hall)
    simp [generate, Spec.hasExamples, Spec.minusZeros, hs, ht]
  · have ht : t.exampleList ≠ [] := fun ht => hs (List.forall₂_nil_right_iff.mp (ht ▸ hall))
    have hblocks := EqualIff.flatMap (hall.imp fun _ _ hef =>
      language.equalIff_exampleBlock s.subject hef)
    have hdocument :=
      hblocks.between (lineText (language.opening s.subject)) (lineText language.closing)
    have hoS := language.lineText_outline s
    have hoT := language.lineText_outline t
    rw [← hsubject] at hoT
    rw [← hoS, ← hoT, ← language.newline_generate hs, ← language.newline_generate ht] at hdocument
    rw [← String.toList_inj, ← List.cons_inj_right '\n']
    exact hdocument.iff

end Language

theorem Example.isNone_returns_of_beq {e f : Example} (h : (e == f) = true) :
    e.returns.isNone = f.returns.isNone := by
  obtain ⟨-, hr⟩ := Example.beq_iff.mp h
  cases he : e.returns <;> cases hf : f.returns <;> simp [he, hf] at hr ⊢

theorem Spec.issue?_eq_of_beq {s t : Spec} (h : (s == t) = true) : s.issue? = t.issue? := by
  obtain ⟨-, hexamples⟩ := Spec.beq_iff.mp h
  apply issue?_eq_of_missingReturns
  rw [missingReturns, missingReturns]
  cases hs : s.examples with
  | none =>
    cases ht : t.examples with
    | none => rfl
    | some fs =>
      rw [hs, ht] at hexamples
      cases hexamples
  | some es =>
    cases ht : t.examples with
    | none =>
      rw [hs, ht] at hexamples
      cases hexamples
    | some fs =>
      rw [hs, ht] at hexamples
      rw [Option.map_some, Option.map_some, Option.some.injEq, ← List.forall₂_eq_eq_eq,
        List.forall₂_map_left_iff, List.forall₂_map_right_iff]
      exact (forall₂_of_beq hexamples).imp fun _ _ => Example.isNone_returns_of_beq

/-- Equal specs have the same issue, or none. Their documents are the same if and only if
their zeros with a sign stand at the same places. -/
theorem generate_eq_iff_minusZeros (s t : Spec) (h : (s == t) = true) :
    s.issue? = t.issue? ∧ ∀ language : Language,
      ((generate language.token s).value = (generate language.token t).value ↔
        s.minusZeros = t.minusZeros) := by
  refine ⟨Spec.issue?_eq_of_beq h, fun language => ?_⟩
  rw [generate_token, generate_token, Except.ok.injEq]
  exact language.generate_eq_iff_of_beq h

theorem generate_eq_iff_minusZeros_argument :
    let s : Spec :=
      { subject := "f"
        examples := some [{ arguments := some [.float (-0.0)], returns := some (.float 0.0) }] }
    let t : Spec :=
      { subject := "f"
        examples := some [{ arguments := some [.float 0.0], returns := some (.float 0.0) }] }
    (s == s) = true ∧ (s == t) = true ∧ s.issue? = t.issue? ∧
      (generate "gobstones" s).value = (generate "gobstones" s).value ∧
      (generate "gobstones" s).value ≠ (generate "gobstones" t).value := by
  intro s t
  have hss : (s == s) = true := by decide +kernel
  have hst : (s == t) = true := by decide +kernel
  obtain ⟨-, hsame⟩ := generate_eq_iff_minusZeros s s hss
  obtain ⟨hissue, hdiffer⟩ := generate_eq_iff_minusZeros s t hst
  refine ⟨hss, hst, hissue, (hsame .gobstones).mpr rfl, fun h => ?_⟩
  have hzeros := (hdiffer .gobstones).mp h
  exact absurd hzeros (by decide +kernel)

/-- Two specs that are equal, and valid, and have different documents. -/
theorem documents_of_equal_zeros :
    let s : Spec := { subject := "f", examples := some [{ returns := some (.float 0.0) }] }
    let t : Spec := { subject := "f", examples := some [{ returns := some (.float (-0.0)) }] }
    (s == t) = true ∧ s.isValid ∧ t.isValid ∧
      (generate "gobstones" s).value =
        .ok "subject: f\nexamples:\n- title: f() should return 0.0\n  return: 0.0" ∧
      (generate "gobstones" t).value =
        .ok "subject: f\nexamples:\n- title: f() should return -0.0\n  return: -0.0" ∧
      (generate "gobstones" s).value ≠ (generate "gobstones" t).value := by
  intro s t
  have hdocument : ∀ spec : Spec, spec.exampleList ≠ [] → (generate "gobstones" spec).value =
      .ok (String.intercalate "\n" (Language.gobstones.outline spec)) := fun spec h =>
    (generate_token .gobstones spec).trans
      (congrArg Except.ok (Language.gobstones.generate_eq_intercalate h))
  have hs : (generate "gobstones" s).value =
      .ok "subject: f\nexamples:\n- title: f() should return 0.0\n  return: 0.0" :=
    (hdocument s (List.cons_ne_nil _ _)).trans (congrArg Except.ok (by decide +kernel))
  have ht : (generate "gobstones" t).value =
      .ok "subject: f\nexamples:\n- title: f() should return -0.0\n  return: -0.0" :=
    (hdocument t (List.cons_ne_nil _ _)).trans (congrArg Except.ok (by decide +kernel))
  refine ⟨by decide +kernel, rfl, rfl, hs, ht, ?_⟩
  rw [hs, ht]
  simp

end ExampleTests
