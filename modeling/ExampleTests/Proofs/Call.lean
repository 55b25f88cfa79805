import ExampleTests.Proofs.Document.Recovery
import ExampleTests.Proofs.Yaml.Float

/-! What the text of a call tells about its arguments. Texts that are not empty
and do not hold the separator can be taken apart again; those of numbers never
hold one. -/

namespace ExampleTests

/-- A separator that overlaps with no shifted copy of itself. -/
def Unbordered (sep : List Char) : Prop :=
  ∀ d e : List Char, d ≠ [] → d.length < sep.length → d ++ sep ≠ sep ++ e

/-- A text that stands out between separators. -/
structure Distinct (sep text : String) : Prop where
  nonempty : text ≠ ""
  noSeparator : ¬ sep.toList <:+: text.toList

theorem not_shorter_of_unbordered {a b sep r s : List Char} (hs : Unbordered sep)
    (hb : ¬ sep <:+: b) (h : a ++ sep ++ r = b ++ sep ++ s) : ¬ a.length < b.length := by
  intro hl
  obtain ⟨d, e, hd, rfl, -, he⟩ := shift_of_shorter h hl
  by_cases hlong : sep.length ≤ d.length
  · have hp : sep <+: d := by
      have hp : sep <+: d ++ sep := ⟨e, he.symm⟩
      exact List.prefix_of_prefix_length_le hp ⟨sep, rfl⟩ hlong
    exact hb (hp.isInfix.trans ⟨a, [], by simp⟩)
  · exact hs d e hd (by omega) he

/-- Where neither first part holds the separator, both end at its first occurrence. -/
theorem append_separator_inj {sep a b r s : String} (hs : Unbordered sep.toList)
    (ha : ¬ sep.toList <:+: a.toList) (hb : ¬ sep.toList <:+: b.toList)
    (h : a ++ sep ++ r = b ++ sep ++ s) : a = b ∧ r = s := by
  have hc := Language.cut_toList sep h
  exact Language.toList_inj_pair (append_middle_inj hc (not_shorter_of_unbordered hs hb hc)
    (not_shorter_of_unbordered hs ha hc.symm))

theorem Distinct.ne_append {sep text s t : String} (h : Distinct sep text) :
    text ≠ s ++ sep ++ t := by
  rintro rfl
  exact h.noSeparator ⟨s.toList, t.toList, by simp [String.toList_append]⟩

theorem intercalate_ne_empty {sep text : String} (h : Distinct sep text) (texts : List String) :
    String.intercalate sep (text :: texts) ≠ "" := by
  have ht : text.toList ≠ [] := fun he => h.nonempty (String.toList_inj.mp he)
  intro he
  have hl := congrArg String.toList he
  cases texts <;> simp [String.toList_intercalate, ht] at hl

theorem intercalate_inj {sep : String} (hs : Unbordered sep.toList) {xs ys : List String}
    (hx : ∀ t ∈ xs, Distinct sep t) (hy : ∀ t ∈ ys, Distinct sep t)
    (h : String.intercalate sep xs = String.intercalate sep ys) : xs = ys := by
  induction xs generalizing ys with
  | nil =>
    cases ys with
    | nil => rfl
    | cons y ys => exact absurd h.symm (intercalate_ne_empty (hy y List.mem_cons_self) ys)
  | cons x xs ih =>
    have hxd := hx x List.mem_cons_self
    cases ys with
    | nil => exact absurd h (intercalate_ne_empty hxd xs)
    | cons y ys =>
      have hyd := hy y List.mem_cons_self
      cases xs with
      | nil =>
        cases ys with
        | nil => simpa using h
        | cons z zs =>
          rw [String.intercalate_singleton, String.intercalate_cons_cons] at h
          exact absurd h hxd.ne_append
      | cons w ws =>
        cases ys with
        | nil =>
          rw [String.intercalate_singleton, String.intercalate_cons_cons] at h
          exact absurd h.symm hyd.ne_append
        | cons z zs =>
          rw [String.intercalate_cons_cons, String.intercalate_cons_cons] at h
          obtain ⟨rfl, ht⟩ := append_separator_inj hs hxd.noSeparator hyd.noSeparator h
          rw [ih (fun t ht => hx t (List.mem_cons_of_mem x ht))
            (fun t ht => hy t (List.mem_cons_of_mem x ht)) ht]

namespace CallForm

/-- What stands between two arguments. -/
def separator : CallForm → String
  | parenthesized => ", "
  | curried => " "

def Separable (form : CallForm) (arguments : List Value) : Prop :=
  ∀ v ∈ arguments, Distinct form.separator v.render

theorem unbordered_separator (form : CallForm) : Unbordered form.separator.toList := by
  intro d e hd hl h
  have hpos := List.length_pos_of_ne_nil hd
  cases form with
  | curried =>
    have hlen : curried.separator.toList.length = 1 := by decide
    omega
  | parenthesized =>
    have hs : parenthesized.separator.toList = [',', ' '] := by decide
    rw [hs] at h hl
    obtain ⟨c, rfl⟩ := List.length_eq_one_iff.mp (show d.length = 1 by simp at hl; omega)
    simp at h

theorem separable_texts {form : CallForm} {arguments : List Value} (h : form.Separable arguments) :
    ∀ t ∈ arguments.map Value.render, Distinct form.separator t := by
  simpa [Separable] using h

/-- Behind the name a call is the list of its arguments, between marks of the form. -/
theorem write_eq_iff_intercalate {form : CallForm} (subject : String) {xs ys : List Value}
    (hx : form.Separable xs) (hy : form.Separable ys) :
    form.write subject xs = form.write subject ys ↔
      String.intercalate form.separator (xs.map Value.render) =
        String.intercalate form.separator (ys.map Value.render) := by
  cases form with
  | parenthesized => simp only [write, separator, String.append_left_inj, String.append_right_inj]
  | curried =>
    have hcons : ∀ v vs, curried.write subject (v :: vs) =
        subject ++ (" " ++ String.intercalate " " ((v :: vs).map Value.render)) :=
      fun v vs => String.append_assoc
    have hlonger : ∀ v vs, curried.write subject (v :: vs) ≠ subject := fun v vs h => by
      have hl := congrArg String.length (hcons v vs ▸ h)
      simp only [String.length_append] at hl
      have hblank : " ".length = 1 := rfl
      omega
    have hne : ∀ v vs, curried.Separable (v :: vs) →
        String.intercalate " " ((v :: vs).map Value.render) ≠ "" := fun v vs h =>
      intercalate_ne_empty (h v List.mem_cons_self) _
    -- No arguments leave the bare name, which is no call with arguments.
    cases xs with
    | nil =>
      cases ys with
      | nil => exact iff_of_true rfl rfl
      | cons w ws => exact iff_of_false (hlonger w ws).symm (hne w ws hy).symm
    | cons v vs =>
      cases ys with
      | nil => exact iff_of_false (hlonger v vs) (hne v vs hx)
      | cons w ws =>
        rw [hcons, hcons, String.append_right_inj, String.append_right_inj]
        rfl

end CallForm

theorem Value.blank_not_mem_render {v : Value} (h : v.isNumeric = true) : ' ' ∉ v.render.toList := by
  have hnumber : ∀ {text : List Char}, Yaml.Plain.IsNumber text → ' ' ∉ text := fun hn hm =>
    absurd (hn.isQuiet ' ' hm).2 (by decide)
  cases v with
  | integer n => exact hnumber (Yaml.Plain.isNumber_integer n.toInt)
  | float x =>
    rcases Yaml.Plain.floatText_cases x with hw | ⟨-, -, -, -, -, hn⟩
    · have hwords : ∀ text ∈ ["NaN", "inf", "-inf", "0.0", "-0.0"], ' ' ∉ text.toList := by decide
      exact hwords _ hw
    · exact hnumber hn
  | raw text => cases h

theorem CallForm.separable_numeric (form : CallForm) {arguments : List Value}
    (h : ∀ v ∈ arguments, v.isNumeric = true) : form.Separable arguments := by
  intro v hv
  constructor
  · intro he
    have hstarts := (Yaml.Plain.render_numeric (h v hv)).2.1.starts
    rw [he] at hstarts
    cases hstarts
  · intro hs
    have hblank : ' ' ∈ form.separator.toList := by cases form <;> decide
    exact Value.blank_not_mem_render (h v hv) (hs.subset hblank)

/-- Calls of one name with arguments that can be told apart have the same text if and
only if the texts of their arguments are the same, one by one. Numbers can always be
told apart. -/
theorem call_eq_iff (form : CallForm) (subject : String) (e f : Example) :
    (form.Separable e.argumentList → form.Separable f.argumentList →
      (form.write subject e.argumentList = form.write subject f.argumentList ↔
        e.argumentList.map Value.render = f.argumentList.map Value.render)) ∧
    ((∀ v ∈ e.argumentList, v.isNumeric = true) → form.Separable e.argumentList) ∧
    ((∀ v ∈ e.argumentList, v.isNumeric = true) → (∀ v ∈ f.argumentList, v.isNumeric = true) →
      form.write subject e.argumentList = form.write subject f.argumentList →
        e.argumentList.map Value.render = f.argumentList.map Value.render) := by
  have hiff : form.Separable e.argumentList → form.Separable f.argumentList →
      (form.write subject e.argumentList = form.write subject f.argumentList ↔
        e.argumentList.map Value.render = f.argumentList.map Value.render) := fun he hf => by
    rw [CallForm.write_eq_iff_intercalate subject he hf]
    exact ⟨intercalate_inj form.unbordered_separator (CallForm.separable_texts he)
      (CallForm.separable_texts hf), congrArg _⟩
  exact ⟨hiff, form.separable_numeric, fun he hf =>
    (hiff (form.separable_numeric he) (form.separable_numeric hf)).mp⟩

/-- A comma at the end of one argument, or in front of the next; a number, or none. -/
theorem call_eq_iff_commas :
    let e : Example := { arguments := some [.raw "a,", .raw "b"] }
    let f : Example := { arguments := some [.raw "a", .raw ",b"] }
    let g : Example := { arguments := some [.integer (-7)] }
    let bare : Example := {}
    CallForm.parenthesized.Separable e.argumentList ∧
      CallForm.parenthesized.Separable f.argumentList ∧
      CallForm.parenthesized.write "h" e.argumentList ≠
        CallForm.parenthesized.write "h" f.argumentList ∧
      (∀ v ∈ g.argumentList, v.isNumeric = true) ∧ (∀ v ∈ bare.argumentList, v.isNumeric = true) ∧
      CallForm.curried.Separable g.argumentList ∧
      CallForm.curried.write "h" g.argumentList ≠ CallForm.curried.write "h" bare.argumentList := by
  intro e f g bare
  have he : CallForm.parenthesized.Separable e.argumentList :=
    List.forall_mem_cons.mpr ⟨⟨by decide, by decide⟩,
      List.forall_mem_singleton.mpr ⟨by decide, by decide⟩⟩
  have hf : CallForm.parenthesized.Separable f.argumentList :=
    List.forall_mem_cons.mpr ⟨⟨by decide, by decide⟩,
      List.forall_mem_singleton.mpr ⟨by decide, by decide⟩⟩
  have hg : ∀ v ∈ g.argumentList, v.isNumeric = true := List.forall_mem_singleton.mpr rfl
  have hbare : ∀ v ∈ bare.argumentList, v.isNumeric = true := nofun
  obtain ⟨hiff, -, -⟩ := call_eq_iff .parenthesized "h" e f
  obtain ⟨-, hseparable, hnumeric⟩ := call_eq_iff .curried "h" g bare
  refine ⟨he, hf, ?_, hg, hbare, hseparable hg, fun h => ?_⟩
  · rw [ne_eq, hiff he hf]
    decide
  · exact absurd (hnumeric hg hbare h) (List.cons_ne_nil _ _)

end ExampleTests
