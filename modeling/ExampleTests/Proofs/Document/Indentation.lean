import ExampleTests.Proofs.Document.Sequence
import Mathlib.Data.List.Infix

/-! A buffer of lines without its state. The level after some calls is their balance
of indents and dedents above the lowest one on the way, so a dedent at level zero is
not owed later. -/

namespace ExampleTests.LineBuffer

inductive Call where
  | indent
  | dedent
  | line (text : String)
deriving DecidableEq

def Call.apply (b : LineBuffer) : Call → LineBuffer
  | indent => b.indent
  | dedent => b.dedent
  | line text => b.line text

def Call.text? : Call → Option String
  | line text => some text
  | indent | dedent => none

def run (calls : List Call) : LineBuffer := calls.foldl Call.apply empty

def balance (calls : List Call) : Int := calls.count .indent - calls.count .dedent

/-- The lowest balance of the first calls, of none of them up to all, and zero at most. -/
def lowest (calls : List Call) : Int := (calls.inits.map balance).foldl min 0

def depth (calls : List Call) : Int := balance calls - lowest calls

/-- Each line of the calls, as deep as the calls in front of it say. -/
def written (calls : List Call) : List String :=
  calls.zipIdx.filterMap fun (call, i) =>
    call.text?.map (spaces (2 * (depth (calls.take i)).toNat) ++ ·)

theorem run_append (calls more : List Call) : run (calls ++ more) = more.foldl Call.apply (run calls) :=
  List.foldl_append

theorem lowest_append (calls : List Call) (call : Call) :
    lowest (calls ++ [call]) = min (lowest calls) (balance (calls ++ [call])) := by
  simp [lowest, List.inits_append]

theorem lowest_le_balance (calls : List Call) : lowest calls ≤ balance calls := by
  induction calls using List.reverseRecOn with
  | nil => exact Int.le_refl 0
  | append_singleton calls call _ =>
    rw [lowest_append]
    exact Int.min_le_right _ _

theorem balance_append (calls : List Call) :
    balance (calls ++ [.indent]) = balance calls + 1 ∧
      balance (calls ++ [.dedent]) = balance calls - 1 ∧
      ∀ text, balance (calls ++ [.line text]) = balance calls := by
  refine ⟨?_, ?_, fun text => ?_⟩ <;> simp [balance, List.count_append]
  · omega
  · omega

/-- The level is taken from a balance that the lowest one follows down. -/
theorem level_run (calls : List Call) : ((run calls).level : Int) = depth calls := by
  induction calls using List.reverseRecOn with
  | nil => rfl
  | append_singleton calls call ih =>
    have hle := lowest_le_balance calls
    obtain ⟨hindent, hdedent, hline⟩ := balance_append calls
    rw [depth] at ih
    rw [run_append, depth, lowest_append]
    cases call with
    | indent =>
      have hl : ([Call.indent].foldl Call.apply (run calls)).level = (run calls).level + 1 := rfl
      rw [hindent, hl]
      omega
    | dedent =>
      have hl : ([Call.dedent].foldl Call.apply (run calls)).level = (run calls).level - 1 := rfl
      rw [hdedent, hl]
      omega
    | line text =>
      have hl : ([Call.line text].foldl Call.apply (run calls)).level = (run calls).level := rfl
      rw [hline, hl]
      omega

theorem written_append (calls : List Call) (call : Call) :
    written (calls ++ [call]) =
      written calls ++ (call.text?.map (spaces (2 * (depth calls).toNat) ++ ·)).toList := by
  rw [written, List.zipIdx_append, List.filterMap_append, written]
  congr 1
  · refine List.filterMap_congr fun (earlier, i) hi => ?_
    obtain ⟨hlt, -⟩ := List.mem_zipIdx' hi
    simp only [List.take_append_of_le_length (Nat.le_of_lt hlt)]
  · cases call <;> simp [Call.text?]

theorem lines_run (calls : List Call) : (run calls).lines = written calls := by
  induction calls using List.reverseRecOn with
  | nil => rfl
  | append_singleton calls call ih =>
    rw [written_append, ← ih, run_append, ← level_run, Int.toNat_natCast]
    cases call with
    | indent | dedent => simp [Call.text?, Call.apply, indent, dedent]
    | line text =>
      have hl : ([Call.line text].foldl Call.apply (run calls)).lines =
          (run calls).lines ++ [indented (run calls).level text] := rfl
      rw [hl, indented_eq_spaces]
      rfl

theorem lines_foldl_apply (calls : List Call) (b : LineBuffer) :
    b.lines <+: (calls.foldl Call.apply b).lines := by
  induction calls generalizing b with
  | nil => exact List.prefix_rfl
  | cons call calls ih =>
    refine List.IsPrefix.trans ?_ (ih (call.apply b))
    cases call with
    | indent | dedent => exact List.prefix_rfl
    | line text => exact List.prefix_append _ _

theorem intercalate_prefix (sep : String) {texts more : List String} (h : texts <+: more) :
    (String.intercalate sep texts).toList <+: (String.intercalate sep more).toList := by
  obtain ⟨more, rfl⟩ := h
  cases texts with
  | nil => exact List.nil_prefix
  | cons t ts =>
    rw [List.cons_append, toList_intercalate_cons, toList_intercalate_cons, List.flatMap_append,
      ← List.append_assoc]
    exact List.prefix_append _ _

/-- What a buffer gives in the end is its lines joined, each with two spaces for every
indent that no dedent before it takes back; and it only ever grows at its end. -/
theorem finish_run (calls : List Call) :
    (run calls).finish = String.intercalate "\n" (written calls) ∧
      (∀ i, 0 ≤ depth (calls.take i)) ∧
      ∀ i, (run (calls.take i)).finish.toList <+: (run calls).finish.toList := by
  refine ⟨?_, fun i => ?_, fun i => ?_⟩
  · rw [finish, lines_run]
  · have hle := lowest_le_balance (calls.take i)
    rw [depth]
    omega
  · have hl := lines_foldl_apply (calls.drop i) (run (calls.take i))
    rw [← run_append, List.take_append_drop] at hl
    exact intercalate_prefix "\n" hl

example : (run [.dedent, .dedent, .indent, .line "a"]).finish = "  a" := by decide

end ExampleTests.LineBuffer
