import ExampleTests.Proofs.Document.Outline

/-! Documents one after the other in one buffer. A document adds the same lines
wherever it is written, further to the right in a buffer of a higher level, and
gives the level back as it was, so that the next one stands beside it. -/

namespace ExampleTests

namespace LineBuffer

def spaces (n : Nat) : String := String.ofList (List.replicate n ' ')

theorem indented_eq_spaces (level : Nat) (text : String) :
    indented level text = spaces (2 * level) ++ text := by
  induction level generalizing text with
  | zero => simp [spaces]
  | succ level ih =>
    have hs : spaces (2 * (level + 1)) = spaces (2 * level) ++ indentation := by
      apply String.toList_inj.mp
      simp [spaces, indentation, Nat.mul_add, List.replicate_succ']
    rw [indented_succ, ih, hs, String.append_assoc]

theorem append_lines (b : LineBuffer) (texts : List String) :
    (b.append texts).lines = b.lines ++ texts.map (spaces (2 * b.level) ++ ·) := by
  have hm : texts.map (indented b.level) = texts.map (spaces (2 * b.level) ++ ·) :=
    List.map_congr_left fun t _ => indented_eq_spaces b.level t
  rw [append, hm]

end LineBuffer

/-- Writes each spec in its language, one document after the other. -/
def writeAll (documents : List (Language × Spec)) (b : LineBuffer) : LineBuffer :=
  documents.foldl (fun b d => d.1.write d.2 b) b

theorem Language.lines_write_empty (language : Language) (spec : Spec) :
    (language.write spec LineBuffer.empty).lines = language.outline spec := by
  have hl : (language.outline spec).map (LineBuffer.indented 0) = language.outline spec :=
    (List.map_congr_left fun t _ => LineBuffer.indented_zero t).trans (List.map_id _)
  rw [write_eq_append]
  simpa [LineBuffer.append, LineBuffer.empty] using hl

theorem writeAll_eq_append (documents : List (Language × Spec)) (b : LineBuffer) :
    writeAll documents b = b.append (documents.flatMap fun d => d.1.outline d.2) := by
  induction documents generalizing b with
  | nil => simp [writeAll]
  | cons d documents ih =>
    have hw : writeAll (d :: documents) b = writeAll documents (d.1.write d.2 b) := rfl
    rw [hw, ih, Language.write_eq_append, LineBuffer.append_append, List.flatMap_cons]

/-- What stands in a buffer stays in front. A document adds the lines that it
has on its own, two spaces to the right for each level, and keeps the level; so
do any documents in any languages, with their separate lines one after the other. -/
theorem write_moves_with_level (b : LineBuffer) :
    (∀ (language : Language) (spec : Spec),
      (language.write spec b).lines =
        b.lines ++ (language.write spec LineBuffer.empty).lines.map
          (LineBuffer.spaces (2 * b.level) ++ ·) ∧
      (language.write spec b).level = b.level) ∧
    ∀ documents : List (Language × Spec),
      (writeAll documents b).lines =
        b.lines ++ (documents.flatMap fun d => (d.1.write d.2 LineBuffer.empty).lines).map
          (LineBuffer.spaces (2 * b.level) ++ ·) ∧
      (writeAll documents b).level = b.level := by
  constructor
  · intro language spec
    rw [language.lines_write_empty, language.write_eq_append, LineBuffer.append_lines]
    exact ⟨rfl, rfl⟩
  · intro documents
    have hl : (documents.flatMap fun d => (d.1.write d.2 LineBuffer.empty).lines) =
        documents.flatMap fun d => d.1.outline d.2 := by
      simp only [Language.lines_write_empty]
    rw [hl, writeAll_eq_append, LineBuffer.append_lines]
    exact ⟨rfl, rfl⟩

end ExampleTests
