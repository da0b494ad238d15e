import Blueprint.Format.Script
import Blueprint.Proofs.Text.Cutting

/-!
# The lines of a script text

Cutting a script text at its line feeds gives back the lines that it was made of, and an empty one
behind the last line feed, as long as no line holds a line feed. Each line feed in a line makes one
more line of the text.
-/

namespace Blueprint.Script

theorem toList_ofLines_cons (line : String) (lines : List String) :
    (ofLines (line :: lines)).toList = line.toList ++ '\n' :: (ofLines lines).toList := by
  simp [ofLines, String.join_cons]

theorem linesOf_ofLines {lines : List String} (h : ∀ line ∈ lines, '\n' ∉ line.toList) :
    linesOf (ofLines lines) = lines ++ [""] := by
  induction lines with
  | nil => rfl
  | cons line lines ih =>
    obtain ⟨hline, hlines⟩ := List.forall_mem_cons.mp h
    have hfeed : ∀ c ∈ line.toList, (c == '\n') = false := fun c hc => by
      have hne : c ≠ '\n' := fun hc' => hline (hc' ▸ hc)
      simpa using hne
    have hrest := ih hlines
    rw [linesOf] at hrest ⊢
    rw [toList_ofLines_cons, Text.pieces_append_cons (by rfl), Text.pieces_eq_singleton hfeed,
      List.map_append, hrest]
    simp

/-- The line feeds of a script text are those in its lines and one for each line. -/
theorem length_linesOf_ofLines (lines : List String) :
    (linesOf (ofLines lines)).length =
      lines.length + (lines.flatMap String.toList).count '\n' + 1 := by
  simp only [linesOf, List.length_map, Text.length_pieces, List.count_eq_countP]
  induction lines with
  | nil => rfl
  | cons line lines ih =>
    rw [toList_ofLines_cons, List.countP_append, List.countP_cons_of_pos (by rfl),
      List.flatMap_cons, List.countP_append, List.length_cons]
    omega

end Blueprint.Script
