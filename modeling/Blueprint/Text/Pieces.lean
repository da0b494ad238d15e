/-!
# Cutting a list at separators

`pieces` cuts a list at every element that is a separator. It never answers the empty list, and
putting the pieces back together with the separator restores the list.
-/
namespace Blueprint.Text

variable {α : Type}

/-- The parts of a list between its separators, empty parts included. -/
def pieces (isSeparator : α → Bool) : List α → List (List α)
  | [] => [[]]
  | a :: rest =>
    if isSeparator a then [] :: pieces isSeparator rest
    else (pieces isSeparator rest).modifyHead (a :: ·)

theorem pieces_ne_nil (isSeparator : α → Bool) (l : List α) : pieces isSeparator l ≠ [] := by
  induction l with
  | nil => simp [pieces]
  | cons a rest ih =>
    cases h : isSeparator a
    · cases hp : pieces isSeparator rest <;> simp_all [pieces]
    · simp [pieces, h]

theorem intercalate_pieces [DecidableEq α] (a : α) (l : List α) :
    [a].intercalate (pieces (· == a) l) = l := by
  induction l with
  | nil => rfl
  | cons b rest ih =>
    have hne := pieces_ne_nil (· == a) rest
    cases hp : pieces (· == a) rest with
    | nil => exact absurd hp hne
    | cons first others =>
      rw [hp] at ih
      by_cases h : b = a
      · subst h
        simpa [pieces, hp, List.intercalate] using ih
      · cases others <;> simp_all [pieces, List.intercalate]

end Blueprint.Text
