import TurtleLogo.Text.Basic

/-! # Cutting a text at a character

    `split` gives the pieces between the places where a character stands, so
    there is one piece more than there are such places, and joining the pieces
    with the character gives the text back. -/

namespace TurtleLogo.Text

/-- The pieces between the separators, with `piece` the reversed beginning of
    the first. -/
def splitFrom (sep : CodePoint) : Text → Text → List Text
  | [], piece => [piece.reverse]
  | c :: cs, piece =>
      if c = sep then piece.reverse :: splitFrom sep cs [] else splitFrom sep cs (c :: piece)

/-- The pieces of a text between the separators, empty ones included. -/
def split (sep : Char) (t : Text) : List Text :=
  splitFrom (.char sep) t []

/-- There is always a first piece. -/
theorem splitFrom_ne_nil (sep : CodePoint) (cs piece : Text) : splitFrom sep cs piece ≠ [] := by
  induction cs generalizing piece with
  | nil => simp [splitFrom]
  | cons c cs ih =>
      rw [splitFrom]
      split
      · simp
      · exact ih _

/-- Joining the pieces with the separator gives the text back. -/
theorem intercalate_splitFrom (sep : CodePoint) (cs piece : Text) :
    [sep].intercalate (splitFrom sep cs piece) = piece.reverse ++ cs := by
  induction cs generalizing piece with
  | nil => simp [splitFrom]
  | cons c cs ih =>
      by_cases h : c = sep
      · have hne := splitFrom_ne_nil sep cs []
        have hs := ih []
        rw [splitFrom, if_pos h]
        cases hp : splitFrom sep cs [] with
        | nil => exact absurd hp hne
        | cons first rest =>
            rw [hp] at hs
            simp only [List.reverse_nil, List.nil_append] at hs
            rw [← hs, h]
            simp [List.intercalate]
      · rw [splitFrom, if_neg h, ih]
        simp

end TurtleLogo.Text
