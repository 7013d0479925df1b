import TurtleLogo.Text.Basic

/-! # Blank characters

    Blanks separate words: the controls that move the cursor, the four
    information separators, the space and every other space or line separator
    of Unicode.  `trim` and `pieces` are the two ways a text is cut at them. -/

namespace TurtleLogo.Text

/-- A code point that separates words. -/
def isBlank (c : CodePoint) : Bool :=
  let n := c.toNat
  (9 ≤ n && n ≤ 13) || (28 ≤ n && n ≤ 32) || n == 133 || n == 160 || n == 5760
    || (8192 ≤ n && n ≤ 8202) || n == 8232 || n == 8233 || n == 8239 || n == 8287
    || n == 12288

/-- A list without the items with a property at its two ends. -/
def trimBy {α : Type} (p : α → Bool) (l : List α) : List α :=
  ((l.dropWhile p).reverse.dropWhile p).reverse

/-- A text without the blanks at its two ends. -/
def trim (t : Text) : Text := trimBy isBlank t

/-- The words of a text, with `word` the reversed beginning of the first. -/
def piecesFrom : Text → Text → List Text
  | [], word => if word.isEmpty then [] else [word.reverse]
  | c :: cs, word =>
      if isBlank c then
        if word.isEmpty then piecesFrom cs [] else word.reverse :: piecesFrom cs []
      else piecesFrom cs (c :: word)

/-- The non-empty words between the blanks of a text. -/
def pieces (t : Text) : List Text := piecesFrom t []

/-- A text without blanks is one word. -/
theorem piecesFrom_word (cs word : Text) (h : ∀ c ∈ cs, isBlank c = false)
    (hne : word ≠ []) : piecesFrom cs word = [word.reverse ++ cs] := by
  induction cs generalizing word with
  | nil =>
      cases word with
      | nil => exact absurd rfl hne
      | cons c w => simp [piecesFrom]
  | cons c cs ih =>
      have hc : isBlank c = false := h c (List.mem_cons_self ..)
      have hcs : ∀ d ∈ cs, isBlank d = false :=
        fun d hd => h d (List.mem_cons_of_mem _ hd)
      rw [piecesFrom, hc, if_neg Bool.false_ne_true, ih (c :: word) hcs (by simp)]
      simp

end TurtleLogo.Text
