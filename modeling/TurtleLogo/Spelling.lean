import TurtleLogo.Text.LetterCase
import TurtleLogo.Fault

/-! # Spelling

    The distance between two words is the number of letters to insert, delete
    or replace; it is computed one row of the table of distances between
    beginnings at a time.  A word that is not known is told apart from the
    nearest known one within two edits. -/

namespace TurtleLogo.Spelling

/-- The rest of a row for the letter `c`: `left` is the entry before it in
    this row and `corner` the one above that; `letters` and `above` are the
    letters and entries still to come. -/
def fillRow (c : CodePoint) : Nat → Nat → Text → List Nat → List Nat
  | left, corner, d :: letters, up :: above =>
      let here := min (up + 1) (min (left + 1) (corner + if c = d then 0 else 1))
      here :: fillRow c here up letters above
  | _, _, _, _ => []

/-- The row for one letter more, from the row before it. -/
def nextRow (letters : Text) (row : List Nat) (c : CodePoint) : List Nat :=
  match row with
  | [] => []
  | first :: above => (first + 1) :: fillRow c (first + 1) first letters above

/-- The distance, computed along the first word. -/
def rowDistance (a b : Text) : Nat :=
  (a.foldl (nextRow b) (List.range (b.length + 1))).getLastD 0

/-- The number of single-letter edits between two words. -/
def editDistance (a b : Text) : Nat :=
  if a.length < b.length then rowDistance b a else rowDistance a b

/-- The nearest candidate so far, with its distance, after one candidate more. -/
def better (word : Text) (best : Option Text × Nat) (candidate : Text) : Option Text × Nat :=
  if candidate.length > word.length + 2 || word.length > candidate.length + 2 then best
  else
    let score := editDistance word candidate
    if score < best.2 then (some candidate, score) else best

/-- The first of the nearest candidates, within two edits of the word in
    capitals. -/
def suggest (word : Text) (candidates : List Text) : Option Text :=
  (candidates.foldl (better (Text.upper word)) (none, 3)).1

/-- A suggestion worth making: the empty word is none. -/
def suggestion (word : Text) (candidates : List Text) : Option Text :=
  (suggest word candidates).filter (!·.isEmpty)

/-- The fault for a word that is no command. -/
def unknownCommand (word : Text) (candidates : List Text) : Fault :=
  .unknownCommand word (suggestion word candidates)

/-- The fault for a word that is no function. -/
def unknownFunction (word : Text) (candidates : List Text) : Fault :=
  .unknownFunction word (suggestion word candidates)

end TurtleLogo.Spelling
