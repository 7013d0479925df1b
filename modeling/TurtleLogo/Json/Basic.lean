import TurtleLogo.Number.Text
import TurtleLogo.Text.Quoted

/-! # JSON data

    What a JSON text stands for.  The fields of an object keep the order in
    which their names first came in, and of two fields of one name the later
    counts. -/

namespace TurtleLogo

/-- A JSON value. -/
inductive Json where
  | null
  | truth (b : Bool)
  | number (n : Number)
  | text (s : Text)
  | array (items : List Json)
  | object (fields : List (Text × Json))

namespace Json

instance : Inhabited Json := ⟨.null⟩

/-- Sets a field, in its old place if it has one. -/
def setField : List (Text × Json) → Text → Json → List (Text × Json)
  | [], name, v => [(name, v)]
  | (n, w) :: fs, name, v => if n = name then (n, v) :: fs else (n, w) :: setField fs name v

/-- A field of an object. -/
def field? (name : Text) : Json → Option Json
  | .object fields => fields.lookup name
  | _ => none

/-- What counts as nothing: null, false, zero and what is empty. -/
def isBlank : Json → Bool
  | .null => true
  | .truth b => !b
  | .number n => n.isZero
  | .text s => s.isEmpty
  | .array items => items.isEmpty
  | .object fields => fields.isEmpty

/-- A number, with all its digits. -/
def numberListing : Number → Text
  | .int n => Number.digits n
  | .real x => x.text

mutual
/-- The text that tells values of all kinds apart. -/
def listing : Json → Text
  | .null => "None"
  | .truth true => "True"
  | .truth false => "False"
  | .number n => numberListing n
  | .text s => Text.quoted s
  | .array items => "[" ++ Text.joinWith ", " (listings items) ++ "]"
  | .object fields => "\x7b" ++ Text.joinWith ", " (fieldListings fields) ++ "\x7d"
/-- The listings of the items of an array. -/
def listings : List Json → List Text
  | [] => []
  | v :: vs => listing v :: listings vs
/-- The listings of the fields of an object. -/
def fieldListings : List (Text × Json) → List Text
  | [] => []
  | (name, v) :: fs => (Text.quoted name ++ ": " ++ listing v) :: fieldListings fs
end

/-- A value as plain text: a text is itself, and anything else is listed. -/
def plainText : Json → Text
  | .text s => s
  | v => v.listing

end Json

end TurtleLogo
