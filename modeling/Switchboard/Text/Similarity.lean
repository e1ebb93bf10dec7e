/-!
# Similarity of texts

Two texts are the more alike the more triples of neighbouring characters of the one occur in the
other.  The triples at the ends take in the blanks around a text, two in front and one behind.

## Main definitions

- `triples` — the triples of a text
- `closest?` — the first of the candidates that are most like a text
-/

namespace Switchboard.Text

/-- The triples of neighbouring characters in a list. -/
def triplesOf : List Char → List (Char × Char × Char)
  | a :: b :: c :: rest => (a, b, c) :: triplesOf (b :: c :: rest)
  | _ => []

/-- The triples of a text with blanks around it. -/
def triples (text : String) : List (Char × Char × Char) :=
  triplesOf (' ' :: ' ' :: text.toList ++ [' '])

/-- How many triples of a text occur in another one. -/
def likeness (text other : String) : Nat :=
  (triples text).countP fun t => (triples other).contains t

/-- The first of the candidates that are most like a text. -/
def closest? (text : String) : List String → Option String
  | [] => none
  | c :: rest =>
    match closest? text rest with
    | none => some c
    | some d => if likeness text c < likeness text d then some d else some c

end Switchboard.Text
