import CycleSchedule.Fault
import CycleSchedule.Text.Blank
import CycleSchedule.Text.Digit

/-! Dependences written in one line: a source, an arrow, a destination and perhaps a distance. -/

namespace CycleSchedule.Document

/-- Every way to cut a text in two with something in the first part, the longest first part first.
-/
def cuts (cs : List Char) : List (List Char × List Char) :=
  -- The first part has one character at least, so that no name is empty.
  ((List.range cs.length).map fun n => (cs.take (n + 1), cs.drop (n + 1))).reverse

/-- The characters after white space. -/
def skipBlank (cs : List Char) : List Char := cs.dropWhile Text.isBlank

/-- The text up to the next white space, and what follows it. -/
def word (cs : List Char) : List Char × List Char := cs.span fun c => !Text.isBlank c

/-- The digits of the distance that ends a line, none if there is no distance. -/
def distance? (cs : List Char) : Option (List Char) :=
  match skipBlank cs with
  -- A line may end after the destination.
  | [] => some []
  | '@' :: rest =>
    let (digits, rest) := (skipBlank rest).span Text.isDigit
    -- Behind the digits there may be white space and nothing else.
    if digits.isEmpty || !(skipBlank rest).isEmpty then none else some digits
  | _ => none

/-- A destination and the digits of a distance; the destination is as long as it can be. -/
def destination? (cs : List Char) : Option (String × List Char) :=
  let (name, rest) := word (skipBlank cs)
  -- The longest destination that leaves a distance or nothing is taken.
  (cuts name).findSome? fun (name, cut) =>
    (distance? (cut ++ rest)).map fun digits => (String.ofList name, digits)

/-- The source, the destination and the digits of a line; the source is as long as it can be. -/
def shorthand? (s : String) : Option (String × String × List Char) :=
  -- A name has no white space in it but may hold arrows, so the word is cut wherever the rest fits.
  let (name, rest) := word (skipBlank s.toList)
  (cuts name).findSome? fun (name, cut) =>
    match skipBlank (cut ++ rest) with
    | '-' :: '>' :: rest => (destination? rest).map (String.ofList name, ·)
    | _ => none

/-- The dependence that a line has to spell. -/
def readShorthand (s : String) : Except Rejection (Dependence Int) :=
  match shorthand? s with
  | none => .error (.badShorthand s)
  | some (source, destination, digits) =>
    -- The limit is on the digits as written, zeros in front among them.
    if Text.digitLimit < digits.length then .error (.longNumber digits.length)
    else .ok ⟨source, destination, Text.digitsValue digits⟩

end CycleSchedule.Document
