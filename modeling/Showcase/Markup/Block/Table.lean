import Showcase.Markup.Content
import Showcase.Text.Blank

/-!
# Table rows

A table is a header, a row of dashes that gives the alignments, and body rows. Cells are parted by
vertical bars; a backslash makes a bar part of its cell.
-/

namespace Showcase.Table

/-- The cells of a row; `cell` is the one being read, backwards. -/
def cellsFrom (cell : Text) : Text → List Text
  | [] => [cell.reverse]
  | c :: t =>
    if c = '|' then
      match cell with
      | '\\' :: r => cellsFrom ('|' :: r) t
      | r => r.reverse :: cellsFrom [] t
    else cellsFrom (c :: cell) t

/-- The list without an empty text in front. -/
def dropEmptyFirst : List Text → List Text
  | [] :: l => l
  | l => l

/-- The list without empty texts at either end. -/
def dropEmptyEnds (l : List Text) : List Text := (dropEmptyFirst (dropEmptyFirst l).reverse).reverse

/-- The cells of a row, without what stands outside of the outer bars. -/
def cells (row : Text) : List Text := dropEmptyEnds (cellsFrom [] row)

/-- A character of the row of dashes. -/
def isRuleChar (c : Char) : Bool := c == '|' || c == '-' || c == ':'

/-- The row may be a row of dashes: it has two characters or more, and is no beginning of a list. -/
def looksLikeRule : Text → Bool
  | a :: b :: t =>
    isRuleChar a && !(a == '-' && Text.isSpaceOrTab b)
      && (b :: t).all fun c => isRuleChar c || Text.isSpaceOrTab c
  | _ => false

/-- The alignment that one cell of the row of dashes gives. -/
def alignment? (cell : Text) : Option Alignment :=
  let left := cell.head? == some ':'
  let right := cell.length > 1 && cell.getLast? == some ':'
  let dashes := if left then cell.drop 1 else cell
  let dashes := if right then dashes.dropLast else dashes
  if dashes ≠ [] ∧ dashes.all (· == '-') then
    some (if right then if left then .center else .right else if left then .left else .none)
  else none

/-- The alignments in the cells after the first one; an empty cell may stand at the end only. -/
def alignmentsAfter? : List Text → Option (List Alignment)
  | [] => some []
  | c :: cs =>
    let c := Text.strip c
    if c = [] ∧ cs = [] then some []
    else do return (← alignment? c) :: (← alignmentsAfter? cs)

/-- The alignments that a row of dashes gives. -/
def alignments? (row : Text) : Option (List Alignment) :=
  if looksLikeRule row then
    match Text.splitOn '|' row with
    | [] => none
    | c :: cs =>
      if Text.strip c = [] then alignmentsAfter? cs else alignmentsAfter? (c :: cs)
  else none

/-- The header cells and the alignments of a table that begins with the two rows. -/
def header? (first second : Text) : Option (List Text × List Alignment) := do
  let alignments ← alignments? second
  let row := Text.strip first
  let header := cells row
  if '|' ∈ row ∧ header ≠ [] ∧ header.length = alignments.length then
    return (header.map Text.strip, alignments)
  else none

/-- The cells of a body row, as many as the table has columns. -/
def rowCells (columns : Nat) (row : List Text) : List Text :=
  (row.map Text.strip ++ List.replicate (columns - row.length) []).take columns

/-- The most cells that may be added to short rows. -/
def addedLimit : Int := 0x10000

end Showcase.Table
