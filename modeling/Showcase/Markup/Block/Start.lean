import Showcase.Demo.Marker
import Showcase.Markup.Block.Table
import Showcase.Markup.Dialect
import Showcase.Markup.Line
import Showcase.Markup.RawHtml
import Showcase.Text.Reference

/-!
# Where blocks begin

For each kind of block, what the content of its first line looks like. A paragraph goes on until a
line begins a block that may interrupt it (`interrupts`); so do the row of a table, the unmarked
lines of a quote and the items of a list, each with its own selection of blocks.
-/

namespace Showcase

/-- What encloses the lines that are being read. -/
structure Frame where
  /-- the columns that belong to the enclosing list items -/
  indent : Nat
  /-- the columns outside of the innermost list, if there is one -/
  listIndent : Option Nat

namespace Block

/-- The text is empty or begins with a space or a tab. -/
def isApart : Text → Bool
  | [] => true
  | c :: _ => Text.isSpaceOrTab c

/-- The line is indented so far that it is a listing. -/
def isCode (g : Grammar) (f : Frame) (l : Line) : Bool := g.dialect.rich && l.indent - f.indent ≥ 4

/-! ## First lines -/

/-- An opening fence. -/
structure Fence where
  /-- the character of the fence -/
  mark : Char
  /-- its length -/
  length : Nat
  /-- what stands behind it -/
  info : Text

/-- The opening fence in a line. Backquotes may not occur behind a fence of backquotes. -/
def fence? (content : Text) : Option Fence :=
  match content with
  | c :: _ =>
    if c = '~' ∨ c = '\x60' then
      let (n, info) := runOf c content
      if n < 3 ∨ (c = '\x60' ∧ c ∈ info) then none else some ⟨c, n, info⟩
    else none
  | [] => none

/-- The line closes the fence. -/
def Fence.isClosedBy (f : Fence) (content : Text) : Bool :=
  let (n, r) := runOf f.mark content
  f.length ≤ n && isSpaces r

/-- The line is a thematic break. -/
def isThematicBreak : Text → Bool
  | [] => false
  | c :: t =>
    (c == '*' || c == '-' || c == '_') && t.all (fun d => d == c || Text.isSpaceOrTab d)
      && 2 ≤ t.count c

/-- The marker of a list item. -/
structure Bullet where
  /-- the number, if it has one -/
  number : Option Nat
  /-- the last character of the marker -/
  mark : Char
  /-- the length of the marker -/
  length : Nat

/-- The marker with a number at the beginning of a line. -/
def numbered? (content : Text) : Option Bullet :=
  let (digits, r) := Text.spanClass Text.isDigit content
  match r with
  | c :: r =>
    if (c = '.' ∨ c = ')') ∧ 1 ≤ digits.length ∧ digits.length ≤ 9 ∧ isApart r then
      some ⟨some (Text.decimalNumber digits), c, digits.length + 1⟩
    else none
  | [] => none

/-- The marker without a number at the beginning of a line. -/
def unnumbered? : Text → Option Bullet
  | c :: r => if (c = '*' ∨ c = '-' ∨ c = '+') ∧ isApart r then some ⟨none, c, 1⟩ else none
  | [] => none

/-- The marker at the beginning of a line. -/
def bullet? (content : Text) : Option Bullet := numbered? content <|> unnumbered? content

/-- The two markers belong to one list. -/
def Bullet.continues (b c : Bullet) : Bool := b.number.isSome == c.number.isSome && b.mark == c.mark

/-- The line lies between the items of an outer list and is indented too far for one of them. -/
def isBetweenItems (f : Frame) (l : Line) : Bool :=
  match f.listIndent with
  | some n => l.indent - n ≥ 4 && l.indent < f.indent
  | none => false

/-- The heading that the line is: its level and its source. A run of number signs at its end is
dropped if it stands apart. -/
def heading? (content : Text) : Option (Nat × Text) :=
  let (n, r) := runOf '#' content
  if 1 ≤ n ∧ n ≤ 6 ∧ isApart r then
    let source := Text.trimEnd Text.isSpaceOrTab r
    let short := Text.trimEnd (· == '#') source
    let apart := (short.getLast?.map Text.isSpaceOrTab).getD false
    some (n, Text.strip (if apart then short else source))
  else none

/-- The level of the heading that the line underlines. -/
def underline? (content : Text) : Option Nat :=
  match content with
  | c :: _ =>
    if (c = '=' ∨ c = '-') ∧ isSpaces (runOf c content).2 then some (if c = '=' then 1 else 2)
    else none
  | [] => none

/-! ## Interruption -/

/-- What a line may interrupt. -/
inductive Interrupted
  | paragraph
  | definition
  | quote
  | list
  deriving DecidableEq

/-- A table begins with the first two of the lines. -/
def table? (g : Grammar) (f : Frame) (window : Nat) (ls : List Line) :
    Option (List Text × List Alignment) :=
  match ls with
  | first :: second :: _ =>
    if !g.tables ∨ window < 2 ∨ second.indent < f.indent ∨ isCode g f second ∨ isCode g f first then
      none
    else Table.header? first.content second.content
  | _ => none

/-- The line begins a list that may interrupt. Only a list that begins with one, and has something
in its first item, interrupts a paragraph; but an item of the same list always does. -/
def listInterrupts (f : Frame) (what : Interrupted) (l : Line) : Bool :=
  match bullet? l.content with
  | none => false
  | some b =>
    !isBetweenItems f l
      && (what != .paragraph || l.indent < f.indent
        || (b.number.getD 1 == 1 && !isSpaces (l.content.drop b.length)))

/-- The first of the lines begins a block that may interrupt. -/
def interrupts (g : Grammar) (f : Frame) (what : Interrupted) (window : Nat) (ls : List Line) :
    Bool :=
  match ls with
  | [] => false
  | l :: _ =>
    let inText := what == .paragraph || what == .definition
    (inText && (table? g f window ls).isSome)
      || (!isCode g f l
        && ((colons? g l.content).isSome
          || (g.dialect.rich
            && ((fence? l.content).isSome
              || l.content.head? == some '>'
              || isThematicBreak l.content
              || (what != .list
                && (listInterrupts f what l
                  || (heading? l.content).isSome
                  || (g.dialect.html
                    && ((RawHtml.opening? l.content).map RawHtml.Opening.interrupts).getD
                      false)))))))

end Block

end Showcase
