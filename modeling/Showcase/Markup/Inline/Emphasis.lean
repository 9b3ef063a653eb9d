import Showcase.Markup.Content
import Showcase.Text.Punctuation

/-!
# Emphasis

Asterisks and underscores emphasise, tildes strike through. A run of such marks can open, close or
do both, depending on the characters around it (`flanking`). Each run is split into *units*: single
marks for emphasis, pairs of tildes for strikes.

`resolve` pairs the units with a stack of openers:

* a unit that can close looks for the nearest opener with the same mark; the openers above that one
  turn into plain text;
* runs that both open and close may only be paired if their lengths do not add up to a multiple of
  three, unless both are one (`mayPair`);
* the units of one run are never paired with each other;
* emphasis that has nothing but emphasis with the same mark inside becomes strong emphasis;
* the odd tilde of a run stands before its pairs. If they close, it moves behind them.
-/

namespace Showcase.Inline

/-! ## Runs -/

/-- A run of marks. -/
structure Run where
  /-- the mark -/
  mark : Char
  /-- the number of marks -/
  length : Nat
  /-- it can open -/
  opens : Bool
  /-- it can close -/
  closes : Bool

/-- White space as far as emphasis is concerned. -/
def isSpacing (c : Char) : Bool :=
  let n := c.toNat
  (9 ≤ n && n ≤ 13) || n == 32 || n == 0xA0 || n == 0x1680 || (0x2000 ≤ n && n ≤ 0x200A)
    || n == 0x202F || n == 0x205F || n == 0x3000

/-- Whether a run between two characters can open and close. An underscore does neither inside of a
word. -/
def flanking (mark before after : Char) : Bool × Bool :=
  let left := !isSpacing after && (!Text.isMark after || isSpacing before || Text.isMark before)
  let right := !isSpacing before && (!Text.isMark before || isSpacing after || Text.isMark after)
  if mark = '_' then
    (left && (!right || Text.isMark before), right && (!left || Text.isMark after))
  else (left, right)

/-- A piece of inline content before the runs are resolved. -/
inductive Piece
  | node (i : Inline)
  | run (r : Run)

/-! ## The stack of openers -/

/-- A unit that waits for its partner. -/
structure Opener where
  /-- the mark -/
  mark : Char
  /-- the number of marks of its run -/
  length : Nat
  /-- its run can close -/
  closes : Bool
  /-- what stands before it and after the opener below, backwards -/
  before : List Inline

/-- The openers, the innermost first, and what stands after it, backwards. -/
structure Nesting where
  /-- the openers -/
  openers : List Opener
  /-- what stands after the innermost opener, backwards -/
  content : List Inline

/-- The text of a unit. -/
def unitText (mark : Char) : Text := if mark = '~' then ['~', '~'] else [mark]

/-- The length that counts when runs are paired; strikes are always paired. -/
def countedLength (r : Run) : Nat := if r.mark = '~' then 0 else r.length

/-- A closing run may be paired with the opener. -/
def mayPair (r : Run) (o : Opener) : Bool :=
  let n := countedLength r
  o.mark == r.mark
    && !((o.closes || r.opens) && (o.length + n) % 3 == 0 && (o.length % 3 != 0 || n % 3 != 0))

/-- What pairing puts in place of a content, which is given backwards; the result is backwards
too. -/
def wrap (mark : Char) (content : List Inline) : List Inline :=
  if mark = '~' then
    match content with
    | .text ['~'] :: c => [.text ['~'], .strike c.reverse]
    | c => [.strike c.reverse]
  else
    match content with
    | [.emphasis m c] => if m = mark then [.strong c] else [.emphasis mark content]
    | c => [.emphasis mark c.reverse]

/-- Pairs a closing unit with the nearest opener that it may be paired with. -/
def close? (r : Run) : (openers : List Opener) → (content : List Inline) → Option Nesting
  | [], _ => none
  | o :: os, content =>
    if mayPair r o then some ⟨os, wrap r.mark content ++ o.before⟩
    else close? r os (content ++ .text (unitText o.mark) :: o.before)

/-- Puts units on the stack. -/
def push (r : Run) : (units : Nat) → Nesting → Nesting
  | 0, n => n
  | k + 1, n => push r k ⟨⟨r.mark, countedLength r, r.closes, n.content⟩ :: n.openers, []⟩

/-- Adds units as plain text. -/
def plain (r : Run) (units : Nat) (n : Nesting) : Nesting :=
  { n with content := List.replicate units (.text (unitText r.mark)) ++ n.content }

/-- Lets units open, if their run can. -/
def openUnits (r : Run) (units : Nat) (n : Nesting) : Nesting :=
  if r.opens then push r units n else plain r units n

/-- Lets units close as long as they find partners; the others may open. -/
def closeUnits (r : Run) : (units : Nat) → Nesting → Nesting
  | 0, n => n
  | k + 1, n =>
    match close? r n.openers n.content with
    | some m => closeUnits r k m
    | none => openUnits r (k + 1) n

/-- The number of units of a run. -/
def units (r : Run) : Nat := if r.mark = '~' then r.length / 2 else r.length

/-- The content with the odd tilde of a run. -/
def withOdd (r : Run) (n : Nesting) : Nesting :=
  if r.mark = '~' ∧ r.length % 2 = 1 then { n with content := .text ['~'] :: n.content } else n

/-- Takes in a piece. -/
def step (n : Nesting) : Piece → Nesting
  | .node i => { n with content := i :: n.content }
  | .run r =>
    let n := withOdd r n
    if r.closes then closeUnits r (units r) n else openUnits r (units r) n

/-- The content in which the openers left over are plain text, backwards. -/
def settle : (openers : List Opener) → (content : List Inline) → List Inline
  | [], content => content
  | o :: os, content => settle os (content ++ .text (unitText o.mark) :: o.before)

/-- The content in which all runs are resolved. -/
def resolve (pieces : List Piece) : List Inline :=
  let n := pieces.foldl step ⟨[], []⟩
  (settle n.openers n.content).reverse

end Showcase.Inline
