import Showcase.Text.Blank

/-!
# Lines

Blocks are found line by line. A line knows its margin apart from its content: white space, and the
markers of the quotes and list items that it has been found to be in. What is left of a margin once
some columns of it belong to an enclosing block is white space again (`Line.cut`).

A tab reaches to the next of the columns 0, 4, 8, … of the whole page, so a line also remembers the
column at which its margin begins.
-/

namespace Showcase

/-- A line of a page, or of a block on it. -/
structure Line where
  /-- what stands before the content -/
  margin : Text
  /-- from the first character that is no white space -/
  content : Text
  /-- the column of the content, relative to the enclosing quote; negative if the line continues a
  paragraph of a quote without being marked -/
  indent : Int
  /-- the column at which the margin begins -/
  column : Nat
  /-- a line feed follows -/
  ended : Bool

namespace Line

/-- The width of a tab or another character at a column. -/
def stop (c : Char) (column : Nat) : Nat := if c = '\t' then 4 - column % 4 else 1

/-- The width of white space that begins at a column. -/
def widthFrom (column : Nat) : Text → Nat
  | [] => 0
  | c :: t => stop c column + widthFrom (column + stop c column) t

/-- A line of a page, without what encloses it. -/
def ofText (ended : Bool) (t : Text) : Line :=
  let (margin, content) := Text.spanClass Text.isSpaceOrTab t
  ⟨margin, content, widthFrom 0 margin, 0, ended⟩

/-- The lines of a text. White space that no line feed ends is no line. -/
def ofTexts : List Text → List Line
  | [] => []
  | [t] => if t.all Text.isSpaceOrTab then [] else [ofText false t]
  | t :: ts => ofText true t :: ofTexts ts

/-- The lines of a page. -/
def all (page : Text) : List Line := ofTexts (Text.splitOn '\n' page)

/-- The line has no content. -/
def isBlank (l : Line) : Bool := l.content.isEmpty

/-- What is left of a margin when `columns` of it are taken away, of which `done` are gone. -/
def cutMargin (column columns : Nat) : (done : Nat) → (margin : Text) → Text
  | done, [] => List.replicate (done - columns) ' '
  | done, c :: m =>
    if done < columns then cutMargin column columns (done + stop c (done + column)) m
    else List.replicate (done - columns) ' ' ++ c :: m

/-- The text of a line without the columns that belong to an enclosing block. -/
def cut (columns : Int) (l : Line) : Text :=
  cutMargin l.column columns.toNat 0 l.margin ++ l.content

/-- The line feed of a line, if it has one. -/
def lineFeed (l : Line) : Text := if l.ended then ['\n'] else []

/-- The text of several lines, each with its line feed. -/
def cutAll (columns : Int) (ls : List Line) : Text :=
  ls.flatMap fun l => l.cut columns ++ l.lineFeed

/-- The text of several lines, with line feeds between them. -/
def join (columns : Int) (ls : List Line) : Text :=
  Text.joinWith ['\n'] (ls.map (cut columns))

/-! ## Markers -/

/-- The line after `n` characters of its content and the white space behind them; the margin keeps
them, and the content begins at a new column. -/
def pass (n : Nat) (l : Line) : Line :=
  let marker := l.content.take n
  let start := l.indent.toNat + n
  let (gap, content) := Text.spanClass Text.isSpaceOrTab (l.content.drop n)
  { l with
    margin := l.margin ++ marker ++ gap
    content := content
    indent := start + widthFrom (start + l.column) gap }

/-- The line behind a quote's marker, at which its content begins. One space belongs to the marker;
a tab does so only if it is one column wide. -/
def unquote? (l : Line) : Option Line :=
  match l.content with
  | '>' :: t =>
    let start := l.indent.toNat + 1
    let spaced := match t with
      | c :: _ => Text.isSpaceOrTab c
      | [] => false
    let taken := match t with
      | ' ' :: _ => true
      | '\t' :: _ => (l.column + start) % 4 == 3
      | _ => false
    let (gap, content) := Text.spanClass Text.isSpaceOrTab (if taken then t.drop 1 else t)
    let first := if taken then start + 1 else start
    let shift := if spaced && !taken then 1 else 0
    some
      { l with
        margin := gap
        content := content
        indent := widthFrom (first + l.column + shift) gap
        column := start + if spaced then 1 else 0 }
  | _ => none

/-- The line as one that continues a paragraph of a quote without being marked. -/
def lazy (l : Line) : Line := { l with indent := -1 }

end Line

end Showcase
