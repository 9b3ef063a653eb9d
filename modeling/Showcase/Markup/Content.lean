import Showcase.Markup.Link

/-!
# What a page is made of

A page is made of blocks, and a paragraph, a heading or a table cell of inline content. Blocks hold
the source of their inline content: it is read once all definitions of the page are known.
Definitions themselves are no blocks.

Two views of inline content are needed besides its HTML: the title of a heading (`plainText`), which
keeps the words and the code, and the alternative text of an image (`altText`), which keeps the
words and the raw HTML as they are written.
-/

namespace Showcase

/-- A piece of inline content. -/
inductive Inline
  /-- words as they stand in the source -/
  | text (t : Text)
  /-- characters that an escape or a reference stands for -/
  | special (t : Text)
  | softBreak
  | hardBreak
  | code (t : Text)
  | html (t : Text)
  /-- emphasis, with the mark that made it -/
  | emphasis (mark : Char) (content : List Inline)
  | strong (content : List Inline)
  | strike (content : List Inline)
  | link (target : Target) (content : List Inline)
  /-- an image and its description -/
  | image (target : Target) (content : List Inline)

namespace Inline

mutual

/-- The words and the code. -/
def plainText : Inline → Text
  | text t => t
  | special t => t
  | softBreak => []
  | hardBreak => []
  | code t => t
  | html _ => []
  | emphasis _ c => plainTexts c
  | strong c => plainTexts c
  | strike c => plainTexts c
  | link _ c => plainTexts c
  | image _ _ => []

/-- The words and the code of several pieces. -/
def plainTexts : List Inline → Text
  | [] => []
  | i :: l => plainText i ++ plainTexts l

end

mutual

/-- The words and the raw HTML, with a line feed for each break. -/
def altText : Inline → Text
  | text t => t
  | special _ => []
  | softBreak => ['\n']
  | hardBreak => ['\n']
  | code _ => []
  | html t => t
  | emphasis _ c => altTexts c
  | strong c => altTexts c
  | strike c => altTexts c
  | link _ c => altTexts c
  | image _ c => altTexts c

/-- The words and the raw HTML of several pieces. -/
def altTexts : List Inline → Text
  | [] => []
  | i :: l => altText i ++ altTexts l

end

end Inline

/-! ## Blocks -/

/-- How a column of a table is aligned. -/
inductive Alignment
  | none
  | left
  | center
  | right
  deriving DecidableEq

/-- A block of a page. -/
inductive Block
  | paragraph (source : Text)
  | heading (level : Nat) (source : Text)
  | thematicBreak
  /-- an indented listing -/
  | code (content : Text)
  /-- a fenced listing and what stands behind its opening fence -/
  | fence (info content : Text)
  | html (content : Text)
  | quote (content : List Block)
  /-- a list with its first number, if it has numbers; in a tight one, paragraphs stand bare -/
  | list (start : Option Nat) (tight : Bool) (items : List (List Block))
  | table (alignments : List Alignment) (header : List Text) (rows : List (List Text))
  /-- a demo and what stands behind its opening colons -/
  | demo (info : Text) (content : List Block)
  | notice (name : Text) (content : List Block)

namespace Block

/-- The raw content of a block that is not made of other blocks or inline content. -/
def rawContent : Block → Text
  | code content => content
  | fence _ content => content
  | html content => content
  | _ => []

end Block

end Showcase
