import Showcase.Markup.Block.Start

/-!
# Reading blocks

Blocks are read from a list of lines that begins with the line at hand and runs to the end of the
page. Two numbers bound what a reader may take:

* the *window*: so many lines belong to the enclosing block;
* the *limit*: so many lines are there at all. A paragraph at the end of a quote may go on beyond
  the window, up to the limit.

A rule looks at the first line and says which blocks begin with it and how many lines they take up
(`Step`). `sequence` repeats the rules until the window is used up or a line belongs to an enclosing
block. What a quote, a list item or a container encloses is read by a *reader* one or two levels of
nesting further down; `reader` counts the levels that are left.
-/

namespace Showcase.Block

/-- What a reader has found. -/
structure Reading where
  /-- the blocks -/
  blocks : List Block
  /-- the definitions, in their order on the page -/
  definitions : Definitions
  /-- the lines passed -/
  used : Nat
  /-- no empty line stands before the last block -/
  tight : Bool

/-- A way to read the lines inside of a frame, given their window and limit. -/
abbrev Reader := Frame → List Line → (window limit : Nat) → Reading

/-- What a rule has found at the first line. -/
structure Step where
  /-- the block; a definition makes none -/
  block : Option Block
  /-- the definitions in the block, or the one that stands in its place -/
  definitions : Definitions
  /-- the lines that the block takes up -/
  used : Nat

/-- A rule: what begins with the first line, given the lines after it, the window and the limit. -/
abbrev Rule := Frame → Line → List Line → (window limit : Nat) → Option Step

/-- A block without definitions. -/
def Step.leaf (b : Block) (used : Nat) : Step := ⟨some b, [], used⟩

/-! ## Paragraphs -/

/-- The number of lines with which a paragraph goes on. A line that is indented like a listing, or
unmarked in a quote, goes on with it in any case. -/
def continuation (g : Grammar) (f : Frame) : (limit : Nat) → List Line → Nat
  | 0, _ => 0
  | _, [] => 0
  | n + 1, l :: ls =>
    if l.isBlank then 0
    else if l.indent - f.indent > 3 ∨ l.indent < 0
        ∨ !interrupts g f .paragraph (n + 1) (l :: ls) then
      continuation g f n ls + 1
    else 0

/-- A paragraph. -/
def paragraphRule (g : Grammar) : Rule := fun f l ls _ limit =>
  let n := continuation g f (limit - 1) ls
  let source := Text.strip (Line.join f.indent (l :: ls.take n))
  some (.leaf (.paragraph source) (n + 1))

/-- The level of an underlined heading and the number of lines before its underline. -/
def underlined? (g : Grammar) (f : Frame) : (window : Nat) → List Line → Option (Nat × Nat)
  | 0, _ => none
  | _, [] => none
  | n + 1, l :: ls =>
    if l.isBlank then none
    else
      let deep := l.indent - f.indent > 3
      match if !deep ∧ l.indent ≥ f.indent then underline? l.content else none with
      | some level => some (level, 0)
      | none =>
        if deep ∨ l.indent < 0 ∨ !interrupts g f .paragraph (n + 1) (l :: ls) then
          (underlined? g f n ls).map fun x => (x.1, x.2 + 1)
        else none

/-- An underlined heading. -/
def underlinedHeadingRule (g : Grammar) : Rule := fun f l ls window _ =>
  if isCode g f l then none
  else
    (underlined? g f (window - 1) ls).map fun x =>
      .leaf (.heading x.1 (Text.strip (Line.join f.indent (l :: ls.take x.2)))) (x.2 + 2)

/-- A heading with number signs. -/
def markedHeadingRule (g : Grammar) : Rule := fun f l _ _ _ =>
  if isCode g f l then none
  else (heading? l.content).map fun x => .leaf (.heading x.1 x.2) 1

/-! ## Definitions -/

/-- The lines with which a definition may go on. -/
def definitionLines (g : Grammar) (f : Frame) : (limit : Nat) → List Line → List Line
  | 0, _ => []
  | _, [] => []
  | n + 1, l :: ls =>
    if l.isBlank then []
    else if isCode g f l ∨ l.indent < 0 ∨ !interrupts g f .definition (n + 1) (l :: ls) then
      l :: definitionLines g f n ls
    else []

/-- A definition of a label. -/
def definitionRule (g : Grammar) : Rule := fun f l ls _ limit =>
  if isCode g f l ∨ l.content.head? ≠ some '[' then none
  else
    let lines := l :: definitionLines g f (limit - 1) ls
    (Link.definition? (lines.flatMap fun l => l.content ++ l.lineFeed)).map fun d =>
      ⟨none, [(d.label, d.target)], d.lines⟩

/-! ## Listings and raw HTML -/

/-- The number of lines up to the last indented one. -/
def codeLines (g : Grammar) (f : Frame) : (window : Nat) → List Line → Nat
  | 0, _ => 0
  | _, [] => 0
  | n + 1, l :: ls =>
    if l.isBlank then
      match codeLines g f n ls with
      | 0 => 0
      | k + 1 => k + 2
    else if isCode g f l then codeLines g f n ls + 1
    else 0

/-- An indented listing. -/
def indentedCodeRule (g : Grammar) : Rule := fun f l ls window _ =>
  if isCode g f l then
    let n := codeLines g f (window - 1) ls
    some (.leaf (.code (Line.join (f.indent + 4) (l :: ls.take n) ++ ['\n'])) (n + 1))
  else none

/-- The number of lines before the one that ends a fence or container, and whether there is one. A
line outside of the frame ends it without being part of it; so does an empty line at the very end of
the page. -/
def untilEnd (g : Grammar) (f : Frame) (isEnd : Text → Bool) :
    (window : Nat) → List Line → Nat × Bool
  | 0, _ => (0, false)
  | _, [] => (0, false)
  | n + 1, l :: ls =>
    if (!l.isBlank && l.indent < f.indent) || (l.isBlank && !l.ended) then (0, false)
    else if !isCode g f l && isEnd l.content then (0, true)
    else
      let (k, closed) := untilEnd g f isEnd n ls
      (k + 1, closed)

/-- A fenced listing. Its content loses as many columns as the fence is indented. -/
def fencedCodeRule (g : Grammar) : Rule := fun f l ls window _ =>
  if isCode g f l then none
  else
    (fence? l.content).map fun fence =>
      let (n, closed) := untilEnd g f fence.isClosedBy (window - 1) ls
      .leaf (.fence fence.info (Line.cutAll l.indent (ls.take n))) (n + 1 + if closed then 1 else 0)

/-- The number of lines with which a block of HTML goes on. -/
def htmlLines (f : Frame) (opening : RawHtml.Opening) : (window : Nat) → List Line → Nat
  | 0, _ => 0
  | _, [] => 0
  | n + 1, l :: ls =>
    if l.indent < f.indent then 0
    else if opening.isEnd l.content then if l.isBlank then 0 else 1
    else htmlLines f opening n ls + 1

/-- A block of HTML. -/
def rawHtmlRule (g : Grammar) : Rule := fun f l ls window _ =>
  if isCode g f l ∨ !g.dialect.html then none
  else
    (RawHtml.opening? l.content).map fun opening =>
      let n := if opening.isEnd l.content then 0 else htmlLines f opening (window - 1) ls
      .leaf (.html (Line.cutAll f.indent (l :: ls.take n))) (n + 1)

/-! ## Thematic breaks and tables -/

/-- A thematic break. -/
def thematicBreakRule (g : Grammar) : Rule := fun f l _ _ _ =>
  if !isCode g f l ∧ isThematicBreak l.content then some (.leaf .thematicBreak 1) else none

/-- The body rows of a table, with as many cells as the table has columns. -/
def tableRows (g : Grammar) (f : Frame) (columns : Nat) :
    (added : Int) → (window : Nat) → List Line → List (List Text)
  | _, 0, _ => []
  | _, _, [] => []
  | added, n + 1, l :: ls =>
    let row := Text.strip l.content
    let cells := Table.cells row
    let added := added + (columns - cells.length)
    if l.indent < f.indent ∨ interrupts g f .quote (n + 1) (l :: ls) ∨ row = [] ∨ isCode g f l
        ∨ Table.addedLimit < added then []
    else Table.rowCells columns cells :: tableRows g f columns added n ls

/-- A table. -/
def tableRule (g : Grammar) : Rule := fun f l ls window _ =>
  (table? g f window (l :: ls)).map fun x =>
    let rows := tableRows g f x.1.length 0 (window - 2) (ls.drop 1)
    .leaf (.table x.2 x.1 rows) (rows.length + 2)

/-! ## Containers -/

/-- A container; an unclosed one ends with the enclosing block. -/
def containerRule (g : Grammar) (inner : Reader) : Rule := fun f l ls window _ =>
  if isCode g f l then none
  else
    (colons? g l.content).map fun colons =>
      let (n, closed) := untilEnd g f colons.isClosedBy (window - 1) ls
      let r := inner f ls n n
      let block := match colons.container with
        | .demo => .demo colons.info r.blocks
        | .notice name => .notice name r.blocks
      ⟨some block, r.definitions, n + 1 + if closed then 1 else 0⟩

/-! ## Quotes -/

/-- The lines of a quote without their markers, and whether another block has ended it. An unmarked
line belongs to the quote if it may go on with a paragraph. -/
def quoteLines (g : Grammar) (f : Frame) : (window : Nat) → (afterEmpty : Bool) → List Line →
    List Line × Bool
  | 0, _, _ => ([], false)
  | _, _, [] => ([], false)
  | n + 1, afterEmpty, l :: ls =>
    if l.isBlank then ([], false)
    else
      match if l.indent < f.indent then none else l.unquote? with
      | some m =>
        let (rest, interrupted) := quoteLines g f n m.isBlank ls
        (m :: rest, interrupted)
      | none =>
        if afterEmpty then ([], false)
        else if interrupts g f .quote (n + 1) (l :: ls) then ([], true)
        else
          let (rest, interrupted) := quoteLines g f n false ls
          (l.lazy :: rest, interrupted)

/-- A quote. -/
def quoteRule (g : Grammar) (inner : Reader) : Rule := fun f l ls window limit =>
  if isCode g f l then none
  else
    l.unquote?.map fun first =>
      let (more, interrupted) := quoteLines g f (window - 1) first.isBlank ls
      let n := more.length + 1
      let r := inner { f with indent := 0 } (first :: more ++ ls.drop more.length) n
        (if interrupted then n else limit)
      ⟨some (.quote r.blocks), r.definitions, r.used⟩

/-! ## Lists -/

/-- A list item as it was read. -/
structure Item where
  /-- its blocks -/
  blocks : List Block
  /-- its definitions -/
  definitions : Definitions
  /-- the lines that it takes up -/
  used : Nat
  /-- no empty line stands between its blocks -/
  tight : Bool
  /-- it ends with an empty line -/
  emptyEnd : Bool

/-- Reads the item with the given marker. More than four columns between the marker and the content
begin a listing. -/
def item (inner : Reader) (f : Frame) (b : Bullet) (l : Line) (ls : List Line)
    (window limit : Nat) : Item :=
  let m := l.pass b.length
  let start := l.indent.toNat + b.length
  let gap := m.indent.toNat - start
  let indent := start + if m.isBlank ∨ 4 < gap then 1 else gap
  let r : Reading :=
    if m.isBlank ∧ (ls.head?.map Line.isBlank).getD true then ⟨[], [], min 2 window, true⟩
    else inner ⟨indent, some f.indent⟩ (m :: ls) window limit
  let last := if r.used < 2 then false else (ls[r.used - 2]?.map Line.isBlank).getD true
  ⟨r.blocks, r.definitions, r.used, r.tight, last⟩

/-- The items of a list, given the marker of the first one. -/
def items (g : Grammar) (inner : Reader) (f : Frame) (b : Bullet) (l : Line) (ls : List Line)
    (window limit : Nat) : List Item :=
  let i := item inner f b l ls window limit
  let used := max 1 i.used
  if window ≤ used then [i]
  else
    match _h : ls.drop (used - 1) with
    | [] => [i]
    | next :: more =>
      if next.indent < f.indent ∨ isCode g f next
          ∨ interrupts g f .list (window - used) (next :: more) then [i]
      else
        match bullet? next.content with
        | some c =>
          if b.continues c then i :: items g inner f c next more (window - used) (limit - used)
          else [i]
        | none => [i]
termination_by window

/-- The items are tight: none has an empty line between its blocks, and none but the last one ends
with an empty line. -/
def areTight : List Item → Bool
  | [] => true
  | [i] => i.tight
  | i :: is => i.tight && !i.emptyEnd && areTight is

/-- A list. -/
def listRule (g : Grammar) (inner : Reader) : Rule := fun f l ls window limit =>
  if isCode g f l ∨ isBetweenItems f l then none
  else
    (bullet? l.content).map fun b =>
      let is := items g inner f b l ls window limit
      ⟨some (.list b.number (areTight is) (is.map Item.blocks)), is.flatMap Item.definitions,
        is.foldl (fun used i => used + max 1 i.used) 0⟩

/-! ## Sequences of blocks -/

/-- What begins with the first line. The blocks inside of quotes and containers are one level
further down, those inside of list items two. -/
def rule (g : Grammar) (inner inItem : Reader) : Rule := fun f l ls window limit =>
  if g.dialect.rich then
    tableRule g f l ls window limit
      <|> indentedCodeRule g f l ls window limit
      <|> containerRule g inner f l ls window limit
      <|> fencedCodeRule g f l ls window limit
      <|> quoteRule g inner f l ls window limit
      <|> thematicBreakRule g f l ls window limit
      <|> listRule g inItem f l ls window limit
      <|> definitionRule g f l ls window limit
      <|> rawHtmlRule g f l ls window limit
      <|> markedHeadingRule g f l ls window limit
      <|> underlinedHeadingRule g f l ls window limit
      <|> paragraphRule g f l ls window limit
  else
    tableRule g f l ls window limit
      <|> containerRule g inner f l ls window limit
      <|> paragraphRule g f l ls window limit

/-- The number of empty lines at the beginning. -/
def emptyLines : (limit : Nat) → List Line → Nat
  | 0, _ => 0
  | _, [] => 0
  | n + 1, l :: ls => if l.isBlank then emptyLines n ls + 1 else 0

/-- The line at a place is empty; so is what lies behind the end of the page. -/
def isBlankAt (ls : List Line) (n : Nat) : Bool := (ls[n]?.map Line.isBlank).getD true

/-- A reading that takes no block. -/
def nothing (used : Nat) (tight : Bool) : Reading := ⟨[], [], used, tight⟩

/-- The reading that goes on after a step. -/
def Reading.after (r : Reading) (s : Step) (used : Nat) : Reading :=
  ⟨s.block.toList ++ r.blocks, s.definitions ++ r.definitions, used + r.used, r.tight⟩

/-- Reads blocks by a rule. `spaced` tells that an empty line has been passed, and `tight` is what
is known of the last block. -/
def sequence (rule : Rule) (f : Frame) (spaced tight : Bool) (ls : List Line)
    (window limit : Nat) : Reading :=
  if window = 0 then nothing 0 tight
  else
    let empty := emptyLines limit ls
    match ls.drop empty with
    | [] => nothing empty tight
    | l :: more =>
      if window ≤ empty ∨ l.indent < f.indent then nothing empty tight
      else
        match rule f l more (window - empty) (limit - empty) with
        | none => nothing empty tight
        | some s =>
          let next := empty + max 1 s.used
          let eaten := next ≤ window && isBlankAt ls (next - 1)
          let blank := next < window && isBlankAt ls next
          let used := next + if blank then 1 else 0
          (sequence rule f (spaced || eaten || blank) (!spaced) (ls.drop used) (window - used)
            (limit - used)).after s used
termination_by window
decreasing_by omega

/-- Reads nothing: the nesting is too deep, and the lines are passed. -/
def tooDeep : Reader := fun f ls window limit =>
  if window = 0 then nothing 0 true
  else
    let empty := emptyLines limit ls
    match ls.drop empty with
    | [] => nothing empty true
    | l :: _ =>
      if window ≤ empty ∨ l.indent < f.indent then nothing empty true else nothing window true

/-- The reader with so many levels of nesting left. -/
def reader (g : Grammar) : (depth : Nat) → Reader
  | 0 => tooDeep
  | 1 => fun f => sequence (rule g tooDeep tooDeep) f false true
  | depth + 2 => fun f => sequence (rule g (reader g (depth + 1)) (reader g depth)) f false true

/-- The blocks and the definitions of a page. -/
def readPage (g : Grammar) (page : Text) : List Block × Definitions :=
  let ls := Line.all page
  let r := reader g g.dialect.depth ⟨0, none⟩ ls ls.length ls.length
  (r.blocks, r.definitions)

end Showcase.Block
