import Std.Data.HashMap
import Showcase.Markup.Inline.Atom
import Showcase.Markup.Inline.Emphasis

/-!
# Reading inline content

A text is read from left to right. Words are gathered until a construct begins. A bracket begins a
link or an image if its label closes and a target follows, either in parentheses or as the label of
a definition.

To find the end of a label, the constructs in it are skipped as wholes, since a bracket inside of
code or of a further link closes nothing. Skipping a bracket asks the same question about its own
label, so the answers are kept (`Skips`) and each place is asked about once. The question may be
nested only as deep as the dialect allows; beyond that, everything up to the end counts as skipped.

* `label?` finds the end of a label, given a way to skip;
* `link?` and `image?` read what begins with a bracket;
* `skip` is the way to skip;
* `scan` reads a text into pieces, and `read` resolves the emphasis among them.
-/

namespace Showcase.Inline

/-- What decides how inline content is read. -/
structure Context where
  /-- the constructs of the markup -/
  dialect : Dialect
  /-- the targets of labels -/
  definitions : Definitions
  /-- what stands in for halves of surrogate pairs -/
  standIn : Nat → Char := Torn.replacement

/-- For the places of a text that have been asked about, the number of characters to skip there. -/
abbrev Skips := Std.HashMap Nat Nat

/-- A way to skip one construct or one run of words: the number of characters, given the answers so
far, the place and the text from there on. -/
abbrev Skipping := Skips → Nat → Text → Nat × Skips

/-! ## Labels -/

/-- The label up to its closing bracket, and what follows that. `k` characters are still to be
passed over, `level` brackets are open, and `place` is where the text begins. A label of a link may
have no link inside. -/
def label? (skip : Skipping) (forLink : Bool) : (k level place : Nat) → Skips → Text →
    Option (Text × Text) × Skips
  | _, _, _, skips, [] => (none, skips)
  | k + 1, level, place, skips, c :: t =>
    let (found, skips) := label? skip forLink k level (place + 1) skips t
    (found.map fun x => (c :: x.1, x.2), skips)
  | 0, level, place, skips, c :: t =>
    if c = ']' ∧ level ≤ 1 then (some ([], t), skips)
    else
      let (n, skips) := skip skips place (c :: t)
      if c = '[' ∧ n ≠ 1 ∧ forLink then (none, skips)
      else
        let level :=
          if c = ']' then level - 1 else if c = '[' ∧ n = 1 then level + 1 else level
        let (found, skips) := label? skip forLink (n - 1) level (place + 1) skips t
        (found.map fun x => (c :: x.1, x.2), skips)

/-- What is found behind a bracket: the target, the label and what follows. -/
structure Found where
  /-- where the link leads -/
  target : Target
  /-- what stands between the brackets -/
  label : Text
  /-- what follows the target -/
  rest : Text

/-- Reads the target of a label by its definition. A further label may stand at `here`; if none
does, or if it is empty, the link's own label counts. -/
def defined? (ctx : Context) (skip : Skipping) (label : Text) (place : Nat) (skips : Skips)
    (here after : Text) : Option Found × Skips :=
  if ctx.definitions.isEmpty then (none, skips)
  else
    let (further, skips) := match here with
      | '[' :: t => label? skip false 0 1 (place + 1) skips t
      | _ => (none, skips)
    let (name, rest) := further.getD ([], after)
    let target := ctx.definitions.find? (if name = [] then label else name)
    (target.map fun x => ⟨x, label, rest⟩, skips)

/-- Reads a link after its opening bracket, which stands at `place`. If the parentheses do not hold
a target, a further label may begin behind the place of the fault. -/
def link? (ctx : Context) (skip : Skipping) (place : Nat) (skips : Skips) (t : Text) :
    Option Found × Skips :=
  match label? skip true 0 1 (place + 1) skips t with
  | (none, skips) => (none, skips)
  | (some (label, after), skips) =>
    let placeOf (r : Text) := place + 1 + t.length - r.length
    match after with
    | '(' :: u =>
      match u.dropWhile Link.isGap with
      | [] => (none, skips)
      | u =>
        match Link.inParentheses u with
        | (target, ')' :: rest) => (some ⟨target, label, rest⟩, skips)
        | (_, _ :: here) => defined? ctx skip label (placeOf here) skips here after
        | (_, []) => defined? ctx skip label 0 skips [] after
    | _ => defined? ctx skip label (placeOf after) skips after after

/-- Reads an image after its exclamation mark and opening bracket, of which the mark stands at
`place`. -/
def image? (ctx : Context) (skip : Skipping) (place : Nat) (skips : Skips) (t : Text) :
    Option Found × Skips :=
  match label? skip false 0 1 (place + 2) skips t with
  | (none, skips) => (none, skips)
  | (some (label, after), skips) =>
    match after with
    | '(' :: u =>
      match u.dropWhile Link.isGap with
      | [] => (none, skips)
      | u =>
        match Link.inParentheses u with
        | (target, ')' :: rest) => (some ⟨target, label, rest⟩, skips)
        | _ => (none, skips)
    | _ => defined? ctx skip label (place + 2 + t.length - after.length) skips after after

/-! ## Skipping -/

/-- A character at which a run of words ends. -/
def endsWords (c : Char) : Bool := "\n!#$%&*+-:<=>@[\\]^_\x60\x7b\x7d~".toList.contains c

/-- The number of characters before a rest of the text. -/
def width (t rest : Text) : Nat := t.length - rest.length

/-- The number of characters of the construct, or of the run of words, at the beginning of the text.
A line end takes the white space after it along; a mark that begins no construct stands alone. -/
def constructWidth (ctx : Context) (skip : Skipping) : Skipping
  | skips, _, [] => (1, skips)
  | skips, place, c :: t =>
    if c = '[' then
      let (found, skips) := link? ctx skip place skips t
      ((found.map fun f => width (c :: t) f.rest).getD 1, skips)
    else if c = '!' then
      match t with
      | '[' :: u =>
        let (found, skips) := image? ctx skip place skips u
        ((found.map fun f => width (c :: t) f.rest).getD 1, skips)
      | _ => (1, skips)
    else if c = '\n' then (1 + (t.takeWhile Text.isSpaceOrTab).length, skips)
    else if endsWords c then
      match atom? ctx.dialect ctx.standIn (c :: t) with
      | some (_, rest) => (width (c :: t) rest, skips)
      | none => (max 1 (backquotes (c :: t)), skips)
    else (1 + (t.takeWhile fun c => !endsWords c).length, skips)

/-- Skips one construct, `depth` levels of labels above the limit. -/
def skip (ctx : Context) : (depth : Nat) → Skipping
  | 0, skips, place, t =>
    match skips[place]? with
    | some n => (n, skips)
    | none => (t.length + 1, skips.insert place (t.length + 1))
  | depth + 1, skips, place, t =>
    match skips[place]? with
    | some n => (n, skips)
    | none =>
      let (n, skips) := constructWidth ctx (skip ctx depth) skips place t
      (n, skips.insert place n)

/-! ## Reading -/

/-- What begins at a place of the text. -/
inductive Token
  /-- so many characters of words -/
  | words (n : Nat)
  /-- a line end with the white space after it -/
  | lineEnd (n : Nat)
  /-- a run of marks -/
  | run (r : Run)
  /-- a construct of so many characters -/
  | node (i : Inline) (n : Nat)

/-- The number of characters of a token. -/
def Token.width : Token → Nat
  | .words n => n
  | .lineEnd n => n
  | .run r => r.length
  | .node _ n => n

/-- Reads the content of a label: `depth` levels of labels are left, and the text begins at a place
behind a character. -/
abbrev Reading := (depth : Nat) → Skips → (place : Nat) → (before : Char) → Text → List Inline

/-- The run of a mark at the beginning of the text. -/
def runAt (before mark : Char) (t : Text) : Run :=
  let n := (t.takeWhile (· == mark)).length
  let (opens, closes) := flanking mark before ((t.drop n).headD ' ')
  ⟨mark, n, opens, closes⟩

/-- A character that ends runs of words and begins neither link nor image. -/
def simpleToken (ctx : Context) (before c : Char) (t : Text) : Token :=
  if c = '*' ∨ c = '_' ∨ (c = '~' ∧ ctx.dialect.strikes ∧ t.head? = some '~') then
    .run (runAt before c (c :: t))
  else
    match atom? ctx.dialect ctx.standIn (c :: t) with
    | some (i, rest) => .node i (Inline.width (c :: t) rest)
    | none => .words (max 1 (backquotes (c :: t)))

/-- What begins at a place of the text. -/
def token (ctx : Context) (read : Reading) (depth : Nat) (before : Char) (place : Nat)
    (skips : Skips) (c : Char) (t : Text) : Token × Skips :=
  if !ctx.dialect.rich || depth == 0 then (.words 1, skips)
  else if c = '\n' then (.lineEnd (1 + (t.takeWhile Text.isSpaceOrTab).length), skips)
  else if c = '[' then
    match link? ctx (skip ctx depth) place skips t with
    | (some f, skips) =>
      let content := read (depth - 1) skips (place + 1) c f.label
      (.node (.link f.target content) (Inline.width (c :: t) f.rest), skips)
    | (none, skips) => (.words 1, skips)
  else if c = '!' then
    match t with
    | '[' :: u =>
      match image? ctx (skip ctx depth) place skips u with
      | (some f, skips) =>
        let content := read ctx.dialect.depth ∅ 0 ' ' f.label
        (.node (.image f.target content) (Inline.width (c :: t) f.rest), skips)
      | (none, skips) => (.words 1, skips)
    | _ => (.words 1, skips)
  else if endsWords c then (simpleToken ctx before c t, skips)
  else (.words 1, skips)

/-- The words gathered so far, backwards, as a piece. -/
def flush (words : Text) (pieces : List Piece) : List Piece :=
  if words = [] then pieces else .node (.text words.reverse) :: pieces

/-- A line end after the words gathered so far: two spaces make it a line break on the page, and the
spaces themselves are dropped. -/
def lineEnd (words : Text) (pieces : List Piece) : List Piece :=
  match words with
  | ' ' :: ' ' :: w => flush (w.dropWhile (· == ' ')) (.node .hardBreak :: pieces)
  | ' ' :: w => flush w (.node .softBreak :: pieces)
  | w => flush w (.node .softBreak :: pieces)

/-- Reads a text into pieces. `k` characters of the last token are still to be passed over, `before`
is the last character, and the words since the last piece are held backwards. -/
def scan (ctx : Context) (read : Reading) (depth : Nat) :
    (k : Nat) → (before : Char) → (place : Nat) → (words : Text) → Skips → Text → List Piece
  | _, _, _, words, _, [] => flush words []
  | k + 1, _, place, words, skips, c :: t => scan ctx read depth k c (place + 1) words skips t
  | 0, before, place, words, skips, c :: t =>
    let (tok, skips) := token ctx read depth before place skips c t
    let go (words : Text) := scan ctx read depth (tok.width - 1) c (place + 1) words skips t
    match tok with
    | .words n => go (((c :: t).take n).reverse ++ words)
    | .lineEnd _ => lineEnd words (go [])
    | .run r => flush words (.run r :: go [])
    | .node i _ => flush words (.node i :: go [])

/-- Reads a text whose labels are nested at most `fuel` deep. -/
def readFrom (ctx : Context) : (fuel : Nat) → Reading
  | 0, _, _, _, _, t => [.text t]
  | fuel + 1, depth, skips, place, before, t =>
    resolve (scan ctx (readFrom ctx fuel) depth 0 before place [] skips t)

/-- Reads inline content. Labels are shorter than what they stand in, so their nesting is no deeper
than the text is long. -/
def read (ctx : Context) (t : Text) : List Inline :=
  readFrom ctx (t.length + 1) ctx.dialect.depth ∅ 0 ' ' t

end Showcase.Inline
