import Showcase.Markup.Content
import Showcase.Markup.Dialect
import Showcase.Markup.Inline.Reader
import Showcase.Page.Listing
import Showcase.Page.Spelling
import Showcase.Text.Escape

/-!
# Pages as HTML

Inline content is written piece by piece. Words are escaped, raw HTML is not. A link that leads away
from the site opens in a window of its own and is marked by a class.

A page is written block by block. What differs between pages is gathered in a `Look`.

Headings get anchors: an id made from the heading's words, and a permalink to it. Ids are unique on
a page, so the ids given so far are handed from block to block; one that is taken gets a number
(`freeSlug`).

In a tight list, paragraphs stand bare in their items. A block element after a bare paragraph begins
on a new line.
-/

namespace Showcase.Html

/-! ## Inline content -/

/-- An attribute with its value, after a space. -/
def attributeText (name value : Text) : Text :=
  ' ' :: (Text.escape name ++ "=\"".toList ++ Text.escape value ++ ['"'])

/-- An attribute that is left out if it is empty. -/
def optional (name value : Text) : Text := if value = [] then [] else attributeText name value

/-- Content between the tags of an element. -/
def element (name attributes content : Text) : Text :=
  '<' :: (name ++ attributes ++ '>' :: content ++ "</".toList ++ name ++ ['>'])

/-- The end of the tag of an element without content. -/
def emptyEnd (d : Dialect) : Text := if d.slashes then " />".toList else ['>']

/-- A line break on the page. -/
def lineBreak (d : Dialect) : Text := "<br".toList ++ emptyEnd d ++ ['\n']

/-- The attributes of a link that leads away from the site. -/
def externalAttributes : Text :=
  attributeText "target".toList "_blank".toList
    ++ attributeText "rel".toList "noopener noreferrer".toList
    ++ attributeText "class".toList "external-link".toList

/-- The attributes of a link. -/
def linkAttributes (isExternal : Text → Bool) (target : Target) : Text :=
  attributeText "href".toList target.href ++ optional "title".toList target.title
    ++ if isExternal target.href then externalAttributes else []

/-- An image. -/
def image (d : Dialect) (target : Target) (alt : Text) : Text :=
  "<img".toList ++ attributeText "src".toList target.href ++ attributeText "alt".toList alt
    ++ optional "title".toList target.title ++ emptyEnd d

mutual

/-- A piece of inline content. -/
def inline (d : Dialect) (isExternal : Text → Bool) : Inline → Text
  | .text t => Text.escape t
  | .special t => Text.escape t
  | .softBreak => if d.breaks then lineBreak d else ['\n']
  | .hardBreak => lineBreak d
  | .code t => element "code".toList [] (Text.escape t)
  | .html t => t
  | .emphasis _ c => element "em".toList [] (inlines d isExternal c)
  | .strong c => element "strong".toList [] (inlines d isExternal c)
  | .strike c => element "s".toList [] (inlines d isExternal c)
  | .link target c =>
    element "a".toList (linkAttributes isExternal target) (inlines d isExternal c)
  | .image target c => image d target (Inline.altTexts c)

/-- Several pieces of inline content. -/
def inlines (d : Dialect) (isExternal : Text → Bool) : List Inline → Text
  | [] => []
  | i :: l => inline d isExternal i ++ inlines d isExternal l

end

/-! ## Anchors -/

/-- Where in a heading its permalink stands, and what it shows. -/
inductive Permalink
  | none
  | before (symbol : Text)
  | after (symbol : Text)

/-- How headings get anchors. -/
structure Anchors where
  /-- the least level with anchors -/
  least : Int
  /-- the permalink -/
  permalink : Permalink
  /-- how slugs are spelled -/
  spelling : Slug.Transliteration

/-- A slug, or the slug with a number. -/
def numberedSlug (slug : Text) (n : Nat) : Text :=
  if n = 0 then slug else slug ++ '-' :: Text.ofNat n

/-- The first of a slug's numbered forms, from `n` on, that is not taken; `tries` of them are looked
at. -/
def freeSlugFrom (slug : Text) (taken : List Text) : (tries n : Nat) → Text
  | 0, n => numberedSlug slug n
  | tries + 1, n =>
    if numberedSlug slug n ∈ taken then freeSlugFrom slug taken tries (n + 1)
    else numberedSlug slug n

/-- The first of a slug's numbered forms that is not taken. -/
def freeSlug (slug : Text) (taken : List Text) : Text := freeSlugFrom slug taken taken.length 0

/-- The permalink to an id. -/
def permalink (id symbol : Text) : Text :=
  "<a class=\"header-anchor\" href=\"#".toList ++ Text.escape id ++ "\">".toList ++ symbol
    ++ "</a>".toList

/-- The content of a heading with its permalink. -/
def Permalink.add (id content : Text) : Permalink → Text
  | .none => content
  | .before symbol => permalink id symbol ++ ' ' :: content
  | .after symbol => content ++ ' ' :: permalink id symbol

/-! ## Looks -/

/-- What the HTML of a page depends on besides its blocks. -/
structure Look where
  /-- the markup and the definitions that inline content is read by -/
  context : Inline.Context
  /-- links that lead away from the site -/
  isExternal : Text → Bool
  /-- the anchors of headings, if they have any -/
  anchors : Option Anchors
  /-- the opening tag of a table -/
  tableStart : Text
  /-- what is done to fenced listings -/
  wrappers : List Listing.Wrapper
  /-- what comes before the content of a demo, given its marker and its source -/
  demoStart : (info body : Text) → Text
  /-- what comes after the content of a demo -/
  demoEnd : Text

/-- The inline content of a source. -/
def Look.inlines (k : Look) (source : Text) : Text :=
  Html.inlines k.context.dialect k.isExternal (Inline.read k.context source)

/-! ## Single blocks -/

/-- An element on a line of its own. -/
def line (name attributes content : Text) : Text := element name attributes content ++ ['\n']

/-- An element with blocks inside. -/
def around (name attributes content : Text) : Text :=
  '<' :: (name ++ attributes ++ (if content = [] then ['>'] else ['>', '\n']) ++ content
    ++ "</".toList ++ name ++ ['>', '\n'])

/-- The name of the element of headings of a level. -/
def headingName (level : Nat) : Text := 'h' :: Text.ofNat level

/-- A heading, and the ids that are taken then. -/
def heading (k : Look) (level : Nat) (source : Text) (taken : List Text) : Text × List Text :=
  let content := k.inlines source
  match k.anchors with
  | some a =>
    if a.least ≤ level then
      let words := Inline.plainTexts (Inline.read k.context source)
      let id := freeSlug (Slug.ofTitle a.spelling words) taken
      (line (headingName level) (attributeText "id".toList id) (a.permalink.add id content),
        id :: taken)
    else (line (headingName level) [] content, taken)
  | none => (line (headingName level) [] content, taken)

/-- A listing. -/
def listing (attributes content : Text) : Text :=
  "<pre><code".toList ++ attributes ++ '>' :: Text.escape content ++ "</code></pre>\n".toList

/-- The attributes of a fenced listing: the first word behind the fence names its language. -/
def languageAttributes (d : Dialect) (info : Text) : Text :=
  match Text.words (Unescape.unescape info) with
  | [] => []
  | language :: _ => attributeText "class".toList (d.languageMark ++ language)

/-- A fenced listing. -/
def fence (k : Look) (info content : Text) : Text :=
  Listing.wrap k.wrappers (listing (languageAttributes k.context.dialect info) content)

/-- The attributes of a cell in an aligned column. -/
def alignmentAttributes : Alignment → Text
  | .none => []
  | .left => attributeText "style".toList "text-align:left".toList
  | .center => attributeText "style".toList "text-align:center".toList
  | .right => attributeText "style".toList "text-align:right".toList

/-- A row of a table. -/
def row (k : Look) (cellName : Text) (alignments : List Alignment) (cells : List Text) : Text :=
  around "tr".toList []
    ((alignments.zip cells).flatMap fun x =>
      line cellName (alignmentAttributes x.1) (k.inlines x.2))

/-- A table. -/
def table (k : Look) (alignments : List Alignment) (header : List Text)
    (rows : List (List Text)) : Text :=
  k.tableStart ++ around "thead".toList [] (row k "th".toList alignments header)
    ++ (if rows = [] then []
      else around "tbody".toList [] (rows.flatMap (row k "td".toList alignments)))
    ++ "</table>\n".toList

/-- The attributes of a numbered list. -/
def startAttributes (start : Nat) : Text :=
  if start = 1 then [] else attributeText "start".toList (Text.ofNat start)

/-- The block is an element that begins on a new line after a bare paragraph. -/
def breaksLine : Block → Bool
  | .heading .. => true
  | .thematicBreak => true
  | .quote .. => true
  | .list .. => true
  | .notice .. => true
  | _ => false

/-- The block is a paragraph. -/
def isParagraph : Block → Bool
  | .paragraph _ => true
  | _ => false

/-- The source of a demo is the raw content of its first block. -/
def body : List Block → Text
  | [] => []
  | b :: _ => b.rawContent

/-! ## All blocks -/

mutual

/-- A block, and the ids that are taken then; `bare` if paragraphs stand bare. -/
def block (k : Look) (bare : Bool) : Block → List Text → Text × List Text
  | .paragraph source, taken =>
    (if bare then k.inlines source else line ['p'] [] (k.inlines source), taken)
  | .heading level source, taken => heading k level source taken
  | .thematicBreak, taken => ("<hr".toList ++ emptyEnd k.context.dialect ++ ['\n'], taken)
  | .code content, taken => (listing [] content, taken)
  | .fence info content, taken => (fence k info content, taken)
  | .html content, taken => (content, taken)
  | .quote content, taken =>
    let (html, taken) := blocks k false false content taken
    (around "blockquote".toList [] html, taken)
  | .list start tight is, taken =>
    let (html, taken) := items k tight is taken
    match start with
    | none => (around "ul".toList [] html, taken)
    | some n => (around "ol".toList (startAttributes n) html, taken)
  | .table alignments header rows, taken => (table k alignments header rows, taken)
  | .demo info content, taken =>
    let (html, taken) := blocks k false false content taken
    (k.demoStart info (body content) ++ html ++ k.demoEnd, taken)
  | .notice name content, taken =>
    let (html, taken) := blocks k false false content taken
    (around "div".toList (attributeText "class".toList name) html, taken)

/-- Several blocks; `afterBare` if a bare paragraph stands before them. -/
def blocks (k : Look) (bare afterBare : Bool) : List Block → List Text → Text × List Text
  | [], taken => ([], taken)
  | b :: bs, taken =>
    let (html, taken) := block k bare b taken
    let (more, taken) := blocks k bare (bare && isParagraph b) bs taken
    ((if afterBare && breaksLine b then ['\n'] else []) ++ html ++ more, taken)

/-- The items of a list. -/
def items (k : Look) (tight : Bool) : List (List Block) → List Text → Text × List Text
  | [], taken => ([], taken)
  | i :: is, taken =>
    let (html, taken) := blocks k tight false i taken
    let (more, taken) := items k tight is taken
    let start := match i with
      | [] => []
      | b :: _ => if tight && isParagraph b then [] else ['\n']
    ("<li>".toList ++ start ++ html ++ "</li>\n".toList ++ more, taken)

end

/-- A whole page. -/
def page (k : Look) (bs : List Block) : Text := (blocks k false false bs []).1

end Showcase.Html
