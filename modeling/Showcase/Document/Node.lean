import Showcase.Text.Blank
import Showcase.Text.Case
import Showcase.Text.Escape
import Showcase.Document.Token

/-!
# Nodes

A document that was read is a list of nodes: texts, notes, and elements with nodes in them.

Some elements keep their text apart from the text of the page: scripts, styles, templates and the
glosses over a word. A text knows the innermost of them that it stands in, its *holder*, so that the
text of an element (`Node.words`) leaves out what is not part of it.

`Node.html` writes a node. Attributes are written in the order of their names, and those that are
lists of words with single spaces.
-/

namespace Showcase.Document

/-- A part of a document. -/
inductive Node
  | text (holder : Option Text) (data : Text)
  | note (kind : NoteKind) (data : Text)
  | element (name : Text) (attributes : List Attribute) (children : List Node)
  deriving Inhabited

/-- An element of this name keeps its text apart. -/
def isHolder (name : Text) : Bool :=
  String.ofList name ∈ ["rt", "rp", "style", "script", "template"]

/-- An element of this name never has anything in it. -/
def isVoid (name : Text) : Bool :=
  String.ofList name ∈ ["area", "base", "br", "col", "embed", "hr", "img", "input", "keygen",
    "link", "menuitem", "meta", "param", "source", "track", "wbr", "basefont", "bgsound", "command",
    "frame", "image", "isindex", "nextid", "spacer"]

/-- White space counts in an element of this name. -/
def keepsSpace (name : Text) : Bool := name == "pre".toList || name == "textarea".toList

/-! ## Attributes -/

/-- The value of an attribute. -/
def attribute? (attributes : List Attribute) (key : String) : Option Text :=
  (attributes.find? fun a => a.1 == key.toList).map (·.2)

/-- The attributes with one of them set, which keeps its place if it is there already. -/
def setAttribute (attributes : List Attribute) (a : Attribute) : List Attribute :=
  if attributes.any (·.1 == a.1) then attributes.map fun b => if b.1 = a.1 then a else b
  else attributes ++ [a]

/-- The attributes of a tag, where the last of several with one name counts. -/
def lastAttributes (attributes : List Attribute) : List Attribute :=
  attributes.foldl setAttribute []

/-- The attribute of an element holds a list of words. -/
def isWordList (element key : Text) : Bool :=
  let key := String.ofList key
  key ∈ ["class", "accesskey", "dropzone"] ||
    (String.ofList element, key) ∈ [("a", "rel"), ("a", "rev"), ("link", "rel"), ("link", "rev"),
      ("td", "headers"), ("th", "headers"), ("form", "accept-charset"), ("object", "archive"),
      ("area", "rel"), ("icon", "sizes"), ("iframe", "sandbox"), ("output", "for")]

/-- The encoding in which documents are written. -/
def encodingName : Text := "utf-8".toList

/-- A parameter of a media type; if it names an encoding, it now names the one of documents. `fresh`
holds at its beginning and after white space. -/
def restateParameter (fresh : Bool) (t : Text) : Text :=
  if fresh && Text.startsWith t "charset=".toList then "charset=".toList ++ encodingName
  else
    match t with
    | [] => []
    | c :: t => c :: restateParameter (Text.isBlank c) t

/-- A media type with its encoding restated. -/
def restateEncoding (t : Text) : Text :=
  Text.joinWith [';'] ((Text.splitOn ';' t).map (restateParameter true))

/-- The value of an attribute as it is written again. An element that tells the encoding of the
document tells the one in which it is written. -/
def writtenValue (element : Text) (attributes : List Attribute) (a : Attribute) : Text :=
  if isWordList element a.1 then Text.joinWith [' '] (Text.words a.2)
  else if element = "meta".toList then
    if a.1 = "charset".toList then encodingName
    else if a.1 = "content".toList && (attribute? attributes "charset").isNone
        && (attribute? attributes "http-equiv").map Text.lower == some "content-type".toList then
      restateEncoding a.2
    else a.2
  else a.2

/-- A character of a text or a value, as it is written. -/
def writtenChar (c : Char) : Text :=
  if c = '&' then "&amp;".toList
  else if c = '<' then "&lt;".toList
  else if c = '>' then "&gt;".toList
  else [c]

/-- A text as it is written. -/
def writtenText (t : Text) : Text := t.flatMap writtenChar

/-- A value in quotes: in double quotes if that is possible. -/
def quotedValue (t : Text) : Text :=
  if '"' ∈ t then
    if '\'' ∈ t then '"' :: (Text.replaceAll ['"'] "&quot;".toList t ++ ['"'])
    else '\'' :: (t ++ ['\''])
  else '"' :: (t ++ ['"'])

/-- The attributes of an element as they are written in its tag. -/
def writtenAttributes (element : Text) (attributes : List Attribute) : Text :=
  (attributes.mergeSort fun a b => !decide (b.1 < a.1)).flatMap fun a =>
    ' ' :: (a.1 ++ '=' :: quotedValue (writtenText (writtenValue element attributes a)))

/-! ## Nodes as text -/

/-- A note as it is written. -/
def noteHtml (kind : NoteKind) (data : Text) : Text :=
  match kind with
  | .comment => "<!--".toList ++ data ++ "-->".toList
  | .section => "<![CDATA[".toList ++ data ++ "]]>".toList
  | .instruction => "<?".toList ++ data ++ ['>']
  | .declaration => "<?".toList ++ data ++ "?>".toList
  | .doctype => "<!DOCTYPE ".toList ++ data ++ ['>', '\n']

mutual

/-- A node as HTML. The text of an element without markup is written as it is. -/
def Node.html (verbatim : Bool) : Node → Text
  | .text _ data => if verbatim then data else writtenText data
  | .note kind data => noteHtml kind data
  | .element name attributes children =>
    let start := '<' :: (name ++ writtenAttributes name attributes)
    if isVoid name && children.isEmpty then start ++ ['/', '>']
    else start ++ '>' :: (Node.htmls (isVerbatim name) children ++ '<' :: '/' :: (name ++ ['>']))

/-- Several nodes as HTML. -/
def Node.htmls (verbatim : Bool) : List Node → Text
  | [] => []
  | n :: ns => Node.html verbatim n ++ Node.htmls verbatim ns

end

mutual

/-- The texts in a node that have the given holder. A marked section counts as text of the page. -/
def Node.texts (holder : Option Text) : Node → List Text
  | .text h data => if h = holder then [data] else []
  | .note kind data => if kind = .section ∧ holder = none then [data] else []
  | .element _ _ children => Node.textsOf holder children

/-- The texts in several nodes that have the given holder. -/
def Node.textsOf (holder : Option Text) : List Node → List Text
  | [] => []
  | n :: ns => Node.texts holder n ++ Node.textsOf holder ns

end

/-- The text of an element: its texts, trimmed, with single spaces between them. -/
def elementText (name : Text) (children : List Node) : Text :=
  let texts := Node.textsOf (if isHolder name then some name else none) children
  Text.joinWith [' '] ((texts.map Text.strip).filter (!·.isEmpty))

end Showcase.Document
