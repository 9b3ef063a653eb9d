import Showcase.Document.Tree
import Showcase.Page.Config
import Showcase.Page.Spelling

/-!
# Headings

The headings of a document that belong to its outline: those that stand in no demo. A heading has a
title in two forms, as plain text and as HTML; the permalink in it belongs to neither. Its
identifier is the one that it carries, or else the slug of its title.
-/

namespace Showcase.Outline

open Document

/-- A heading as the outline shows it. -/
structure Heading where
  /-- from 1, the highest, to 6 -/
  level : Nat
  /-- what links to the heading name -/
  id : Text
  /-- the title as plain text -/
  title : Text
  /-- the title as HTML -/
  titleHtml : Text
  deriving DecidableEq

/-- The level of a heading element, by its name. -/
def level? : Text → Option Nat
  | ['h', c] => if '1' ≤ c ∧ c ≤ '6' then some (c.toNat - 48) else none
  | _ => none

/-- The class of permalinks. -/
def permalinkClass : Text := "header-anchor".toList

/-- An element with these attributes is a permalink. -/
def isPermalink (attributes : List Attribute) : Bool :=
  permalinkClass ∈ Text.words ((attribute? attributes "class").getD [])

/-- What a child of a heading adds to the plain title. -/
def plainPart : Node → Text
  | .text _ data | .note _ data => Text.strip data
  | .element name attributes children =>
    if isPermalink attributes then [] else elementText name children

/-- What a child of a heading adds to the title as HTML. -/
def htmlPart : Node → Text
  | .text _ data | .note _ data => data
  | .element name attributes children =>
    if isPermalink attributes then [] else (Node.element name attributes children).html false

/-- The plain title of a heading, given its children. -/
def title (children : List Node) : Text :=
  Text.strip (Text.joinWith [' '] ((children.map plainPart).filter (!·.isEmpty)))

/-- The title of a heading as HTML, given its children. -/
def titleHtml (children : List Node) : Text :=
  match Text.strip (children.flatMap htmlPart) with
  | [] => title children
  | html => html

/-- The heading that an element is, if it is one and has a title. -/
def heading? (spelling : Slug.Transliteration) (name : Text) (attributes : List Attribute)
    (children : List Node) : Option Heading :=
  match level? name with
  | none => none
  | some level =>
    match title children with
    | [] => none
    | plain =>
      let id := match attribute? attributes "id" with
        | none | some [] => Slug.ofTitle spelling plain
        | some id => id
      some ⟨level, id, plain, titleHtml children⟩

mutual

/-- The headings in a node, in their order in the document; `isDemo` tells the names of the elements
that are demos. -/
def headings (spelling : Slug.Transliteration) (isDemo : Text → Bool) : Node → List Heading
  | .element name attributes children =>
    (heading? spelling name attributes children).toList ++
      if isDemo name then [] else headingsOf spelling isDemo children
  | _ => []

/-- The headings in several nodes. -/
def headingsOf (spelling : Slug.Transliteration) (isDemo : Text → Bool) :
    List Node → List Heading
  | [] => []
  | n :: ns => headings spelling isDemo n ++ headingsOf spelling isDemo ns

end

/-- The name of a document seen as the element that all others stand in. -/
def documentName : Text := "[document]".toList

/-- The headings of a document. -/
def documentHeadings (spelling : Slug.Transliteration) (isDemo : Text → Bool) (ns : List Node) :
    List Heading :=
  if isDemo documentName then [] else headingsOf spelling isDemo ns

/-- The names that a setting gives for the elements that are demos: its text, or any of its texts
if it is a list. A setting that is absent or on stands for all names. -/
def isNamedBy : Setting → Text → Bool
  | .null, _ => true
  | .flag b, _ => b
  | .list l, name => l.any fun s => s.display == name
  | .record r, name => r.any (·.1 == name)
  | s, name => s.display == name

end Showcase.Outline
