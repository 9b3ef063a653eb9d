import Showcase.Text.Basic

/-!
# Dialects

A dialect says which constructs of the markup are read and how the HTML is written. Tables and
containers belong to every dialect; the plain dialect has no other blocks than paragraphs and no
inline constructs at all.
-/

namespace Showcase

/-- What is read, and how it is written. -/
structure Dialect where
  /-- all blocks and inline constructs are read, not just paragraphs, tables and containers -/
  rich : Bool
  /-- tildes strike text through -/
  strikes : Bool
  /-- raw HTML is passed through -/
  html : Bool
  /-- empty elements are closed with a slash -/
  slashes : Bool
  /-- a line break in the source is a line break on the page -/
  breaks : Bool
  /-- what the class of a listing's language begins with -/
  languageMark : Text
  /-- how deep blocks may be nested, and labels within labels -/
  depth : Nat
  deriving DecidableEq

namespace Dialect

/-- The standard markup, with raw HTML. -/
def standard : Dialect where
  rich := true
  strikes := false
  html := true
  slashes := true
  breaks := false
  languageMark := "language-".toList
  depth := 20

/-- The standard markup without raw HTML, for descriptions. -/
def description : Dialect := { standard with html := false }

/-- The standard markup and struck text, without raw HTML. -/
def extended : Dialect :=
  { standard with strikes := true, html := false, slashes := false, depth := 100 }

/-- Paragraphs of plain text. -/
def plain : Dialect := { standard with rich := false, html := false, slashes := false }

/-- The dialect that a configuration names. -/
def named? (name : Text) : Option Dialect :=
  if name = "commonmark".toList then some standard
  else if name = "default".toList ∨ name = "js-default".toList then some extended
  else if name = "zero".toList then some plain
  else none

end Dialect

end Showcase
