import Showcase.Markup.Dialect
import Showcase.Text.Blank

/-!
# Markers

A line of three or more colons and a marker opens a container (`Block.colons?`), and a line of at
least as many colons closes it. The marker of a demo is the word `demo`, and possibly white space
and a description, which may run over all that is left. Any other container is a notice, whose
marker begins with its name.
-/

namespace Showcase

namespace Marker

/-- The word that a demo marker begins with. -/
def keyword : Text := "demo".toList

/-- The description of a demo marker; `none` if the text is no demo marker. -/
def description? (marker : Text) : Option Text :=
  match Text.after? keyword (Text.strip marker) with
  | some [] => some []
  | some (c :: r) => if Text.isBlank c then some (Text.strip r) else none
  | none => none

/-- The text is a demo marker. -/
def isValid (marker : Text) : Bool := (description? marker).isSome

/-- The description of a marker, which is empty where there is none. -/
def description (marker : Text) : Text := (description? marker).getD []

end Marker

/-- What is read on a page. -/
structure Grammar where
  /-- the constructs of the markup -/
  dialect : Dialect
  /-- tables are read -/
  tables : Bool
  /-- demos are read -/
  demos : Bool
  /-- the names of notices -/
  notices : List Text

namespace Block

/-- The length of the run of a character at the beginning of the text, and what follows it. -/
def runOf (c : Char) (t : Text) : Nat × Text :=
  ((t.takeWhile (· == c)).length, t.dropWhile (· == c))

/-- The text has nothing but spaces and tabs. -/
def isSpaces (t : Text) : Bool := t.all Text.isSpaceOrTab

/-! ## Containers -/

/-- The containers. -/
inductive Container
  | demo
  | notice (name : Text)
  deriving DecidableEq

/-- An opening line of a container. -/
structure Colons where
  /-- the number of colons -/
  length : Nat
  /-- the container -/
  container : Container
  /-- what stands behind the colons -/
  info : Text

/-- The first word of what stands behind the colons. -/
def firstWord (info : Text) : Text := (Text.strip info).takeWhile (· != ' ')

/-- The container that begins. A notice with the name of demos takes their place. -/
def container? (g : Grammar) (info : Text) : Option Container :=
  if g.demos && Marker.isValid info then
    some (if Marker.keyword ∈ g.notices then .notice Marker.keyword else .demo)
  else (g.notices.find? (· == firstWord info)).map .notice

/-- The opening line of a container. -/
def colons? (g : Grammar) (content : Text) : Option Colons :=
  let (n, info) := runOf ':' content
  if n < 3 then none else (container? g info).map fun c => ⟨n, c, info⟩

/-- The line closes the container. -/
def Colons.isClosedBy (c : Colons) (content : Text) : Bool :=
  let (n, r) := runOf ':' content
  c.length ≤ n && isSpaces r

end Block

end Showcase
