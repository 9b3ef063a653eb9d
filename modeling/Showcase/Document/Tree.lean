import Showcase.Document.Node

/-!
# Trees of elements

How the tokens of a document become a tree. The reader keeps the stack of open elements:

* a closing tag closes the innermost open element of its name and all elements inside that one; if
  there is none, it is passed over;
* an element that closes itself, or that never has anything in it, is closed at once. If the latter
  does not close itself, it may still get a closing tag later on, which is *awaited* and means
  nothing;
* texts that follow each other are one text, which ends at a tag or a note;
* what is open at the end is closed there.

Half of a surrogate pair is no character. The tree shows the replacement character in its place, and
with other characters in the places of halves (`Token.shown`) it shows these.

A text or note of nothing but white space is kept as one line break or one space, unless it stands
in an element where white space counts.
-/

namespace Showcase.Document

/-- An element that is open. -/
structure Open where
  /-- its name -/
  name : Text
  /-- its attributes -/
  attributes : List Attribute
  /-- what it has in it so far, the last first -/
  children : List Node

/-- A document that is being read. -/
structure Draft where
  /-- the texts that will be one text, the last first -/
  run : List Text
  /-- the open elements, the innermost first -/
  stack : List Open
  /-- what stands in no open element, the last first -/
  top : List Node
  /-- the names of elements that are closed and may still get a closing tag -/
  awaited : List Text

namespace Draft

/-- A draft of nothing. -/
def empty : Draft := ⟨[], [], [], []⟩

/-- The character is white space of the ASCII kind. -/
def isSpace (c : Char) : Bool := c == ' ' || c == '\n' || c == '\t' || c == '\x0c' || c == '\r'

/-- White space alone as one character, if the place does not keep it. -/
def condense (d : Draft) (t : Text) : Text :=
  if t.all isSpace && !d.stack.any (keepsSpace ·.name) then
    if '\n' ∈ t then ['\n'] else [' ']
  else t

/-- The innermost open element that keeps its text apart. -/
def holder (d : Draft) : Option Text := (d.stack.find? (isHolder ·.name)).map (·.name)

/-- The draft with a node in the innermost open element. -/
def add (n : Node) (d : Draft) : Draft :=
  match d.stack with
  | [] => { d with top := n :: d.top }
  | e :: es => { d with stack := { e with children := n :: e.children } :: es }

/-- The draft with its run of texts made a node. -/
def flush (d : Draft) : Draft :=
  if d.run = [] then d
  else add (.text d.holder (d.condense d.run.reverse.flatten)) { d with run := [] }

/-- Closes elements up to and with one of the given name. What is closed, the last first, belongs to
the element that is left innermost. -/
def unwind (name : Text) (done : List Node) : List Open → List Node × List Open
  | [] => (done, [])
  | e :: es =>
    let closed := Node.element e.name e.attributes (done ++ e.children).reverse
    if e.name = name then ([closed], es) else unwind name [closed] es

/-- Closes the innermost element of the given name. -/
def close (name : Text) (d : Draft) : Draft :=
  if d.stack.any (·.name == name) then
    let x := unwind name [] d.stack
    x.1.foldr add { d with stack := x.2 }
  else d

/-- The draft with one more token. -/
def read (d : Draft) : Token → Draft
  | .text t => { d with run := t :: d.run }
  | .half _ => { d with run := [Reference.replacement] :: d.run }
  | .note kind data =>
    let d := d.flush
    d.add (.note kind (d.condense data))
  | .opening name attributes closed =>
    let d := d.flush
    let attributes := lastAttributes attributes
    if closed then d.add (.element name attributes [])
    else if isVoid name then
      { d.add (.element name attributes []) with awaited := name :: d.awaited }
    else { d with stack := ⟨name, attributes, []⟩ :: d.stack }
  | .closing name =>
    if name ∈ d.awaited then { d with awaited := d.awaited.erase name } else d.flush.close name

/-- Closes all elements. -/
def unwindAll (done : List Node) : List Open → List Node
  | [] => done
  | e :: es =>
    unwindAll [.element e.name e.attributes (done ++ e.children).reverse] es

/-- The nodes of a document that has been read. -/
def nodes (d : Draft) : List Node :=
  let d := d.flush
  (unwindAll [] d.stack ++ d.top).reverse

end Draft

/-- The nodes of a document, given its tokens. -/
def ofTokens (tokens : List Token) : List Node := (tokens.foldl Draft.read Draft.empty).nodes

/-- A token with a character standing in for half of a surrogate pair. -/
def Token.shown (standIn : Nat → Char) : Token → Token
  | .half n => .text [standIn n]
  | token => token

/-- The halves of surrogate pairs among tokens. -/
def halves (tokens : List Token) : List Nat :=
  tokens.filterMap fun
    | .half n => some n
    | _ => none

/-- A tree shows the replacement character in the place of each half. -/
theorem ofTokens_shown (tokens : List Token) :
    ofTokens (tokens.map (Token.shown fun _ => Reference.replacement)) = ofTokens tokens := by
  have hread (d : Draft) (token : Token) :
      d.read (token.shown fun _ => Reference.replacement) = d.read token := by
    cases token <;> rfl
  simp only [ofTokens, List.foldl_map, hread]

/-- Where no half is named, none is shown. -/
theorem map_shown_of_halves {tokens : List Token} (h : halves tokens = []) (standIn : Nat → Char) :
    tokens.map (Token.shown standIn) = tokens := by
  refine (List.map_congr_left fun token htoken => ?_).trans (List.map_id tokens)
  cases token with
  | half n => cases List.filterMap_eq_nil_iff.1 h _ htoken
  | _ => rfl

/-- The nodes of a document. -/
def ofText (t : Text) : Except Rejection (List Node) := (tokens t).map ofTokens

end Showcase.Document
