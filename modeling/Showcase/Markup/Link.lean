import Showcase.Markup.Unescape
import Showcase.Markup.Url

/-!
# Link targets

Where a link leads and what its title is. Both are written after the link's label, or once for all
in a definition

    [label]: destination "title"

which any link with the same label may use. Labels are compared without regard to letter case and
to the kind and amount of white space (`normalLabel`). The first definition of a label counts.

Main statement: `Definitions.find?_append` (later definitions never replace earlier ones).
-/

namespace Showcase

/-- Where a link leads. -/
structure Target where
  /-- the URL -/
  href : Text
  /-- the title, possibly empty -/
  title : Text
  deriving DecidableEq

namespace Link

/-- What may stand between the parts of a target. -/
def isGap (c : Char) : Bool := Text.isSpaceOrTab c || c == '\n'

/-! ## Destinations -/

/-- The text before the closing angle bracket, and what follows it. -/
def angled? : Text → Option (Text × Text)
  | [] => none
  | '\\' :: d :: t => (angled? t).map fun x => ('\\' :: d :: x.1, x.2)
  | c :: t =>
    if c = '>' then some ([], t)
    else if c = '<' ∨ c = '\n' then none
    else (angled? t).map fun x => (c :: x.1, x.2)

/-- How deep parentheses may be nested in a destination without angle brackets. -/
def parenthesisLimit : Nat := 32

/-- A destination without angle brackets ends before this character. -/
def endsBare (c : Char) : Bool := c.toNat ≤ 32 || c.toNat == 127

/-- The longest destination without angle brackets, and what follows it; `opened` parentheses are to
be closed. -/
def bare? : (opened : Nat) → Text → Option (Text × Text)
  | n, [] => if n = 0 then some ([], []) else none
  | n, '\\' :: d :: t =>
    if d = ' ' then if n = 0 then some ([], '\\' :: d :: t) else none
    else (bare? n t).map fun x => ('\\' :: d :: x.1, x.2)
  | n, c :: t =>
    if endsBare c then if n = 0 then some ([], c :: t) else none
    else if c = '(' then
      if n < parenthesisLimit then (bare? (n + 1) t).map fun x => (c :: x.1, x.2) else none
    else if c = ')' then
      match n with
      | 0 => some ([], c :: t)
      | n + 1 => (bare? n t).map fun x => (c :: x.1, x.2)
    else (bare? n t).map fun x => (c :: x.1, x.2)

/-- The destination at the beginning of the text, and what follows it. -/
def destination? : Text → Option (Text × Text)
  | '<' :: t => (angled? t).map fun x => (Unescape.unescape x.1, x.2)
  | t =>
    match bare? 0 t with
    | some (c :: d, r) => some (Unescape.unescape (c :: d), r)
    | _ => none

/-- The URL for a destination, unless links may not lead there. -/
def href? (destination : Text) : Option Text :=
  let url := Url.normalize destination
  if Url.isSafe url then some url else none

/-! ## Titles -/

/-- The text before the closing mark of a title, and what follows it. -/
def titleBody? (close : Char) : Text → Option (Text × Text)
  | [] => none
  | '\\' :: d :: t => (titleBody? close t).map fun x => ('\\' :: d :: x.1, x.2)
  | c :: t =>
    if c = close then some ([], t)
    else if c = '(' ∧ close = ')' then none
    else (titleBody? close t).map fun x => (c :: x.1, x.2)

/-- The mark that closes a title. -/
def closing? (c : Char) : Option Char :=
  if c = '"' ∨ c = '\'' then some c else if c = '(' then some ')' else none

/-- The title at the beginning of the text, and what follows it. -/
def title? : Text → Option (Text × Text)
  | [] => none
  | c :: t => do
    let (raw, r) ← titleBody? (← closing? c) t
    return (Unescape.unescape raw, r)

/-- The title after a gap, and what follows it. -/
def gapTitle? (t : Text) : Option (Text × Text) :=
  let r := t.dropWhile isGap
  if r.length < t.length then title? r else none

/-! ## Targets in parentheses -/

/-- What stands between the parentheses of a link, and what follows it up to the closing one: an
unsafe destination is not read, and without a destination there is no title. -/
def inParentheses (t : Text) : Target × Text :=
  match destination? t with
  | none => (⟨[], []⟩, t)
  | some (d, r) =>
    let (href, r) := match href? d with
      | some url => (url, r)
      | none => ([], t)
    match gapTitle? r with
    | some (title, r) => (⟨href, title⟩, r.dropWhile isGap)
    | none => (⟨href, []⟩, r.dropWhile isGap)

/-! ## Labels -/

/-- White space as single spaces; `true` while inside of it. -/
def oneSpace : (inside : Bool) → Text → Text
  | _, [] => []
  | inside, c :: t =>
    if Text.isBlank c then if inside then oneSpace true t else ' ' :: oneSpace true t
    else c :: oneSpace false t

/-- The form in which labels are compared. -/
def normalLabel (t : Text) : Text := Text.label (oneSpace false (Text.strip t))

end Link

/-- Targets by their labels, in the order in which they were defined. -/
abbrev Definitions := List (Text × Target)

namespace Definitions

/-- The target of a label in its normal form. -/
def get? (label : Text) : Definitions → Option Target
  | [] => none
  | (l, target) :: d => if l = label then some target else get? label d

/-- The target of a label as it is written. -/
def find? (d : Definitions) (label : Text) : Option Target :=
  if d.isEmpty then none else d.get? (Link.normalLabel label)

theorem get?_append (label : Text) (d e : Definitions) :
    get? label (d ++ e) = (get? label d <|> get? label e) := by
  induction d with
  | nil => simp [get?]
  | cons x d ih => by_cases h : x.1 = label <;> simp [get?, h, ih]

/-- A label that has a target keeps it, whatever is defined later. -/
theorem find?_append {d : Definitions} {label : Text} {target : Target} (e : Definitions)
    (h : d.find? label = some target) : find? (d ++ e) label = some target := by
  unfold find? at h ⊢
  split at h
  · cases h
  · next hd =>
    rw [if_neg (by simp_all), get?_append, h]
    rfl

end Definitions

namespace Link

/-! ## Definitions -/

/-- The label up to its closing bracket, and what follows it. A label has no brackets in it. -/
def labelBody? : Text → Option (Text × Text)
  | [] => none
  | '\\' :: d :: t => (labelBody? t).map fun x => ('\\' :: d :: x.1, x.2)
  | c :: t =>
    if c = '[' then none
    else if c = ']' then some ([], t)
    else (labelBody? t).map fun x => (c :: x.1, x.2)

/-- The line with its line feed, and the lines below. -/
def firstLine : Text → Text × Text
  | [] => ([], [])
  | c :: t => if c = '\n' then ([c], t) else (c :: (firstLine t).1, (firstLine t).2)

/-- A definition as it was read. -/
structure Definition where
  /-- the label in its normal form -/
  label : Text
  /-- where it leads -/
  target : Target
  /-- the lines that the definition takes up -/
  lines : Nat

/-- Nothing but spaces stands before the end of the line. -/
def atLineEnd (t : Text) : Bool :=
  match t.dropWhile Text.isSpaceOrTab with
  | [] => true
  | c :: _ => c == '\n'

/-- The number of the line on which the last `left` characters of the text begin, from one. -/
def lineOf (t : Text) (left : Nat) : Nat := (t.take (t.length - left)).count '\n' + 1

/-- The title after a definition's destination, with nothing else on its last line; and how much of
the text is left. An empty title cannot be taken back. -/
inductive TitleReading
  | found (title : Text) (left : Nat)
  | absent
  | spoiled

/-- Reads the title after a definition's destination. -/
def readTitle (t : Text) : TitleReading :=
  match gapTitle? t with
  | none => .absent
  | some (title, r) =>
    if atLineEnd r then .found title r.length else if title = [] then .spoiled else .absent

/-- The definition at the beginning of a paragraph. The destination is on one line; the title may
be on further lines. -/
def definition? : Text → Option Definition
  | '[' :: t => do
    let (label, r) ← labelBody? t
    let name := normalLabel label
    match r with
    | ':' :: r =>
      let r := r.dropWhile isGap
      let (line, below) := firstLine r
      let (d, lineRest) ← destination? line
      let href ← href? d
      let after := if lineRest = [] then [] else lineRest ++ below
      if name = [] then none
      else
        match readTitle after with
        | .found title left => some ⟨name, ⟨href, title⟩, lineOf t left⟩
        | .absent => if atLineEnd after then some ⟨name, ⟨href, []⟩, lineOf t r.length⟩ else none
        | .spoiled => none
    | _ => none
  | _ => none

end Link

end Showcase
