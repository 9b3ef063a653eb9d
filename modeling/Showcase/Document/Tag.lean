import Showcase.Text.Blank
import Showcase.Text.Case
import Showcase.Document.Reference

/-!
# Tags

How the tags of a document are read. Authors write tags in every way, so reading is generous:

* a tag name goes on up to white space, a slash or `>`, and its letter case does not count;
* between attributes there may be white space and stray slashes. An attribute begins after one of
  these or after a quote, so `a="1"b` has two;
* a value stands in quotes of either kind or bare. A quote that nothing closes is no quote.

A text that begins like a tag may turn out to be `unfinished` (the end of the tag is not there) or
to be `plain` text. Main statements: `length_attributes_le` and its relatives, by which reading
never goes back.
-/

namespace Showcase.Document

/-- The name and the value of an attribute. -/
abbrev Attribute := Text × Text

namespace Tag

/-- The character ends the name of a tag. -/
def endsName (c : Char) : Bool :=
  c == '\t' || c == '\n' || c == '\r' || c == '\x0c' || c == ' '
    || c == '/' || c == '>' || c == '\x00'

/-- The text goes on after a gap: what is left after white space and slashes, except for a slash
that stands before `>`. The character before what is left comes with it; `before` is the one before
the gap. -/
def afterGap (before : Char) : Text → Char × Text
  | [] => (before, [])
  | c :: t =>
    if Text.isBlank c || (c == '/' && t.head? != some '>') then afterGap c t else (before, c :: t)

/-- The character is a quote of either kind. -/
def isQuote (c : Char) : Bool := c == '"' || c == '\''

/-- An attribute may begin after this character. -/
def partsAttributes (c : Char) : Bool := isQuote c || Text.isBlank c || c == '/'

/-- The character may stand in the name of an attribute. -/
def isAttributeChar (c : Char) : Bool := !(Text.isBlank c || c == '/' || c == '=' || c == '>')

/-- The character may stand in a bare value. -/
def isBareChar (c : Char) : Bool := !(Text.isBlank c || c == '>')

/-- The value after the name of an attribute, the last character read and what follows, if there is
a value. When a quote is not closed, the value ends before the white space that the quote follows;
without white space, a second equals sign begins a bare value. -/
def value? (t : Text) : Option (Text × Char × Text) :=
  let signs := (t.dropWhile Text.isBlank).takeWhile (· == '=')
  let afterSigns := (t.dropWhile Text.isBlank).dropWhile (· == '=')
  let bare := fun (s : Text) =>
    some (s.takeWhile isBareChar, (s.takeWhile isBareChar).getLast?.getD '=',
      s.dropWhile isBareChar)
  if signs = [] then none
  else
    match afterSigns.dropWhile Text.isBlank with
    | [] => bare []
    | c :: s =>
      if isQuote c then
        match Text.cut? [c] s with
        | some (value, r) => some (value, c, r)
        | none =>
          if (afterSigns.head?.map Text.isBlank).getD false then some ([], '=', afterSigns)
          else if 2 ≤ signs.length then (bare (c :: s)).map fun x => ('=' :: x.1, x.2)
          else none
      else bare (c :: s)

theorem length_afterGap_le (before : Char) (t : Text) :
    (afterGap before t).2.length ≤ t.length := by
  induction t generalizing before with
  | nil => simp [afterGap]
  | cons c t ih =>
    unfold afterGap
    split
    · exact Nat.le_succ_of_le (ih c)
    · exact Nat.le_refl _

theorem length_dropWhile_le (p : Char → Bool) (t : Text) : (t.dropWhile p).length ≤ t.length :=
  (List.dropWhile_sublist p).length_le

theorem length_cut?_le {p t a b : Text} (h : Text.cut? p t = some (a, b)) :
    b.length ≤ t.length := by
  rw [Text.cut?_eq_some h]
  simp only [List.length_append]
  omega

theorem length_value?_le {t v r : Text} {c : Char} (h : value? t = some (v, c, r)) :
    r.length ≤ t.length := by
  -- the text gets shorter at each stage of reading; which of them is the last depends on the quotes
  have h₁ := length_dropWhile_le Text.isBlank t
  have h₂ := length_dropWhile_le (· == '=') (t.dropWhile Text.isBlank)
  have h₃ := length_dropWhile_le Text.isBlank
    ((t.dropWhile Text.isBlank).dropWhile (· == '='))
  simp only [value?] at h
  split at h
  · cases h
  · split at h
    · simp only [Option.some.injEq, Prod.mk.injEq] at h
      obtain ⟨-, -, rfl⟩ := h
      simp
    · next d s hs =>
      rw [hs] at h₃
      have h₄ := length_dropWhile_le isBareChar (d :: s)
      simp only [List.length_cons] at h₃ h₄
      split at h
      · split at h
        · next a b hab =>
          have := length_cut?_le hab
          simp only [Option.some.injEq, Prod.mk.injEq] at h
          obtain ⟨-, -, rfl⟩ := h
          omega
        · split at h
          · simp only [Option.some.injEq, Prod.mk.injEq] at h
            obtain ⟨-, -, rfl⟩ := h
            omega
          · split at h
            · simp only [Option.map_some, Option.some.injEq, Prod.mk.injEq] at h
              obtain ⟨-, -, rfl⟩ := h
              omega
            · cases h
      · simp only [Option.some.injEq, Prod.mk.injEq] at h
        obtain ⟨-, -, rfl⟩ := h
        omega

/-! ## Attributes -/

/-- The attribute at the beginning of a text, the last character read and what follows. -/
def attribute? (before : Char) : Text → Option (Attribute × Char × Text)
  | [] => none
  | c :: t =>
    if partsAttributes before && (isAttributeChar c || c == '=') then
      let name := c :: t.takeWhile isAttributeChar
      let after := t.dropWhile isAttributeChar
      match value? after with
      | some (value, last, r) => some ((Text.lower name, Reference.expandAll value), last, r)
      | none => some ((Text.lower name, []), name.getLast?.getD c, after)
    else none

theorem length_attribute?_lt {before last : Char} {t r : Text} {a : Attribute}
    (h : attribute? before t = some (a, last, r)) : r.length < t.length := by
  cases t with
  | nil => cases h
  | cons c t =>
    -- the first character of a key counts in any case, so something is read
    have := length_dropWhile_le isAttributeChar t
    simp only [attribute?] at h
    split at h
    · split at h
      · next hv =>
        have := length_value?_le hv
        simp only [Option.some.injEq, Prod.mk.injEq] at h
        obtain ⟨-, -, rfl⟩ := h
        simp only [List.length_cons]
        omega
      · simp only [Option.some.injEq, Prod.mk.injEq] at h
        obtain ⟨-, -, rfl⟩ := h
        simp only [List.length_cons]
        omega
    · cases h

/-- The attributes at the beginning of a text, with the gaps after them, and what follows. -/
def attributes (before : Char) (t : Text) : List Attribute × Text :=
  match _h : attribute? before t with
  | some (a, last, r) =>
    let gap := afterGap last r
    let rest := attributes gap.1 gap.2
    (a :: rest.1, rest.2)
  | none => ([], t)
termination_by t.length
decreasing_by
  have := length_attribute?_lt _h
  have := length_afterGap_le last r
  omega

theorem length_attributes_le (before : Char) (t : Text) :
    (attributes before t).2.length ≤ t.length := by
  fun_induction attributes before t with
  | case1 before t a last r h gap rest ih =>
    have := length_attribute?_lt h
    exact Nat.le_trans ih (Nat.le_trans (length_afterGap_le last r) (Nat.le_of_lt this))
  | case2 => simp

/-! ## Whole tags -/

/-- What a text that begins like an opening tag turns out to be. -/
inductive Opening
  /-- A tag; `closed` tells that it has a slash before its `>`. -/
  | tag (name : Text) (attributes : List Attribute) (closed : Bool) (rest : Text)
  /-- No tag but text. -/
  | plain (text rest : Text)
  /-- A tag whose end is not there. -/
  | unfinished

/-- The opening tag with the first letter `c`; `t` is what follows the letter. -/
def opening (c : Char) (t : Text) : Opening :=
  let name := c :: t.takeWhile (!endsName ·)
  let gap := afterGap (name.getLast?.getD c) (t.dropWhile (!endsName ·))
  let found := attributes gap.1 gap.2
  match found.2 with
  | '>' :: r => .tag (Text.lower name) found.1 false r
  | '/' :: '>' :: r => .tag (Text.lower name) found.1 true r
  | [] => .unfinished
  | d :: r =>
    if Text.isLetter d || d == '=' || d == '/' then .unfinished
    else .plain ('<' :: (c :: t).take (t.length - r.length)) (d :: r)

/-- The rest of an opening tag that is one. -/
def Opening.rest : Opening → Text
  | .tag _ _ _ r => r
  | .plain _ r => r
  | .unfinished => []

theorem length_opening_le (c : Char) (t : Text) : (opening c t).rest.length ≤ t.length := by
  have h₁ := length_dropWhile_le (!endsName ·) t
  have h₂ := fun b => length_afterGap_le b (t.dropWhile (!endsName ·))
  have h₃ := fun b u => length_attributes_le b u
  simp only [opening]
  generalize hg : afterGap _ _ = gap
  have h₄ := h₂ ((c :: t.takeWhile (!endsName ·)).getLast?.getD c)
  rw [hg] at h₄
  have h₅ := h₃ gap.1 gap.2
  split
  · next r hr => rw [hr] at h₅; simp only [Opening.rest, List.length_cons] at *; omega
  · next r hr => rw [hr] at h₅; simp only [Opening.rest, List.length_cons] at *; omega
  · simp [Opening.rest]
  · next d r _ _ hr =>
    rw [hr] at h₅
    split
    · simp [Opening.rest]
    · simp only [Opening.rest, List.length_cons] at *; omega

/-- The character may stand in the name of a closing tag that has nothing but a name. -/
def isClosingChar (c : Char) : Bool :=
  Text.isLetter c || Text.isDigit c || c == '-' || c == '.' || c == ':' || c == '_'

/-- The name in a closing tag, given what stands between `</` and `>`, if there is one. A name may
have white space around it, or else it stands at the beginning and anything may follow it. -/
def closingName? (inside : Text) : Option Text :=
  let trimmed := inside.dropWhile Text.isBlank
  let name := trimmed.takeWhile isClosingChar
  if (name.head?.map Text.isLetter).getD false && Text.isBlankText (trimmed.drop name.length) then
    some (Text.lower name)
  else if (inside.head?.map Text.isLetter).getD false then
    some (Text.lower (inside.takeWhile (!endsName ·)))
  else none

end Tag

end Showcase.Document
