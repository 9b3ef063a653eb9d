import Showcase.Text.HexReference
import Showcase.Text.Escape
import Showcase.Document.Tag

/-!
# Tokens

A document is read from left to right as running text, tags and *notes*: comments, marked sections,
instructions and declarations, which are no part of what the document shows. Running text may refer
by number to half of a surrogate pair, which is no character and a token of its own.

Three things make this more than cutting at `<` and `>`:

* `script` and `style` have no markup in them. All up to their closing tag is text; when there is
  none, what is left of the document is dropped;
* a piece of markup may be *unfinished* when the document ends. The reader first stops there. It
  then goes on from the same place in the knowledge that no more will come, and takes the beginning
  of such a piece for text;
* the second time it stops, what is left is text.

A marked section without a name, or with an unknown one, makes the whole document unreadable.
Main statement: `length_rest_step_le`, by which reading goes on and ends.
-/

namespace Showcase.Document

/-- The kinds of notes. -/
inductive NoteKind
  | comment
  | section
  | instruction
  | declaration
  | doctype
  deriving DecidableEq

/-- A piece of a document. -/
inductive Token
  | text (t : Text)
  /-- Half of a surrogate pair, by its number. -/
  | half (n : Nat)
  /-- An opening tag; `closed` tells that it closes itself. -/
  | opening (name : Text) (attributes : List Attribute) (closed : Bool)
  | closing (name : Text)
  | note (kind : NoteKind) (data : Text)
  deriving DecidableEq

/-- Why a document cannot be read. -/
inductive Rejection
  /-- A marked section has no name; `beginning` is how it begins. -/
  | namelessSection (beginning : Text)
  /-- A marked section has an unknown name. -/
  | unknownSection (name : Text)

/-- The words for a rejection. -/
def Rejection.message (r : Rejection) : Text :=
  ("The markup you provided was rejected by the parser. Trying a different parser or a " ++
    "different encoding may help.\n\nOriginal error(s) from parser:\n  AssertionError: ").toList ++
  match r with
  | .namelessSection beginning => "expected name token at ".toList ++ Text.quoted beginning
  | .unknownSection name =>
    "unknown status keyword ".toList ++ Text.quoted name ++ " in marked section".toList

/-- What reading does at a place. -/
inductive Step
  /-- It reads tokens and goes on with the rest. -/
  | read (tokens : List Token) (rest : Text)
  /-- It reads tokens and stops before the rest. -/
  | stop (tokens : List Token) (rest : Text)
  /-- It comes to an unfinished piece of markup. -/
  | unfinished
  | rejected (r : Rejection)

/-- What is left to read after a step that goes on. -/
def Step.rest : Step → Text
  | .read _ r => r
  | _ => []

/-- The token of a text; an empty text has none. -/
def textToken (t : Text) : List Token := if t = [] then [] else [.text t]

/-- What stands before the first place where `close` reads something, and what follows it. -/
def until? (close : Text → Option Text) : Text → Option (Text × Text)
  | [] => none
  | c :: t =>
    match close (c :: t) with
    | some r => some ([], r)
    | none => (until? close t).map fun x => (c :: x.1, x.2)

/-! ## Notes -/

/-- The rest after white space and a given character. -/
def afterBlanks? (c : Char) (t : Text) : Option Text :=
  match t.dropWhile Text.isBlank with
  | d :: r => if d = c then some r else none
  | [] => none

/-- The rest after the end of a comment. -/
def afterComment? : Text → Option Text
  | '-' :: '-' :: t => afterBlanks? '>' t
  | _ => none

/-- The rest after the end of a section with two brackets. -/
def afterSection? : Text → Option Text
  | ']' :: t => (afterBlanks? ']' t).bind (afterBlanks? '>')
  | _ => none

/-- The rest after the end of a conditional section. -/
def afterConditional? : Text → Option Text
  | ']' :: t => afterBlanks? '>' t
  | _ => none

/-- The character may stand in the name of a marked section. -/
def isSectionChar (c : Char) : Bool :=
  Text.isLetter c || Text.isDigit c || c == '-' || c == '_' || c == '.'

/-- How the end of a section with the given name is found. -/
def sectionEnd? (name : Text) : Option (Text → Option Text) :=
  let word := String.ofList name
  if word ∈ ["temp", "cdata", "ignore", "include", "rcdata"] then some afterSection?
  else if word ∈ ["if", "else", "endif"] then some afterConditional?
  else none

/-- The note of a marked section. -/
def sectionNote (data : Text) : Token :=
  match Text.after? "cdata[".toList ((data.take 6).map Text.lowerAscii) with
  | some _ => .note .section (data.drop 6)
  | none => .note .declaration data

/-- A step over a note, if its end is there. -/
def noteStep (note : Text → Token) : Option (Text × Text) → Step
  | some (data, r) => .read [note data] r
  | none => .unfinished

/-- A step over a marked section; `t` is what follows its opening bracket. -/
def sectionStep (t : Text) : Step :=
  match t with
  | [] => .unfinished
  | c :: _ =>
    if Text.isLetter c then
      let name := t.takeWhile isSectionChar
      let blanks := (t.drop name.length).takeWhile Text.isBlank
      if (t.drop (name.length + blanks.length)).isEmpty then .unfinished
      else
        match sectionEnd? (Text.lower name) with
        | some close => noteStep sectionNote (until? close t)
        | none => .rejected (.unknownSection (name ++ blanks))
    else .rejected (.namelessSection (("<![".toList ++ t).take 20))

/-- A step over a declaration or a comment; `t` is what follows `<!`. -/
def declarationStep (t : Text) : Step :=
  match t with
  | '-' :: '-' :: t => noteStep (.note .comment) (until? afterComment? t)
  | '[' :: t => sectionStep t
  | _ =>
    if (t.take 7).map Text.lowerAscii = "doctype".toList then
      noteStep (fun data => .note .doctype (data.drop 1)) (Text.cut? ['>'] (t.drop 7))
    else noteStep (.note .comment) (Text.cut? ['>'] t)

/-! ## Tags -/

/-- The closing tag of an element without markup: its name as written and the rest. -/
def verbatimEnd? (name : Text) : Text → Option (Text × Text)
  | '<' :: '/' :: t =>
    let u := t.dropWhile Text.isBlank
    match Text.afterFold? name u with
    | some r => (afterBlanks? '>' r).map fun s => (u.take name.length, s)
    | none => none
  | _ => none

/-- The rest after a closing tag whose name is written in ASCII letters. -/
def afterVerbatim? (name t : Text) : Option Text :=
  match verbatimEnd? name t with
  | some (written, r) => if written.map Text.lowerAscii = name then some r else none
  | none => none

/-- The longest beginning that ends with a closing tag, whatever letters its name is written in. -/
def throughLastEnd (name : Text) : Text → Text
  | [] => []
  | c :: t =>
    match throughLastEnd name t, verbatimEnd? name (c :: t) with
    | [], some (_, r) => (c :: t).take (t.length + 1 - r.length)
    | [], none => []
    | u, _ => c :: u

/-- A step over the content of an element without markup, and its closing tag. -/
def verbatimStep (opening : Token) (name t : Text) : Step :=
  match until? (afterVerbatim? name) t with
  | some (content, r) => .read (opening :: (textToken content ++ [.closing name])) r
  | none => .read (opening :: textToken (throughLastEnd name t)) []

/-- An element of this name has no markup in it. -/
def isVerbatim (name : Text) : Bool := name == "script".toList || name == "style".toList

/-- A step over an opening tag with the first letter `c`. -/
def openingStep (c : Char) (t : Text) : Step :=
  match Tag.opening c t with
  | .tag name attributes closed r =>
    let token := .opening name attributes closed
    if !closed && isVerbatim name then verbatimStep token name r else .read [token] r
  | .plain text r => .read [.text text] r
  | .unfinished => .unfinished

/-- A step over a closing tag; `t` is what follows its slash. -/
def closingStep (t : Text) : Step :=
  match Text.cut? ['>'] t with
  | none => .unfinished
  | some (inside, r) =>
    match Tag.closingName? inside with
    | some name => .read [.closing name] r
    | none => if inside = [] then .read [] r else .read [.note .comment inside] r

/-- A step over markup; `t` is what follows `<`. -/
def markupStep (t : Text) : Step :=
  match t with
  | [] => .stop [] ['<']
  | '/' :: t => closingStep t
  | '!' :: t => declarationStep t
  | '?' :: t => noteStep (.note .instruction) (Text.cut? ['>'] t)
  | c :: t => if Text.isLetter c then openingStep c t else .read [.text ['<']] (c :: t)

/-- An unfinished piece of markup taken for text: up to its first `>`, else up to the next `<`, else
only its `<`. -/
def unfinishedText (t : Text) : Text × Text :=
  match Text.cut? ['>'] t with
  | some (a, r) => ('<' :: (a ++ ['>']), r)
  | none =>
    if '<' ∈ t then ('<' :: t.takeWhile (· != '<'), t.dropWhile (· != '<')) else (['<'], t)

/-! ## References -/

/-- The character may stand in the name of a reference. -/
def isReferenceChar (c : Char) : Bool :=
  Text.isLetter c || Text.isDigit c || c == '-' || c == '.'

/-- The token that a number refers to. -/
def numberToken (n : Nat) : Token :=
  if HexReference.isHalf n then .half n else .text [Reference.ofNumber n]

/-- A step over a reference by number; `t` is what follows `&#`. The character after the digits has
to be there. -/
def numberStep (t : Text) : Step :=
  let found : Option (Nat × Text) :=
    match t with
    | 'x' :: r | 'X' :: r =>
      let digits := r.takeWhile fun c => (Text.hexValue? c).isSome
      if digits = [] then none else some (Text.hexNumber digits, r.drop digits.length)
    | _ =>
      let digits := t.takeWhile Text.isDigit
      if digits = [] then none else some (Text.decimalNumber digits, t.drop digits.length)
  match found with
  | some (n, c :: r) =>
    if (Text.hexValue? c).isNone then
      .read [numberToken n] (Reference.dropSemicolon (c :: r))
    else if ';' ∈ t then .stop [.text ['&', '#']] t else .stop [] ('&' :: '#' :: t)
  | _ => if ';' ∈ t then .stop [.text ['&', '#']] t else .stop [] ('&' :: '#' :: t)

/-- A step over a reference by name that begins with a letter; `t` is what follows the ampersand.
Where the document ends with the name, the name ends at its last hyphen or point. -/
def nameStep (last : Bool) (t : Text) : Step :=
  let name := t.takeWhile isReferenceChar
  let rest := t.drop name.length
  if rest = [] then
    let shorter := (name.reverse.dropWhile fun c => c != '-' && c != '.').drop 1
    if shorter = [] then .stop [] (if last && t.length == 1 then t else '&' :: t)
    else .read [.text (Reference.ofName shorter.reverse)] (t.drop shorter.length)
  else .read [.text (Reference.ofName name)] (Reference.dropSemicolon rest)

/-- A step over an ampersand; `t` is what follows it. -/
def referenceStep (last : Bool) (t : Text) : Step :=
  match t with
  | [] => .stop [] ['&']
  | '#' :: t => numberStep t
  | c :: t => if Text.isLetter c then nameStep last (c :: t) else .read [.text ['&']] (c :: t)

/-! ## Reading -/

/-- The character is neither the beginning of markup nor that of a reference. -/
def isPlain (c : Char) : Bool := c != '<' && c != '&'

/-- The step at a place with the character `c`, before the text `t`. When `last` holds, no more of
the document will come. -/
def step (last : Bool) (c : Char) (t : Text) : Step :=
  if c = '<' then
    match markupStep t with
    | .unfinished =>
      if last then .read [.text (unfinishedText t).1] (unfinishedText t).2 else .stop [] ('<' :: t)
    | s => s
  else if c = '&' then referenceStep last t
  else .read [.text (c :: t.takeWhile isPlain)] (t.dropWhile isPlain)

/-- What follows a place that is found is not longer than the text. -/
theorem length_until?_le {close : Text → Option Text}
    (hclose : ∀ t r, close t = some r → r.length ≤ t.length) {t a r : Text}
    (h : until? close t = some (a, r)) : r.length ≤ t.length := by
  induction t generalizing a with
  | nil => cases h
  | cons c t ih =>
    simp only [until?] at h
    split at h
    · next s hs =>
      simp only [Option.some.injEq, Prod.mk.injEq] at h
      obtain ⟨-, rfl⟩ := h
      exact hclose _ _ hs
    · simp only [Option.map_eq_some_iff, Prod.mk.injEq, Prod.exists] at h
      obtain ⟨a', _, h, -, rfl⟩ := h
      exact Nat.le_succ_of_le (ih h)

theorem length_afterBlanks?_le {c : Char} {t r : Text} (h : afterBlanks? c t = some r) :
    r.length ≤ t.length := by
  have hd := Tag.length_dropWhile_le Text.isBlank t
  rw [afterBlanks?.eq_def] at h
  split at h
  · next d s hs =>
    split at h
    · simp only [Option.some.injEq] at h
      subst h
      rw [hs] at hd
      simp only [List.length_cons] at hd
      omega
    · cases h
  · cases h

theorem length_afterComment?_le {t r : Text} (h : afterComment? t = some r) :
    r.length ≤ t.length := by
  rw [afterComment?.eq_def] at h
  split at h
  · exact Nat.le_trans (length_afterBlanks?_le h) (by simp only [List.length_cons]; omega)
  · cases h

theorem length_afterConditional?_le {t r : Text} (h : afterConditional? t = some r) :
    r.length ≤ t.length := by
  rw [afterConditional?.eq_def] at h
  split at h
  · exact Nat.le_succ_of_le (length_afterBlanks?_le h)
  · cases h

theorem length_afterSection?_le {t r : Text} (h : afterSection? t = some r) :
    r.length ≤ t.length := by
  rw [afterSection?.eq_def] at h
  split at h
  · obtain ⟨s, hs, h⟩ := Option.bind_eq_some_iff.1 h
    exact Nat.le_succ_of_le (Nat.le_trans (length_afterBlanks?_le h) (length_afterBlanks?_le hs))
  · cases h

/-- A closing tag is taken away and nothing is added. -/
theorem length_afterVerbatim?_le {name t r : Text} (h : afterVerbatim? name t = some r) :
    r.length ≤ t.length := by
  rw [afterVerbatim?.eq_def] at h
  split at h
  · next w s hs =>
    split at h
    · simp only [Option.some.injEq] at h
      subst h
      rw [verbatimEnd?.eq_def] at hs
      split at hs
      · next u =>
        simp only at hs
        split at hs
        · next v hv =>
          simp only [Option.map_eq_some_iff, Prod.mk.injEq] at hs
          obtain ⟨_, hs, -, rfl⟩ := hs
          -- three stages, each of which leaves no more than the one before
          have h₁ := length_afterBlanks?_le hs
          have h₂ := Text.length_afterFold?_le hv
          have h₃ := Tag.length_dropWhile_le Text.isBlank u
          simp only [List.length_cons]
          omega
        · cases hs
      · cases hs
    · cases h
  · cases h

/-- A note takes what is before its end. -/
theorem length_rest_noteStep_le {note : Text → Token} {x : Option (Text × Text)} {t : Text}
    (h : ∀ a r, x = some (a, r) → r.length ≤ t.length) :
    (noteStep note x).rest.length ≤ t.length := by
  cases x with
  | none => simp [noteStep, Step.rest]
  | some x => exact h x.1 x.2 rfl

theorem length_dropSemicolon_le (t : Text) : (Reference.dropSemicolon t).length ≤ t.length := by
  rw [Reference.dropSemicolon.eq_def]
  split <;> simp

/-- Every section that is read or refused is passed. -/
theorem length_rest_sectionStep_le (t : Text) : (sectionStep t).rest.length ≤ t.length := by
  rw [sectionStep.eq_def]
  split
  · simp [Step.rest]
  · simp only
    split
    · split
      · simp [Step.rest]
      · split
        · next close hclose =>
          refine length_rest_noteStep_le fun a r h => length_until?_le (fun u v huv => ?_) h
          -- which end is looked for depends on the name of the section
          rw [sectionEnd?.eq_def] at hclose
          simp only at hclose
          split at hclose
          · simp only [Option.some.injEq] at hclose
            subst hclose
            exact length_afterSection?_le huv
          · split at hclose
            · simp only [Option.some.injEq] at hclose
              subst hclose
              exact length_afterConditional?_le huv
            · cases hclose
        · simp [Step.rest]
    · simp [Step.rest]

/-- And so are comments and declarations. -/
theorem length_rest_declarationStep_le (t : Text) :
    (declarationStep t).rest.length ≤ t.length := by
  rw [declarationStep.eq_def]
  split
  · next t =>
    refine Nat.le_trans (length_rest_noteStep_le (t := t) fun a r h => ?_)
      (by simp only [List.length_cons]; omega)
    exact length_until?_le (fun _ _ => length_afterComment?_le) h
  · exact Nat.le_succ_of_le (length_rest_sectionStep_le _)
  · split
    · refine length_rest_noteStep_le fun a r h => ?_
      exact Nat.le_trans (Tag.length_cut?_le h) (by simp)
    · exact length_rest_noteStep_le fun a r h => Tag.length_cut?_le h

/-- An opening tag may take the content of its element with it. -/
theorem length_rest_openingStep_le (c : Char) (t : Text) :
    (openingStep c t).rest.length ≤ t.length := by
  have h := Tag.length_opening_le c t
  rw [openingStep.eq_def]
  split
  · next name attributes closed r hr =>
    rw [hr] at h
    simp only [Tag.Opening.rest] at h
    simp only
    split
    · rw [verbatimStep.eq_def]
      split
      · next a s hs =>
        exact Nat.le_trans (length_until?_le (fun _ _ => length_afterVerbatim?_le) hs) h
      · simp [Step.rest]
    · exact h
  · next hr => rw [hr] at h; exact h
  · simp [Step.rest]

theorem length_rest_closingStep_le (t : Text) : (closingStep t).rest.length ≤ t.length := by
  rw [closingStep.eq_def]
  split
  · simp [Step.rest]
  · next h =>
    have := Tag.length_cut?_le h
    split
    · exact this
    · split <;> exact this

/-- So every piece of markup takes something away. -/
theorem length_rest_markupStep_le (t : Text) : (markupStep t).rest.length ≤ t.length := by
  rw [markupStep.eq_def]
  split
  · simp [Step.rest]
  · exact Nat.le_succ_of_le (length_rest_closingStep_le _)
  · exact Nat.le_succ_of_le (length_rest_declarationStep_le _)
  · exact Nat.le_succ_of_le (length_rest_noteStep_le fun a r h => Tag.length_cut?_le h)
  · split
    · exact Nat.le_succ_of_le (length_rest_openingStep_le _ _)
    · exact Nat.le_refl _

/-- A reference by number takes its digits. -/
theorem length_rest_numberStep_le (t : Text) : (numberStep t).rest.length ≤ t.length := by
  rw [numberStep.eq_def]
  simp only
  split
  · next n c r h =>
    split
    -- what is left is told by the kind of the digits, and the semicolon may go besides
    · have := length_dropSemicolon_le (c :: r)
      refine Nat.le_trans this ?_
      split at h
      · split at h
        · cases h
        · simp only [Option.some.injEq, Prod.mk.injEq] at h
          rw [← h.2]
          simp only [List.length_drop, List.length_cons]
          omega
      · split at h
        · cases h
        · simp only [Option.some.injEq, Prod.mk.injEq] at h
          rw [← h.2]
          simp only [List.length_drop, List.length_cons]
          omega
      · split at h
        · cases h
        · simp only [Option.some.injEq, Prod.mk.injEq] at h
          rw [← h.2]
          simp
    · split <;> simp [Step.rest]
  · split <;> simp [Step.rest]

/-- A reference by name takes its name, or as much of it as is known. -/
theorem length_rest_nameStep_le (last : Bool) (t : Text) :
    (nameStep last t).rest.length ≤ t.length := by
  rw [nameStep.eq_def]
  simp only
  split
  · split
    · simp [Step.rest]
    · simp [Step.rest]
  · exact Nat.le_trans (length_dropSemicolon_le _) (by simp)

theorem length_rest_referenceStep_le (last : Bool) (t : Text) :
    (referenceStep last t).rest.length ≤ t.length := by
  rw [referenceStep.eq_def]
  split
  · simp [Step.rest]
  · exact Nat.le_succ_of_le (length_rest_numberStep_le _)
  · split
    · exact length_rest_nameStep_le _ _
    · exact Nat.le_refl _

/-- Of markup that is unfinished at the end, some is taken for text. -/
theorem length_unfinishedText_le (t : Text) : (unfinishedText t).2.length ≤ t.length := by
  rw [unfinishedText.eq_def]
  split
  · next h => exact Tag.length_cut?_le h
  · split
    · exact Tag.length_dropWhile_le _ _
    · exact Nat.le_refl _

/-- A step that goes on leaves no more than what followed its character. -/
theorem length_rest_step_le (last : Bool) (c : Char) (t : Text) :
    (step last c t).rest.length ≤ t.length := by
  have h := length_rest_markupStep_le t
  rw [step.eq_def]
  split
  · split
    · split
      · exact length_unfinishedText_le t
      · simp [Step.rest]
    · exact h
  · split
    · exact length_rest_referenceStep_le last t
    · exact Tag.length_dropWhile_le isPlain t

/-- The tokens of what is left of a document. -/
def tokensFrom (last : Bool) (t : Text) : Except Rejection (List Token) :=
  match t with
  | [] => .ok []
  | c :: t =>
    match _h : step last c t with
    | .read tokens r => (tokensFrom last r).map (tokens ++ ·)
    | .stop tokens r =>
      if _l : last = true then .ok (tokens ++ textToken r)
      else (tokensFrom true r).map (tokens ++ ·)
    | .unfinished => .ok []
    | .rejected r => .error r
termination_by (if last then 0 else 1, t.length)
decreasing_by
  · have := length_rest_step_le last c t
    rw [_h] at this
    simp only [Step.rest] at this
    exact Prod.Lex.right _ (Nat.lt_succ_of_le this)
  · exact Prod.Lex.left _ _ (by simp [_l])

/-- The tokens of a document. -/
def tokens (t : Text) : Except Rejection (List Token) := tokensFrom false t

end Showcase.Document
