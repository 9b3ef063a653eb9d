import Showcase.Text.Escape
import Showcase.Text.Torn
import Showcase.Outline.Heading

/-!
# Outlines

The outline of a page is a forest of entries. A heading is an entry below the nearest heading before
it that is of a higher rank, that is of a smaller level; without one it is a root.

The headings are taken in their order, and the entries that may still get entries below them are
kept on a stack (`Spine`). A heading closes the open entries that are not of a higher rank than it
is, and is open from then on.

Seen from its end, the same forest grows by trees at its front: a heading in front of a forest takes
the leading trees whose roots are deeper as its children (`Entry.attach`). Proofs about outlines go
by this second form.

Main statements: `ofHeadings_cons` (both forms give the same forest) and `preorder_ofHeadings` (the
entries in their order are the headings).
-/

namespace Showcase.Outline

/-- An entry with the entries below it. -/
inductive Entry
  | mk (heading : Heading) (children : List Entry)

namespace Entry

/-- The heading of an entry. -/
def heading : Entry → Heading
  | mk h _ => h

/-- The entries below an entry. -/
def children : Entry → List Entry
  | mk _ es => es

end Entry

/-! ## Building an outline -/

/-- The right edge of an outline that is being built. -/
structure Spine where
  /-- the open entries, the innermost first, each with the closed entries that stand before it at
  its place, the last first -/
  stack : List (Heading × List Entry)
  /-- the closed entries below the innermost open one, the last first -/
  closed : List Entry

namespace Spine

/-- Nothing is open and nothing is closed. -/
def empty : Spine := ⟨[], []⟩

/-- Closes open entries, from the innermost on, as long as they are of the given level or deeper. -/
def unwind (level : Nat) (closed : List Entry) : List (Heading × List Entry) → Spine
  | [] => ⟨[], closed⟩
  | (h, before) :: stack =>
    if level ≤ h.level then unwind level (.mk h closed.reverse :: before) stack
    else ⟨(h, before) :: stack, closed⟩

/-- The outline with one more heading, which is open. -/
def push (s : Spine) (h : Heading) : Spine :=
  let s := unwind h.level s.closed s.stack
  ⟨(h, s.closed) :: s.stack, []⟩

/-- Closes all open entries. -/
def unwindAll (closed : List Entry) : List (Heading × List Entry) → List Entry
  | [] => closed.reverse
  | (h, before) :: stack => unwindAll (.mk h closed.reverse :: before) stack

end Spine

namespace Entry

/-- The outline of headings. -/
def ofHeadings (hs : List Heading) : List Entry :=
  let s := hs.foldl Spine.push Spine.empty
  Spine.unwindAll s.closed s.stack

/-- The forest with a heading in front of it. -/
def attach (h : Heading) (forest : List Entry) : List Entry :=
  mk h (forest.takeWhile fun e => h.level < e.heading.level) ::
    forest.dropWhile fun e => h.level < e.heading.level

end Entry

/-! ### The forest of a spine -/

namespace Spine

open Outline.Entry (attach)

/-- The forest that a spine and the trees after it make: the open entries, from the innermost on,
take the leading trees that are deeper than they are. -/
def forest (closed : List Entry) : List (Heading × List Entry) → List Entry → List Entry
  | [], trees => closed.reverse ++ trees
  | (h, before) :: stack, trees =>
    let below := trees.takeWhile fun e => h.level < e.heading.level
    forest before stack (.mk h (closed.reverse ++ below) ::
      trees.dropWhile fun e => h.level < e.heading.level)

/-- **The invariant of the stack**: each open entry is deeper than those around it. -/
def Descends (stack : List (Heading × List Entry)) : Prop :=
  stack.Pairwise fun o around => around.1.level < o.1.level

variable {stack : List (Heading × List Entry)} {h : Heading}

/-- A closed entry is as good as a tree that follows, if the innermost open entry takes it. -/
theorem forest_cons {closed trees below : List Entry}
    (hlt : ∀ o ∈ stack.head?, o.1.level < h.level) :
    forest (.mk h below :: closed) stack trees = forest closed stack (.mk h below :: trees) := by
  cases stack with
  | nil => simp [forest]
  | cons o stack => simp [forest, Entry.heading, hlt o rfl]

/-- Without trees that follow, everything is closed. -/
theorem forest_nil (hstack : Descends stack) (closed : List Entry) :
    forest closed stack [] = unwindAll closed stack := by
  induction stack generalizing closed with
  | nil => exact List.append_nil _
  | cons o stack ih =>
    obtain ⟨hlt, hstack⟩ := List.pairwise_cons.1 hstack
    rw [unwindAll, ← ih hstack, forest_cons fun o' ho' => hlt o' (List.mem_of_mem_head? ho')]
    simp [forest]

/-- An open entry that is not of a higher rank than the next tree takes nothing, so it may be closed
first. -/
theorem forest_unwind (hstack : Descends stack) (closed below trees : List Entry) :
    forest closed stack (.mk h below :: trees) =
      forest (unwind h.level closed stack).closed (unwind h.level closed stack).stack
        (.mk h below :: trees) := by
  induction stack generalizing closed with
  | nil => rfl
  | cons o stack ih =>
    obtain ⟨hlt, hstack⟩ := List.pairwise_cons.1 hstack
    rw [unwind]
    split
    · next hle =>
      rw [← ih hstack, forest_cons fun o' ho' => hlt o' (List.mem_of_mem_head? ho')]
      simp [forest, Entry.heading, Nat.not_lt.2 hle]
    · rfl

/-- What is left open has a smaller level than what comes. -/
theorem descends_push (hstack : Descends stack) (closed : List Entry) (h : Heading) :
    Descends (push ⟨stack, closed⟩ h).stack := by
  rw [push]
  dsimp only
  induction stack generalizing closed with
  | nil => exact List.pairwise_singleton _ _
  | cons o stack ih =>
    have hrest := (List.pairwise_cons.1 hstack).2
    rw [unwind]
    split
    · exact ih hrest _
    · next hlt =>
      -- the levels around the innermost open entry are smaller still
      refine List.pairwise_cons.2 ⟨fun o' ho' => ?_, hstack⟩
      obtain rfl | ho' := List.mem_cons.1 ho'
      · exact Nat.lt_of_not_le hlt
      · exact Nat.lt_trans ((List.pairwise_cons.1 hstack).1 o' ho') (Nat.lt_of_not_le hlt)

/-- **A heading is pushed** as it is set in front of the trees that follow. -/
theorem forest_push (hstack : Descends stack) (closed : List Entry) (h : Heading)
    (trees : List Entry) :
    forest (push ⟨stack, closed⟩ h).closed (push ⟨stack, closed⟩ h).stack trees =
      forest closed stack (attach h trees) :=
  (forest_unwind hstack closed _ _).symm

/-- **The stack and the fold give the same forest.** -/
theorem forest_foldl (s : Spine) (hs : List Heading) (hstack : Descends s.stack) :
    unwindAll (hs.foldl push s).closed (hs.foldl push s).stack =
      forest s.closed s.stack (hs.foldr attach []) := by
  induction hs generalizing s with
  | nil => exact (forest_nil hstack s.closed).symm
  | cons h hs ih =>
    rw [List.foldl_cons, List.foldr_cons, ih _ (descends_push hstack s.closed h),
      forest_push hstack]

end Spine

namespace Entry

@[simp] theorem ofHeadings_nil : ofHeadings [] = [] := rfl

theorem ofHeadings_eq_foldr (hs : List Heading) : ofHeadings hs = hs.foldr attach [] :=
  Spine.forest_foldl Spine.empty hs List.Pairwise.nil

/-- **A heading in front of others** takes the leading trees of their forest that are deeper. -/
theorem ofHeadings_cons (h : Heading) (hs : List Heading) :
    ofHeadings (h :: hs) = attach h (ofHeadings hs) := by
  rw [ofHeadings_eq_foldr, ofHeadings_eq_foldr, List.foldr_cons]

/-! ## The headings of an outline -/

mutual

/-- The headings of an entry and the entries below it, in their order. -/
def preorder : Entry → List Heading
  | mk h es => h :: preorders es

/-- The headings of several entries, in their order. -/
def preorders : List Entry → List Heading
  | [] => []
  | e :: es => preorder e ++ preorders es

end

@[simp] theorem preorders_append (es fs : List Entry) :
    preorders (es ++ fs) = preorders es ++ preorders fs := by
  induction es with
  | nil => rfl
  | cons e es ih => simp [preorders, ih]

theorem preorders_attach (h : Heading) (forest : List Entry) :
    preorders (attach h forest) = h :: preorders forest := by
  simp only [attach, preorders, preorder, List.cons_append, ← preorders_append,
    List.takeWhile_append_dropWhile]

/-- No heading is lost, repeated or moved. -/
theorem preorder_ofHeadings (hs : List Heading) : preorders (ofHeadings hs) = hs := by
  induction hs with
  | nil => rfl
  | cons h hs ih => rw [ofHeadings_cons, preorders_attach, ih]

/-! ## Outlines as JSON -/

/-- A new line with the given depth of indentation. -/
def newLine (depth : Nat) : Text := '\n' :: List.replicate (2 * depth) ' '

/-- A member of an object. -/
def member (depth : Nat) (key : String) (value : Text) : Text :=
  newLine depth ++ Text.jsonString key.toList ++ ':' :: ' ' :: value

mutual

/-- An entry as JSON, two spaces to a level of indentation. -/
def json (depth : Nat) : Entry → Text
  | mk h es =>
    let list := if es.isEmpty then ['[', ']']
      else '[' :: (items (depth + 2) es ++ newLine (depth + 1) ++ [']'])
    '\x7b' :: (Text.joinWith [','] [
      member (depth + 1) "level" (Text.ofNat h.level),
      member (depth + 1) "id" (Text.jsonString h.id),
      member (depth + 1) "title" (Text.jsonString h.title),
      member (depth + 1) "title_html" (Text.jsonString h.titleHtml),
      member (depth + 1) "children" list] ++ newLine depth ++ ['\x7d'])

/-- The items of a list of entries as JSON, each on a new line. -/
def items (depth : Nat) : List Entry → Text
  | [] => []
  | [e] => newLine depth ++ json depth e
  | e :: f :: es => newLine depth ++ json depth e ++ ',' :: items depth (f :: es)

end

/-- An outline as JSON. -/
def document (es : List Entry) : Text :=
  if es.isEmpty then ['[', ']'] else '[' :: (items 1 es ++ newLine 0 ++ [']'])

end Entry

/-- The outline of a document. -/
def ofText (spelling : Slug.Transliteration) (isDemo : Text → Bool) (t : Text) :
    Except Document.Rejection (List Entry) :=
  (Document.ofText t).map fun ns => Entry.ofHeadings (documentHeadings spelling isDemo ns)

/-! ## Outlines with halves of surrogate pairs -/

/-- The outline of tokens as JSON, with characters standing in for halves of surrogate pairs. A half
has no spelling. -/
def tornJson (spelling : Slug.Transliteration) (isDemo : Text → Bool)
    (tokens : List Document.Token) : Torn := fun standIn =>
  let spell : Slug.Transliteration := fun c =>
    if c ∈ (Document.halves tokens).map standIn then [] else spelling c
  let nodes := Document.ofTokens (tokens.map (Document.Token.shown standIn))
  Entry.document (Entry.ofHeadings (documentHeadings spell isDemo nodes))

/-- The outline of a document as JSON. Titles keep the halves of surrogate pairs, those that the
document shows and those that it names, so these are code points. -/
def pointsOfText (spelling : Slug.Transliteration) (isDemo : Text → Bool) (t : Torn) :
    Except Document.Rejection HexReference.Points :=
  (Document.tokens (t Torn.replacement)).map fun _ => Torn.points fun standIn =>
    match Document.tokens (t standIn) with
    | .ok ts => tornJson spelling isDemo ts standIn
    | .error _ => []

/-- It is rejected where the document is. -/
theorem pointsOfText_eq_error_iff {spelling : Slug.Transliteration} {isDemo : Text → Bool}
    {t : Torn} {r : Document.Rejection} :
    pointsOfText spelling isDemo t = .error r ↔
      Document.ofText (t Torn.replacement) = .error r := by
  rw [pointsOfText, Document.ofText]
  cases Document.tokens (t Torn.replacement) <;> simp [Except.map]

/-- **A document that neither shows nor names halves** has the code points of its outline. -/
theorem pointsOfText_of_halves {spelling : Slug.Transliteration} {isDemo : Text → Bool} {t : Text}
    {ts : List Document.Token} (hts : Document.tokens t = .ok ts) (h : Document.halves ts = []) :
    pointsOfText spelling isDemo (fun _ => t) =
      (ofText spelling isDemo t).map fun es => HexReference.points (Entry.document es) := by
  have hjson : tornJson spelling isDemo ts = fun _ =>
      Entry.document
        (Entry.ofHeadings (documentHeadings spelling isDemo (Document.ofTokens ts))) := by
    funext standIn
    simp only [tornJson, h, List.map_nil, List.not_mem_nil, if_false,
      Document.map_shown_of_halves h]
  simp only [pointsOfText, ofText, Document.ofText, hts, Except.map, hjson, Torn.points_const]

end Showcase.Outline
