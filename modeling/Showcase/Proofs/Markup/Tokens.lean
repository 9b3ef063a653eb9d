import Mathlib.Combinatorics.Enumerative.DyckWord
import Showcase.Demo.Event
import Showcase.Markup.Content

/-!
# Pages as tokens

A block with something in it is written from its first token to its last one, and the tokens of what
is in it stand between the two; any other block is a single token (`Block.tokens`). Inline content
is a single token too, with its source as content. Containers of one name have tokens of one kind,
so a notice that is called as demos are could not be told from them by its tokens.

The tokens of demos are balanced if they are brackets that are so (`Block.IsBalanced`). Putting
balanced tokens one after the other keeps them balanced, and so does a demo around them.
-/

namespace Showcase.Block

/-! ## Tokens -/

/-- A token of a page. What stands behind the name of a notice is not kept. -/
structure Token extends Mark where
  /-- the name of the container that begins or ends here, if one does -/
  container : Option Text

namespace Token

/-- The first token of a block. -/
def opening : Token := ⟨⟨1, [], []⟩, none⟩

/-- The last token of a block. -/
def closing : Token := ⟨⟨-1, [], []⟩, none⟩

/-- A token by itself. -/
def single (info content : Text) : Token := ⟨⟨0, info, content⟩, none⟩

/-- The first token of a container. -/
def start (name info : Text) : Token := ⟨⟨1, info, []⟩, some name⟩

/-- The last token of a container. -/
def stop (name : Text) : Token := ⟨⟨-1, [], []⟩, some name⟩

/-- A demo begins or ends with the token. -/
def isDemo (t : Token) : Bool := t.container = some Marker.keyword

/-- A demo begins with the token. -/
def opensDemo (t : Token) : Bool := t.isDemo && t.nesting = 1

/-- A container of another name is no demo. -/
theorem not_isDemo_of_ne {name : Text} (h : name ≠ Marker.keyword) (m : Mark) :
    Token.isDemo ⟨m, some name⟩ = false :=
  decide_eq_false fun e => h (Option.some.inj e)

theorem not_opensDemo_of_not_isDemo {t : Token} (h : t.isDemo = false) : t.opensDemo = false := by
  rw [opensDemo, h, Bool.false_and]

theorem opensDemo_start (info : Text) : (start Marker.keyword info).opensDemo = true := rfl

theorem not_opensDemo_stop (name : Text) : (stop name).opensDemo = false := Bool.and_false _

end Token

open Token

/-- Tokens between a first one and a last one. -/
def between (first last : Token) (ts : List Token) : List Token := first :: (ts ++ [last])

/-- The tokens of a part of a page that has others in it. -/
def within (ts : List Token) : List Token := between opening closing ts

/-- The tokens of a part of a page that has inline content. -/
def sourced (source : Text) : List Token := within [single [] source]

/-- The tokens of a row of a table. -/
def rowTokens (alignments : List Alignment) (cells : List Text) : List Token :=
  within ((alignments.zip cells).flatMap fun x => sourced x.2)

/-- The tokens of a table. -/
def tableTokens (alignments : List Alignment) (header : List Text) (rows : List (List Text)) :
    List Token :=
  within (within (rowTokens alignments header) ++
    if rows = [] then [] else within (rows.flatMap (rowTokens alignments)))

mutual

/-- The tokens of a block. -/
def tokens : Block → List Token
  | .paragraph source => sourced source
  | .heading _ source => sourced source
  | .thematicBreak => [single [] []]
  | .code content => [single [] content]
  | .fence info content => [single info content]
  | .html content => [single [] content]
  | .quote content => within (tokensOf content)
  | .list _ _ items => within (tokensIn items)
  | .table alignments header rows => tableTokens alignments header rows
  | .demo info content =>
    between (start Marker.keyword info) (stop Marker.keyword) (tokensOf content)
  | .notice name content => between (start name []) (stop name) (tokensOf content)

/-- The tokens of several blocks. -/
def tokensOf : List Block → List Token
  | [] => []
  | b :: bs => tokens b ++ tokensOf bs

/-- The tokens of the items of a list. -/
def tokensIn : List (List Block) → List Token
  | [] => []
  | i :: is => within (tokensOf i) ++ tokensIn is

end

/-! ### Tokens that are not of demos -/

/-- No token is of a demo. -/
def HasNoDemo (ts : List Token) : Prop := ∀ t ∈ ts, t.isDemo = false

/-- Tokens in a row have no demo if no part has one. -/
theorem HasNoDemo.append {ts us : List Token} (h : HasNoDemo ts) (h' : HasNoDemo us) :
    HasNoDemo (ts ++ us) :=
  List.forall_mem_append.2 ⟨h, h'⟩

theorem hasNoDemo_within {ts : List Token} (h : HasNoDemo ts) : HasNoDemo (within ts) :=
  List.forall_mem_cons.2 ⟨rfl, h.append (List.forall_mem_singleton.2 rfl)⟩

theorem hasNoDemo_single (info content : Text) : HasNoDemo [single info content] :=
  List.forall_mem_singleton.2 rfl

theorem hasNoDemo_sourced (source : Text) : HasNoDemo (sourced source) :=
  hasNoDemo_within (hasNoDemo_single [] source)

theorem hasNoDemo_flatMap {α : Type} {l : List α} {f : α → List Token}
    (h : ∀ x ∈ l, HasNoDemo (f x)) : HasNoDemo (l.flatMap f) := by
  intro t ht
  obtain ⟨x, hx, htx⟩ := List.mem_flatMap.1 ht
  exact h x hx t htx

/-- A table has no demo in it. -/
theorem hasNoDemo_tableTokens (alignments : List Alignment) (header : List Text)
    (rows : List (List Text)) : HasNoDemo (tableTokens alignments header rows) := by
  have hrow (cells : List Text) : HasNoDemo (rowTokens alignments cells) :=
    hasNoDemo_within (hasNoDemo_flatMap fun x _ => hasNoDemo_sourced x.2)
  refine hasNoDemo_within ((hasNoDemo_within (hrow header)).append ?_)
  split
  · exact fun t ht => absurd ht List.not_mem_nil
  · exact hasNoDemo_within (hasNoDemo_flatMap fun cells _ => hrow cells)

/-! ## Balance -/

/-- The bracket that a token is, if it is of a demo. -/
def Token.bracket? (t : Token) : Option DyckStep :=
  if t.isDemo then some (if t.nesting = 1 then .U else .D) else none

/-- Only the tokens of demos are brackets. -/
theorem Token.bracket?_eq_none_iff {t : Token} : t.bracket? = none ↔ t.isDemo = false := by
  rw [bracket?]
  cases t.isDemo <;> simp

theorem Token.bracket?_eq_some_U_iff {t : Token} : t.bracket? = some .U ↔ t.opensDemo = true := by
  rw [bracket?, opensDemo]
  cases t.isDemo <;> simp

/-- The tokens of demos are balanced brackets. -/
def IsBalanced (ts : List Token) : Prop := ∃ w : DyckWord, w.toList = ts.filterMap bracket?

variable {ts us : List Token}

/-- Where no demo is, nothing needs to be balanced. -/
theorem HasNoDemo.isBalanced (h : HasNoDemo ts) : IsBalanced ts :=
  ⟨0, (List.filterMap_eq_nil_iff.2 fun t ht => bracket?_eq_none_iff.2 (h t ht)).symm⟩

/-- Balanced tokens in a row are balanced. -/
theorem IsBalanced.append (h : IsBalanced ts) (h' : IsBalanced us) : IsBalanced (ts ++ us) := by
  obtain ⟨w, hw⟩ := h
  obtain ⟨w', hw'⟩ := h'
  refine ⟨w + w', ?_⟩
  rw [List.filterMap_append, ← hw, ← hw']
  rfl

/-- **A demo** is a pair of brackets around what is in it. -/
theorem IsBalanced.demo (info : Text) (h : IsBalanced ts) :
    IsBalanced (Block.between (start Marker.keyword info) (stop Marker.keyword) ts) := by
  obtain ⟨w, hw⟩ := h
  have hstart : bracket? (start Marker.keyword info) = some .U := rfl
  have hstop : [stop Marker.keyword].filterMap bracket? = [.D] := rfl
  refine ⟨w.nest, ?_⟩
  rw [Block.between, List.filterMap_cons_some hstart, List.filterMap_append, hstop, ← hw]
  rfl

/-- Where no demo begins none ends. -/
theorem IsBalanced.hasNoDemo (h : IsBalanced ts) (hopens : ∀ t ∈ ts, t.opensDemo = false) :
    HasNoDemo ts := by
  obtain ⟨w, hw⟩ := h
  have hU : .U ∉ w.toList := fun hmem => by
    obtain ⟨t, ht, he⟩ := List.mem_filterMap.1 (hw ▸ hmem)
    exact Bool.false_ne_true ((hopens t ht).symm.trans (bracket?_eq_some_U_iff.1 he))
  have hD : .D ∉ w.toList :=
    List.count_eq_zero.1 (w.count_U_eq_count_D ▸ List.count_eq_zero.2 hU)
  have hnil : w.toList = [] := List.eq_nil_iff_forall_not_mem.2 fun s hs => by
    cases s with
    | U => exact hU hs
    | D => exact hD hs
  exact fun t ht => bracket?_eq_none_iff.1 (List.filterMap_eq_nil_iff.1 (hw.symm.trans hnil) t ht)

end Showcase.Block
