import Showcase.Demo.Payload
import Showcase.Markup.Html
import Showcase.Proofs.Markup.Inline
import Showcase.Proofs.Markup.Reader

/-!
# Markup without raw HTML

A piece of a page is free of raw HTML if none is written with it (`Inline.isRawFree`,
`Block.IsRawFree`). The live markup of a demo is written as it is, so what it may be is said apart.
The description of an image does not count, since it ends up in an attribute.

In a dialect without raw HTML nothing else can be read: it gives no raw HTML inside of a paragraph
(`Inline.gives_isRawFree`), and no rule for blocks gives raw HTML or a demo (`HasNoRaw.gives`).

Main statements: `Inline.allRawFree_read` and `Block.allRawFree_readPage`.
-/

namespace Showcase

/-! ## Inline content -/

namespace Inline

mutual

/-- No raw HTML is written with the piece. -/
def isRawFree : Inline → Bool
  | .html _ => false
  | .emphasis _ c => allRawFree c
  | .strong c => allRawFree c
  | .strike c => allRawFree c
  | .link _ c => allRawFree c
  | _ => true

/-- No raw HTML is written with the pieces. -/
def allRawFree : List Inline → Bool
  | [] => true
  | i :: l => isRawFree i && allRawFree l

end

theorem allRawFree_eq (l : List Inline) : allRawFree l = l.all isRawFree := by
  induction l with
  | nil => rfl
  | cons i l ih => rw [allRawFree, ih, List.all_cons]

theorem allRawFree_iff {l : List Inline} :
    allRawFree l = true ↔ ∀ i ∈ l, isRawFree i = true := by
  rw [allRawFree_eq, List.all_eq_true]

/-- A dialect without raw HTML gives pieces without it. -/
theorem gives_isRawFree {d : Dialect} (hd : d.html = false) :
    d.Gives fun i => isRawFree i = true where
  text _ := rfl
  special _ := rfl
  softBreak := rfl
  hardBreak := rfl
  code _ := rfl
  html hhtml := absurd (hd.symm.trans hhtml) Bool.false_ne_true
  emphasis _ _ hcontent := allRawFree_iff.2 hcontent
  strong _ _ h := h
  strike _ _ hcontent := allRawFree_iff.2 hcontent
  link _ _ hcontent := allRawFree_iff.2 hcontent
  image _ _ _ := rfl

/-- **Inline content** of a dialect without raw HTML has none. -/
theorem allRawFree_read {ctx : Context} (hd : ctx.dialect.html = false) (t : Text) :
    allRawFree (read ctx t) = true :=
  allRawFree_iff.2 (forall_mem_read (gives_isRawFree hd) t)

end Inline

/-! ## Blocks -/

namespace Block

/-- No raw HTML is written with the source of some inline content. -/
def IsRawFreeSource (ctx : Inline.Context) (source : Text) : Prop :=
  Inline.allRawFree (Inline.read ctx source) = true

mutual

/-- No raw HTML is written with the block; `live` tells what the live markup of demos may be. -/
def IsRawFree (live : Text → Prop) (ctx : Inline.Context) : Block → Prop
  | .paragraph source => IsRawFreeSource ctx source
  | .heading _ source => IsRawFreeSource ctx source
  | .html _ => False
  | .quote content => AllRawFree live ctx content
  | .list _ _ items => ItemsRawFree live ctx items
  | .table _ header rows =>
    (∀ c ∈ header, IsRawFreeSource ctx c) ∧ ∀ r ∈ rows, ∀ c ∈ r, IsRawFreeSource ctx c
  | .demo _ content =>
    live (Payload.ofBody (Html.body content)).html ∧ AllRawFree live ctx content
  | .notice _ content => AllRawFree live ctx content
  | _ => True

/-- No raw HTML is written with the blocks. -/
def AllRawFree (live : Text → Prop) (ctx : Inline.Context) : List Block → Prop
  | [] => True
  | b :: bs => IsRawFree live ctx b ∧ AllRawFree live ctx bs

/-- No raw HTML is written with the items of a list. -/
def ItemsRawFree (live : Text → Prop) (ctx : Inline.Context) : List (List Block) → Prop
  | [] => True
  | i :: is => AllRawFree live ctx i ∧ ItemsRawFree live ctx is

end

variable {g : Grammar} {live : Text → Prop} {ctx : Inline.Context}

theorem allRawFree_iff {bs : List Block} :
    AllRawFree live ctx bs ↔ ∀ b ∈ bs, IsRawFree live ctx b := by
  induction bs with
  | nil => exact iff_of_true trivial fun b hb => absurd hb List.not_mem_nil
  | cons b bs ih => rw [AllRawFree, ih, List.forall_mem_cons]

theorem itemsRawFree_iff {is : List (List Block)} :
    ItemsRawFree live ctx is ↔ ∀ i ∈ is, AllRawFree live ctx i := by
  induction is with
  | nil => exact iff_of_true trivial fun i hi => absurd hi List.not_mem_nil
  | cons i is ih => rw [ItemsRawFree, ih, List.forall_mem_cons]

/-- What is read has neither raw HTML nor demos. -/
structure HasNoRaw (g : Grammar) (ctx : Inline.Context) : Prop where
  grammar : g.dialect.html = false
  demos : g.demos = false
  inlines : ctx.dialect.html = false

theorem HasNoRaw.source (h : HasNoRaw g ctx) (t : Text) : IsRawFreeSource ctx t :=
  Inline.allRawFree_read h.inlines t

/-- The rules for raw HTML and for demos are off, and all others give none. -/
theorem HasNoRaw.gives (h : HasNoRaw g ctx) : g.Gives (IsRawFree live ctx) where
  paragraph := h.source
  heading _ := h.source
  thematicBreak := trivial
  code _ := trivial
  fence _ _ := trivial
  html hhtml := absurd (h.grammar.symm.trans hhtml) Bool.false_ne_true
  table _ _ _ := ⟨fun c _ => h.source c, fun _ _ c _ => h.source c⟩
  quote _ hcontent := allRawFree_iff.2 hcontent
  list _ _ _ hitems := itemsRawFree_iff.2 fun i hi => allRawFree_iff.2 (hitems i hi)
  demo hdemos := absurd (h.demos.symm.trans hdemos) Bool.false_ne_true
  notice _ _ _ hcontent := allRawFree_iff.2 hcontent

/-- **A page** of a dialect without raw HTML has none. -/
theorem allRawFree_readPage (h : HasNoRaw g ctx) (page : Text) :
    AllRawFree live ctx (readPage g page).1 :=
  allRawFree_iff.2 (forall_mem_readPage h.gives page)

end Block

end Showcase
