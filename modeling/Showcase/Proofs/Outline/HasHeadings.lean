import Showcase.Proofs.Document.Tags
import Showcase.Proofs.Outline.Inside

/-!
# The headings of a piece of HTML

Which headings a piece of HTML brings into an outline can be told from its tags. Each heading counts
with its name and its id (`HeadingTag`); those in demos do not count.

A piece *has headings* if it closes all that it opens and brings in no others (`HasHeadings`). An
element that never has anything in it counts as closed, and its closing tag may come anywhere or not
at all. Text brings in none, an element those of what stands in it, and pieces in a row bring in
those of each of them. So HTML that is put together in this way has just the headings that are
written with it, also where the text in it is malformed.

Main statement: `HasHeadings.sublist_listed`, about whole documents.
-/

namespace Showcase

/-- The open elements may have something in them, and closing tags are awaited for others only. -/
structure Document.Course.IsSound (p : Document.Course) : Prop where
  stack : ∀ name ∈ p.stack, Document.isVoid name = false
  awaited : ∀ name ∈ p.awaited, Document.isVoid name = true

namespace Outline

open Document

/-- A heading by the name of its element and the id that it carries. -/
abbrev HeadingTag := Text × Option Text

variable (isDemo : Text → Bool)

/-- The element is a heading outside of demos. -/
def isOuterHeading (x : Opened) : Bool := !x.ancestors.any isDemo && (level? x.name).isSome

/-- The headings outside of demos. -/
def headingTags (xs : List Opened) : List HeadingTag :=
  (xs.filter (isOuterHeading isDemo)).map fun x => (x.name, attribute? x.attributes "id")

/-- The headings of two rows of elements come one after the other. -/
theorem headingTags_append (xs ys : List Opened) :
    headingTags isDemo (xs ++ ys) = headingTags isDemo xs ++ headingTags isDemo ys := by
  rw [headingTags, List.filter_append, List.map_append]
  rfl

/-- An element is a heading or it is not. -/
theorem headingTags_singleton (x : Opened) :
    headingTags isDemo [x] =
      if isOuterHeading isDemo x = true then [(x.name, attribute? x.attributes "id")] else [] := by
  rw [headingTags, List.filter_cons, List.filter_nil]
  split <;> rfl

/-- The headings that tags open at a place. -/
def headingTagsOf (p : Course) (ms : List Token) : List HeadingTag :=
  headingTags isDemo (p.allOpened [documentName] ms)

/-- The tags close all that they open; they show no other headings than these, in their order, and
none inside of a demo. Elements that never have anything in them need no closing tags: these are
awaited, and are passed over wherever they come. -/
structure Lists (ms : List Token) (hs : List HeadingTag) : Prop where
  whole : ∀ p : Course, p.IsSound → (p.after ms).IsSound ∧ (p.after ms).stack = p.stack
  sublist : ∀ p : Course, p.IsSound → (headingTagsOf isDemo p ms).Sublist hs
  hidden : ∀ p : Course, p.IsSound → p.stack.any isDemo = true → headingTagsOf isDemo p ms = []

namespace Lists

variable {isDemo} {ms ns : List Token} {hs is : List HeadingTag} {name : Text}
  {as : List Attribute} {p : Course}

theorem nil : Lists isDemo [] [] :=
  ⟨fun _ hp => ⟨hp, rfl⟩, fun _ _ => List.Sublist.refl [], fun _ _ _ => rfl⟩

theorem mono (h : Lists isDemo ms hs) (hsub : hs.Sublist is) : Lists isDemo ms is :=
  ⟨h.whole, fun p hp => (h.sublist p hp).trans hsub, h.hidden⟩

/-- What is opened later stands in what is open by then. -/
theorem headingTagsOf_append (p : Course) (ms ns : List Token) :
    headingTagsOf isDemo p (ms ++ ns) =
      headingTagsOf isDemo p ms ++ headingTagsOf isDemo (p.after ms) ns := by
  rw [headingTagsOf, Course.allOpened_append, headingTags_append]
  rfl

theorem append (h : Lists isDemo ms hs) (h' : Lists isDemo ns is) :
    Lists isDemo (ms ++ ns) (hs ++ is) where
  whole p hp := by
    obtain ⟨hsound, hstack⟩ := h.whole p hp
    obtain ⟨hsound', hstack'⟩ := h'.whole _ hsound
    rw [Course.after_append]
    exact ⟨hsound', hstack'.trans hstack⟩
  sublist p hp := by
    rw [headingTagsOf_append]
    exact (h.sublist p hp).append (h'.sublist _ (h.whole p hp).1)
  hidden p hp hdemo := by
    obtain ⟨hsound, hstack⟩ := h.whole p hp
    rw [headingTagsOf_append, h.hidden p hp hdemo, h'.hidden _ hsound (hstack ▸ hdemo)]
    rfl

/-- The heading that an element is, if it is one. -/
def own (name : Text) (as : List Attribute) : List HeadingTag :=
  if (level? name).isSome then [(name, attribute? (lastAttributes as) "id")] else []

/-- An element that is no heading has no heading of its own. -/
theorem own_eq_nil (h : level? name = none) (as : List Attribute) : own name as = [] := by
  rw [own, h]
  rfl

theorem own_sublist (name : Text) (as : List Attribute) :
    (own name as).Sublist [(name, attribute? (lastAttributes as) "id")] := by
  rw [own]
  split
  · exact List.Sublist.refl _
  · exact List.nil_sublist _

/-- An element shows no other heading than its own. -/
theorem sublist_own (stack : List Text) :
    (headingTags isDemo [⟨stack ++ [documentName], name, lastAttributes as⟩]).Sublist
      (own name as) := by
  rw [headingTags_singleton]
  split
  · next h =>
    have hown : own name as = [(name, attribute? (lastAttributes as) "id")] :=
      if_pos (Bool.and_eq_true_iff.1 h).2
    exact hown ▸ List.Sublist.refl _
  · exact List.nil_sublist _

/-- In a demo it does not show that either. -/
theorem own_of_demo {stack : List Text} (h : stack.any isDemo = true) :
    headingTags isDemo [⟨stack ++ [documentName], name, lastAttributes as⟩] = [] := by
  rw [headingTags_singleton, isOuterHeading, List.any_append, h]
  rfl

/-- A tag after which nothing more is open: it closes itself, or has nothing to close. -/
theorem single {closed : Bool} (h : closed = true ∨ isVoid name = true) :
    Lists isDemo [.opening name as closed] (own name as) where
  whole p hp := by
    cases closed with
    | true => exact ⟨hp, rfl⟩
    | false =>
      have hvoid : isVoid name = true := h.resolve_left Bool.false_ne_true
      have hread : p.after [.opening name as false] = ⟨p.stack, name :: p.awaited⟩ := by
        simp [Course.after, Course.read, hvoid]
      rw [hread]
      exact ⟨⟨hp.stack, List.forall_mem_cons.2 ⟨hvoid, hp.awaited⟩⟩, rfl⟩
  sublist p _ := sublist_own p.stack
  hidden _ _ hdemo := own_of_demo hdemo

section Element

variable (hvoid : isVoid name = false)

include hvoid

/-- An element that may have something in it may be opened anywhere. -/
theorem isSound_opened (hp : p.IsSound) : Course.IsSound ⟨name :: p.stack, p.awaited⟩ :=
  ⟨List.forall_mem_cons.2 ⟨hvoid, hp.stack⟩, hp.awaited⟩

/-- It is open once its opening tag is read. -/
theorem read_opening (p : Course) :
    p.read (.opening name as false) = ⟨name :: p.stack, p.awaited⟩ := by
  rw [Course.read, hvoid]
  rfl

/-- The closing tag of the innermost open element is not passed over. -/
theorem read_closing (hp : p.IsSound) {stack : List Text} (hstack : p.stack = name :: stack) :
    p.read (.closing name) = ⟨stack, p.awaited⟩ := by
  have hawaited : name ∉ p.awaited := fun hmem => by
    have := hp.awaited name hmem
    rw [hvoid] at this
    cases this
  simp [Course.read, hawaited, hstack]

/-- The headings of an element are its own and those that stand in it. -/
theorem headingTagsOf_element (p : Course) (ms : List Token) :
    headingTagsOf isDemo p (.opening name as false :: (ms ++ [.closing name])) =
      headingTags isDemo [⟨p.stack ++ [documentName], name, lastAttributes as⟩] ++
        headingTagsOf isDemo ⟨name :: p.stack, p.awaited⟩ ms := by
  have hclosing (q : Course) : headingTagsOf isDemo q [.closing name] = [] := rfl
  rw [headingTagsOf, Course.allOpened, read_opening hvoid, headingTags_append, ← headingTagsOf,
    headingTagsOf_append, hclosing, List.append_nil]
  rfl

/-- An element is closed by its closing tag. -/
theorem after_element (h : Lists isDemo ms hs) (hp : p.IsSound) :
    (p.after (.opening name as false :: (ms ++ [.closing name]))).IsSound ∧
      (p.after (.opening name as false :: (ms ++ [.closing name]))).stack = p.stack := by
  obtain ⟨hsound, hstack⟩ := h.whole _ (isSound_opened hvoid hp)
  have hafter : p.after (.opening name as false :: (ms ++ [.closing name])) =
      ⟨p.stack, (Course.after ⟨name :: p.stack, p.awaited⟩ ms).awaited⟩ := by
    rw [Course.after, List.foldl_cons, read_opening hvoid, ← Course.after, Course.after_append]
    exact read_closing hvoid hsound hstack
  rw [hafter]
  exact ⟨⟨hp.stack, hsound.awaited⟩, rfl⟩

end Element

/-- **An element** with what stands in it. -/
theorem element (hvoid : isVoid name = false) (h : Lists isDemo ms hs) :
    Lists isDemo (.opening name as false :: (ms ++ [.closing name])) (own name as ++ hs) where
  whole p hp := after_element hvoid h hp
  sublist p hp := by
    rw [headingTagsOf_element hvoid]
    exact (sublist_own p.stack).append (h.sublist _ (isSound_opened hvoid hp))
  hidden p hp hdemo := by
    have hinner : (name :: p.stack).any isDemo = true := by
      rw [List.any_cons, hdemo, Bool.or_true]
    rw [headingTagsOf_element hvoid, own_of_demo hdemo,
      h.hidden _ (isSound_opened hvoid hp) hinner]
    rfl

/-- **A demo** hides what stands in it. -/
theorem demo (hvoid : isVoid name = false) (hdemo : isDemo name = true)
    (h : Lists isDemo ms hs) :
    Lists isDemo (.opening name as false :: (ms ++ [.closing name])) (own name as) where
  whole p hp := after_element hvoid h hp
  sublist p hp := by
    have hinner : (name :: p.stack).any isDemo = true := by
      rw [List.any_cons, hdemo, Bool.true_or]
    rw [headingTagsOf_element hvoid, h.hidden _ (isSound_opened hvoid hp) hinner,
      List.append_nil]
    exact sublist_own p.stack
  hidden p hp hstack := (h.element hvoid).hidden p hp hstack

end Lists

/-! ## Pieces of HTML -/

/-- The piece of HTML closes all that it opens, and brings no other headings into an outline. -/
def HasHeadings (html : Text) (hs : List HeadingTag) : Prop :=
  ∃ ms, HasTags html ms ∧ Lists isDemo ms hs

/-- The piece of HTML closes all that it opens, and nothing else. Elements that never have anything
in them, such as line breaks and images, need no closing tags. -/
def Closes (html : Text) : Prop := ∃ hs, HasHeadings isDemo html hs

namespace HasHeadings

variable {isDemo} {a b html : Text} {hs is : List HeadingTag} {name : Text} {as : List Attribute}

theorem mono (h : HasHeadings isDemo html hs) (hsub : hs.Sublist is) :
    HasHeadings isDemo html is := by
  obtain ⟨ms, hms, hlists⟩ := h
  exact ⟨ms, hms, hlists.mono hsub⟩

/-- Text brings in no headings. -/
theorem text (h : '<' ∉ html) : HasHeadings isDemo html [] := ⟨[], HasTags.text h, Lists.nil⟩

theorem escape (t : Text) : HasHeadings isDemo (Text.escape t) [] := text (lt_not_mem_escape t)

/-- Pieces in a row bring in the headings of each of them. -/
theorem append (ha : HasHeadings isDemo a hs) (hb : HasHeadings isDemo b is) :
    HasHeadings isDemo (a ++ b) (hs ++ is) := by
  obtain ⟨ms, hms, hlists⟩ := ha
  obtain ⟨ns, hns, hlists'⟩ := hb
  exact ⟨ms ++ ns, hms.append hns, hlists.append hlists'⟩

/-- Text behind a piece brings in no more. -/
theorem append_text (h : HasHeadings isDemo html hs) {t : Text} (ht : '<' ∉ t) :
    HasHeadings isDemo (html ++ t) hs := by
  have := h.append (text ht)
  rwa [List.append_nil] at this

/-- Nor does text in front of it. -/
theorem text_append {t : Text} (ht : '<' ∉ t) (h : HasHeadings isDemo html hs) :
    HasHeadings isDemo (t ++ html) hs := (text ht).append h

/-- Pieces without headings. -/
theorem flatMap {α : Type} {xs : List α} {f : α → Text}
    (h : ∀ x ∈ xs, HasHeadings isDemo (f x) []) : HasHeadings isDemo (xs.flatMap f) [] := by
  induction xs with
  | nil => exact text List.not_mem_nil
  | cons x xs ih =>
    obtain ⟨hx, hxs⟩ := List.forall_mem_cons.1 h
    rw [List.flatMap_cons]
    exact hx.append (ih hxs)

/-- Markup that is read whatever follows it. -/
theorem of_isRead {ts : List Token} (hread : IsRead ('<' :: a) ts)
    (h : Lists isDemo (tags ts) hs) : HasHeadings isDemo ('<' :: a) hs :=
  ⟨tags ts, HasTags.of_isRead hread, h⟩

section

variable (hopen : IsRead ('<' :: a) [.opening name as false])
  (hclose : IsRead ('<' :: b) [.closing name]) (hvoid : isVoid name = false)

include hopen hclose hvoid

/-- **An element**, by its two tags and what stands between them. -/
theorem element (h : HasHeadings isDemo html hs) :
    HasHeadings isDemo ('<' :: a ++ (html ++ '<' :: b)) (Lists.own name as ++ hs) := by
  obtain ⟨ms, hms, hlists⟩ := h
  exact ⟨_, (HasTags.of_isRead hopen).append (hms.append (HasTags.of_isRead hclose)),
    hlists.element hvoid⟩

/-- An element that is no heading. -/
theorem between (hlevel : level? name = none) (h : HasHeadings isDemo html hs) :
    HasHeadings isDemo ('<' :: a ++ (html ++ '<' :: b)) hs := by
  have := h.element hopen hclose hvoid
  rwa [Lists.own_eq_nil hlevel] at this

/-- An element that is a demo. -/
theorem demo (hlevel : level? name = none) (hdemo : isDemo name = true)
    (h : HasHeadings isDemo html hs) :
    HasHeadings isDemo ('<' :: a ++ (html ++ '<' :: b)) [] := by
  obtain ⟨ms, hms, hlists⟩ := h
  have hlist : Lists isDemo (.opening name as false :: (ms ++ [.closing name])) _ :=
    hlists.demo hvoid hdemo
  rw [Lists.own_eq_nil hlevel] at hlist
  exact ⟨_, (HasTags.of_isRead hopen).append (hms.append (HasTags.of_isRead hclose)), hlist⟩

end

/-- **An element that never has anything in it** is closed by its opening tag. -/
theorem void (hopen : IsRead ('<' :: a) [.opening name as false]) (hvoid : isVoid name = true) :
    HasHeadings isDemo ('<' :: a) (Lists.own name as) :=
  of_isRead hopen (Lists.single (Or.inr hvoid))

/-- A line break without a closing tag leaves nothing open. -/
example : Closes isDemo "a<br>b".toList := by
  have hname : IsTagName "br".toList :=
    @isTagName_of_forall 'b' ['r'] (by decide) (Text.forall_mem_of_all (by decide))
  have hverbatim : isVerbatim (Text.lower "br".toList) = false := by decide
  have hbreak : IsRead "<br>".toList [.opening "br".toList [] false] :=
    @IsRead.opening "br".toList hname [] (by simp) false false (Or.inr hverbatim)
  exact ⟨_, text_append (t := ['a']) (by decide) ((void hbreak (by decide)).append_text
    (t := ['b']) (by decide))⟩

/-- **The outline of a document**: its headings are among those of the document. -/
theorem sublist_listed (h : HasHeadings isDemo ('<' :: a) hs) :
    ∃ ns, Document.ofText ('<' :: a) = .ok ns ∧
      ((Placed.listed isDemo (Placed.ofDocument ns)).map fun x =>
        (x.name, attribute? x.attributes "id")).Sublist hs := by
  obtain ⟨ms, hms, hlists⟩ := h
  obtain ⟨ts, hns, us, rfl⟩ := hms.ofText_eq
  refine ⟨ofTokens ts, hns, ?_⟩
  have hshown : (headingTags isDemo ((Placed.ofDocument (ofTokens ts)).map Placed.opened)).Sublist
      hs := by
    have hall := hlists.sublist Course.start ⟨List.forall_mem_nil _, List.forall_mem_nil _⟩
    rw [headingTagsOf, Course.allOpened_append, headingTags_append, Course.allOpened_tags] at hall
    rw [Placed.map_opened_ofDocument]
    exact (List.sublist_append_left _ _).trans hall
  refine List.Sublist.trans ?_ hshown
  generalize Placed.ofDocument (ofTokens ts) = es
  -- what is listed is shown, and has a title besides
  have hfilter : Placed.listed isDemo es =
      (es.filter fun x => isOuterHeading isDemo x.opened).filter fun x =>
        decide (Placed.IsListed isDemo x) := by
    rw [List.filter_filter, Placed.listed]
    refine List.filter_congr fun x _ => ?_
    by_cases hx : Placed.IsListed isDemo x
    · have hany : x.ancestors.any isDemo = false := by simpa [List.any_eq_false] using hx.1
      have : isOuterHeading isDemo x.opened = true := by
        rw [isOuterHeading, Placed.opened, hany, hx.2.1]
        rfl
      rw [this, Bool.and_true]
    · rw [decide_eq_false hx, Bool.false_and]
  rw [headingTags, List.filter_map, List.map_map, hfilter]
  exact List.Sublist.map _ (List.filter_sublist)

end HasHeadings

end Outline

end Showcase
