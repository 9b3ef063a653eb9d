import Showcase.Outline.Entry

/-!
# Nesting of outlines

What an outline shows, and where.

* **Which headings**: those elements of the document that are headings with a title and stand in no
  demo (`Placed.IsListed`), in the order of the document and each of them once. Elements are listed
  with everything that they stand in (`Placed.ancestors`), the document itself included.
* **Below which entry**: below the nearest heading before it that is of a smaller level
  (`IsParent`). Places are counted in the order of the outline.

A heading in front of an outline takes over just those roots that are deeper, and these stand at the
beginning of the outline, since the levels of the roots never rise. So the parents of all other
entries stay, and the invariant is one about the list of parents (`isParent_ofHeadings`).

Main statement: `outline_eq`.
-/

namespace Showcase.Outline

open Document

/-! ## Elements and what they stand in -/

/-- An element at its place in a document. -/
structure Placed where
  /-- the names of what it stands in, the innermost first -/
  ancestors : List Text
  /-- its name -/
  name : Text
  /-- its attributes -/
  attributes : List Attribute
  /-- what it has in it -/
  children : List Node

namespace Placed

mutual

/-- The elements of a node, in their order in the document. -/
def ofNode (ancestors : List Text) : Node → List Placed
  | .element name attributes children =>
    ⟨ancestors, name, attributes, children⟩ :: ofNodes (name :: ancestors) children
  | _ => []

/-- The elements of several nodes, in their order in the document. -/
def ofNodes (ancestors : List Text) : List Node → List Placed
  | [] => []
  | n :: ns => ofNode ancestors n ++ ofNodes ancestors ns

end

/-- The elements of a document, which all stand in the document itself. -/
def ofDocument (ns : List Node) : List Placed := ofNodes [documentName] ns

/-- The element is a heading that belongs into the outline: it has a level and a title, and nothing
that it stands in is a demo. -/
def IsListed (isDemo : Text → Bool) (e : Placed) : Prop :=
  (∀ a ∈ e.ancestors, isDemo a = false) ∧ (level? e.name).isSome = true ∧ title e.children ≠ []

instance (isDemo : Text → Bool) : DecidablePred (IsListed isDemo) := fun e => by
  unfold IsListed
  infer_instance

variable (spelling : Slug.Transliteration) (isDemo : Text → Bool)

/-- The heading that the element is. -/
def heading? (e : Placed) : Option Heading :=
  Outline.heading? spelling e.name e.attributes e.children

/-- A heading is listed if its name has a level and its title is not empty. -/
theorem isSome_heading?_iff (e : Placed) :
    (e.heading? spelling).isSome = true ↔
      (level? e.name).isSome = true ∧ title e.children ≠ [] := by
  simp only [heading?, Outline.heading?]
  split
  · next h => simp [h]
  · next l h =>
    split
    · next ht => simp [ht]
    · next ht =>
      have : title e.children ≠ [] := fun e => ht e
      simp [h, this]

/-- The level of a heading is that of its name. -/
theorem level_of_heading? {e : Placed} {h : Heading} (he : e.heading? spelling = some h) :
    level? e.name = some h.level := by
  simp only [heading?, Outline.heading?] at he
  split at he
  · cases he
  · next l hl =>
    split at he
    · cases he
    · obtain rfl := Option.some.inj he
      exact hl

/-- The elements that belong into the outline. -/
def listed (es : List Placed) : List Placed := es.filter fun e => decide (IsListed isDemo e)

/-- The headings in a row of places are those of each part. -/
theorem listed_append (es fs : List Placed) :
    listed isDemo (es ++ fs) = listed isDemo es ++ listed isDemo fs :=
  List.filter_append ..

variable {isDemo}

mutual

/-- Nothing in a demo belongs into the outline. -/
theorem listed_ofNode_of_demo {ancestors : List Text} {a : Text} (ha : isDemo a = true)
    (h : a ∈ ancestors) : ∀ n : Node, listed isDemo (ofNode ancestors n) = []
  | .text _ _ => rfl
  | .note _ _ => rfl
  | .element name attributes children => by
    have hno : ¬ IsListed isDemo ⟨ancestors, name, attributes, children⟩ := by
      rintro ⟨hd, -⟩
      rw [hd a h] at ha
      cases ha
    rw [ofNode, listed, List.filter_cons_of_neg (by simpa using hno)]
    exact listed_ofNodes_of_demo ha (List.mem_cons_of_mem _ h) children

/-- Nothing is listed inside of a demo. -/
theorem listed_ofNodes_of_demo {ancestors : List Text} {a : Text} (ha : isDemo a = true)
    (h : a ∈ ancestors) : ∀ ns : List Node, listed isDemo (ofNodes ancestors ns) = []
  | [] => rfl
  | n :: ns => by
    rw [ofNodes, listed_append, listed_ofNode_of_demo ha h n, listed_ofNodes_of_demo ha h ns]
    rfl

end

theorem map_heading?_listed_singleton {e : Placed} (h : ∀ a ∈ e.ancestors, isDemo a = false) :
    (listed isDemo [e]).map (heading? spelling) = (e.heading? spelling).toList.map some := by
  have hiff : IsListed isDemo e ↔ (e.heading? spelling).isSome = true :=
    (and_iff_right h).trans (isSome_heading?_iff spelling e).symm
  cases he : e.heading? spelling with
  | none =>
    have hno : ¬ IsListed isDemo e := by simp [hiff, he]
    rw [listed, List.filter_cons_of_neg (by simpa using hno)]
    rfl
  | some x =>
    have hyes : IsListed isDemo e := by simp [hiff, he]
    rw [listed, List.filter_cons_of_pos (by simpa using hyes), List.filter_nil, List.map_singleton,
      he]
    rfl

mutual

/-- Outside of demos, the headings are the elements that belong into the outline. -/
theorem map_heading?_listed_ofNode {ancestors : List Text}
    (h : ∀ a ∈ ancestors, isDemo a = false) :
    ∀ n : Node, (listed isDemo (ofNode ancestors n)).map (heading? spelling) =
      (headings spelling isDemo n).map some
  | .text _ _ => rfl
  | .note _ _ => rfl
  | .element name attributes children => by
    -- the element itself, and then what it has in it
    rw [ofNode, headings, ← List.singleton_append, listed_append, List.map_append, List.map_append,
      map_heading?_listed_singleton spelling h]
    cases hd : isDemo name with
    | true =>
      rw [listed_ofNodes_of_demo hd (List.mem_cons_self ..), if_pos rfl]
      rfl
    | false =>
      rw [map_heading?_listed_ofNodes (List.forall_mem_cons.2 ⟨hd, h⟩), if_neg Bool.false_ne_true]
      rfl

/-- Outside of demos, the headings of nodes are those of the places that are listed. -/
theorem map_heading?_listed_ofNodes {ancestors : List Text}
    (h : ∀ a ∈ ancestors, isDemo a = false) :
    ∀ ns : List Node, (listed isDemo (ofNodes ancestors ns)).map (heading? spelling) =
      (headingsOf spelling isDemo ns).map some
  | [] => rfl
  | n :: ns => by
    rw [ofNodes, headingsOf, listed_append, List.map_append, List.map_append,
      map_heading?_listed_ofNode h n, map_heading?_listed_ofNodes h ns]

end

variable (isDemo)

/-- **The headings of a document are those of its places that are listed**, in their order. -/
theorem map_heading?_listed_ofDocument (ns : List Node) :
    (listed isDemo (ofDocument ns)).map (heading? spelling) =
      (documentHeadings spelling isDemo ns).map some := by
  rw [ofDocument, documentHeadings]
  cases h : isDemo documentName with
  | true => rw [listed_ofNodes_of_demo h (List.mem_singleton_self _), if_pos rfl]; rfl
  | false =>
    rw [if_neg Bool.false_ne_true]
    exact map_heading?_listed_ofNodes spelling (by simpa using h) ns

theorem map_level?_of_map_heading? {es : List Placed} {hs : List Heading}
    (h : es.map (heading? spelling) = hs.map some) :
    hs.map (fun x => some x.level) = es.map (fun e => level? e.name) := by
  induction es generalizing hs with
  | nil =>
    obtain rfl := List.map_eq_nil_iff.1 h.symm
    rfl
  | cons e es ih =>
    cases hs with
    | nil => cases h
    | cons x hs =>
      obtain ⟨he, h⟩ := List.cons.inj h
      rw [List.map_cons, List.map_cons, ih h, level_of_heading? spelling he]

end Placed

/-! ## Parents -/

namespace Entry

mutual

/-- The places of the parents of an entry and the entries below it, in their order. `above` is the
place of the parent of the first of them, which itself has the place `at`. -/
def parents (above : Option Nat) (place : Nat) : Entry → List (Option Nat)
  | mk _ es => above :: parentsOf (some place) (place + 1) es

/-- The places of the parents of several entries that stand side by side. -/
def parentsOf (above : Option Nat) (place : Nat) : List Entry → List (Option Nat)
  | [] => []
  | e :: es => parents above place e ++ parentsOf above (place + (preorder e).length) es

end

mutual

/-- There is one parent for each heading. -/
theorem length_parents (above : Option Nat) (place : Nat) :
    ∀ e : Entry, (parents above place e).length = (preorder e).length
  | mk h es => by
    rw [parents, preorder, List.length_cons, List.length_cons, length_parentsOf]

theorem length_parentsOf (above : Option Nat) (place : Nat) :
    ∀ es : List Entry, (parentsOf above place es).length = (preorders es).length
  | [] => by rw [parentsOf, preorders]; rfl
  | e :: es => by
    rw [parentsOf, preorders, List.length_append, List.length_append, length_parents,
      length_parentsOf]

end

/-- The parents of entries in a row: places are counted from the first of them on. -/
theorem parentsOf_append (above : Option Nat) (place : Nat) (es fs : List Entry) :
    parentsOf above place (es ++ fs) =
      parentsOf above place es ++ parentsOf above (place + (preorders es).length) fs := by
  induction es generalizing place with
  | nil => rfl
  | cons e es ih =>
    rw [List.cons_append, parentsOf, parentsOf, ih, preorders, List.length_append,
      List.append_assoc, Nat.add_assoc]

/-- Where a list of parents goes when its entries are moved to a place below an entry. -/
def moved (above : Option Nat) (place : Nat) (p : Option Nat) : Option Nat :=
  (p.map (· + place)).or above

/-- Moving the parents twice moves them by both distances. -/
theorem moved_comp (above inner : Option Nat) (place first : Nat) :
    moved above place ∘ moved inner first =
      moved ((inner.map (· + place)).or above) (first + place) := by
  funext p
  cases p with
  | none => simp [moved]
  | some i => simp [moved, Nat.add_assoc]

mutual

/-- Only the roots have a parent from outside. -/
theorem parents_eq_map (above : Option Nat) (place : Nat) :
    ∀ e : Entry, parents above place e = (parents none 0 e).map (moved above place)
  | mk h es => by
    rw [parents, parents, List.map_cons, parentsOf_eq_map (some place) (place + 1),
      parentsOf_eq_map (some 0) (0 + 1), List.map_map, moved_comp, Option.map_some, Option.some_or,
      Nat.zero_add, Nat.zero_add, Nat.add_comm 1 place]
    rfl

/-- Parents may be told from the first entry on and moved afterwards. -/
theorem parentsOf_eq_map (above : Option Nat) (place : Nat) :
    ∀ es : List Entry, parentsOf above place es = (parentsOf none 0 es).map (moved above place)
  | [] => rfl
  | e :: es => by
    rw [parentsOf, parentsOf, List.map_append, parents_eq_map above, Nat.zero_add,
      parentsOf_eq_map above (place + _), parentsOf_eq_map none (preorder e).length, List.map_map,
      moved_comp, Option.map_none, Option.none_or, Nat.add_comm place]

end

/-- The parents in an outline with a heading in front of it: the entries that the heading takes over
are now below it, and all others stay. -/
theorem parentsOf_attach (h : Heading) (es : List Entry) :
    ∃ taken left, parentsOf none 0 es = taken ++ left ∧
      taken.length = (preorders (es.takeWhile fun e => h.level < e.heading.level)).length ∧
      parentsOf none 0 (attach h es) =
        none :: (taken.map (moved (some 0) 1) ++ left.map (moved none 1)) := by
  have hes := List.takeWhile_append_dropWhile (p := fun e : Entry => h.level < e.heading.level)
    (l := es)
  generalize hs : es.takeWhile _ = before at hes ⊢
  generalize ht : es.dropWhile _ = after at hes
  refine ⟨parentsOf none 0 before, parentsOf none (preorders before).length after, ?_, ?_, ?_⟩
  · rw [← hes, parentsOf_append, Nat.zero_add]
  · exact length_parentsOf none 0 before
  · rw [attach, hs, ht, parentsOf, parents, preorder, List.cons_append, List.length_cons,
      Nat.zero_add, Nat.zero_add, parentsOf_eq_map (some 0), parentsOf_eq_map none (_ + 1),
      parentsOf_eq_map none (preorders before).length, List.map_map, moved_comp]
    rfl

end Entry

/-- The place of the parent of the heading at place `i`, given the levels of all headings: the
nearest place before it where the level is smaller. -/
inductive IsParent (levels : List Nat) (i : Nat) : Option Nat → Prop
  | root (h : ∀ k < i, levels.getD i 0 ≤ levels.getD k 0) : IsParent levels i none
  | below {j : Nat} (hj : j < i) (h : levels.getD j 0 < levels.getD i 0)
      (hbetween : ∀ k, j < k → k < i → levels.getD i 0 ≤ levels.getD k 0) :
      IsParent levels i (some j)

namespace IsParent

variable {levels : List Nat} {i : Nat} {l : Nat}

/-- A parent stays one when a heading comes before all of them. -/
theorem cons_of_some {j : Nat} (h : IsParent levels i (some j)) :
    IsParent (l :: levels) (i + 1) (some (j + 1)) := by
  cases h with
  | below hj h hbetween =>
    refine .below (Nat.succ_lt_succ hj) h fun k hjk hki => ?_
    obtain ⟨k, rfl⟩ : ∃ k', k = k' + 1 := ⟨k - 1, by omega⟩
    exact hbetween k (Nat.lt_of_succ_lt_succ hjk) (Nat.lt_of_succ_lt_succ hki)

/-- A deeper root goes below the heading in front of it. -/
theorem cons_of_lt (h : IsParent levels i none) (hl : l < levels.getD i 0) :
    IsParent (l :: levels) (i + 1) (some 0) := by
  cases h with
  | root h =>
    refine .below (Nat.succ_pos i) hl fun k hk hki => ?_
    obtain ⟨k, rfl⟩ : ∃ k', k = k' + 1 := ⟨k - 1, by omega⟩
    exact h k (Nat.lt_of_succ_lt_succ hki)

/-- Any other root stays one. -/
theorem cons_of_le (h : IsParent levels i none) (hl : levels.getD i 0 ≤ l) :
    IsParent (l :: levels) (i + 1) none := by
  cases h with
  | root h =>
    refine .root fun k hki => ?_
    cases k with
    | zero => exact hl
    | succ k => exact h k (Nat.lt_of_succ_lt_succ hki)

end IsParent

namespace Entry

/-- No entry is of a smaller level than the root that it is below. -/
def RootsFirst (es : List Entry) : Prop := ∀ e ∈ es, ∀ x ∈ preorder e, e.heading.level ≤ x.level

theorem mem_preorders {x : Heading} {es : List Entry} :
    x ∈ preorders es ↔ ∃ e ∈ es, x ∈ preorder e := by
  induction es with
  | nil => simp [preorders]
  | cons e es ih => simp [preorders, ih]

/-- The entries that a heading takes over are deeper. -/
theorem lt_of_mem_takeWhile {h x : Heading} {es : List Entry} (hes : RootsFirst es)
    (hx : x ∈ preorders (es.takeWhile fun e => h.level < e.heading.level)) :
    h.level < x.level := by
  obtain ⟨e, he, hx⟩ := mem_preorders.1 hx
  have hlt : h.level < e.heading.level :=
    of_decide_eq_true (List.all_eq_true.1 List.all_takeWhile e he)
  have hle := hes e ((List.takeWhile_sublist _).mem he) x hx
  omega

/-- Attaching a heading in front keeps the roots first: it takes in the entries below it. -/
theorem rootsFirst_attach {h : Heading} {es : List Entry} (hes : RootsFirst es) :
    RootsFirst (attach h es) := by
  intro e he x hx
  rcases List.mem_cons.1 he with rfl | he
  · rcases List.mem_cons.1 hx with rfl | hx
    · exact Nat.le_refl _
    · exact Nat.le_of_lt (lt_of_mem_takeWhile hes hx)
  · exact hes e ((List.dropWhile_sublist _).mem he) x hx

/-- Each root of an outline stands above all of its entries. -/
theorem rootsFirst_ofHeadings (hs : List Heading) : RootsFirst (ofHeadings hs) := by
  induction hs with
  | nil => intro e he; cases he
  | cons h hs ih =>
    rw [ofHeadings_cons]
    exact rootsFirst_attach ih

/-- Where a heading takes over entries, the levels are greater; at the first place after them, if
there is one, the level is not. -/
theorem levels_attach {h : Heading} {hs : List Heading} {n : Nat}
    (hn : n = (preorders ((ofHeadings hs).takeWhile fun e => h.level < e.heading.level)).length) :
    (∀ i < n, h.level < (hs.map Heading.level).getD i 0) ∧
      (hs.map Heading.level).getD n 0 ≤ h.level := by
  have hroots := rootsFirst_ofHeadings hs
  have hpre := preorder_ofHeadings hs
  -- of the forest only two things matter: its preorder, and that roots come first
  generalize ofHeadings hs = es at hn hroots hpre
  have hd := List.head?_dropWhile_not (fun e : Entry => h.level < e.heading.level) es
  have hlt := fun x => lt_of_mem_takeWhile (h := h) (x := x) hroots
  rw [← List.takeWhile_append_dropWhile (p := fun e : Entry => h.level < e.heading.level) (l := es),
    preorders_append] at hpre
  subst hn hpre
  simp only [List.map_append, List.getD_eq_getElem?_getD, List.getElem?_append, List.length_map]
  -- the trees that are taken in are deeper; the first root that is not ends them
  refine ⟨fun i hi => ?_, ?_⟩
  · rw [if_pos hi, List.getElem?_map, List.getElem?_eq_getElem hi]
    exact hlt _ (List.getElem_mem hi)
  · rw [if_neg (Nat.lt_irrefl _), Nat.sub_self]
    cases hdrop : es.dropWhile fun e => h.level < e.heading.level with
    | nil => exact Nat.zero_le _
    | cons e rest =>
      rw [hdrop] at hd
      obtain ⟨x, below⟩ := e
      exact Nat.le_of_not_lt (of_decide_eq_false hd)

/-- **Each entry is below the nearest heading before it that is of a smaller level.** -/
theorem isParent_ofHeadings (hs : List Heading) {i : Nat} {p : Option Nat}
    (hp : (parentsOf none 0 (ofHeadings hs))[i]? = some p) :
    IsParent (hs.map Heading.level) i p := by
  induction hs generalizing i p with
  | nil => cases hp
  | cons h hs ih =>
    obtain ⟨taken, left, hboth, hlength, hparents⟩ := parentsOf_attach h (ofHeadings hs)
    obtain ⟨hdeeper, hnext⟩ := levels_attach hlength
    rw [hboth] at ih
    rw [ofHeadings_cons, hparents] at hp
    cases i with
    | zero =>
      obtain rfl := Option.some.inj hp
      exact .root fun k hk => absurd hk (Nat.not_lt_zero k)
    | succ i =>
      rw [List.getElem?_cons_succ, List.getElem?_append, List.length_map] at hp
      by_cases hi : i < taken.length
      · -- an entry that the heading takes over
        rw [if_pos hi, List.getElem?_map, List.getElem?_eq_getElem hi] at hp
        obtain rfl := Option.some.inj hp
        have hq := ih (i := i) (p := taken[i])
          (by rw [List.getElem?_append_left hi, List.getElem?_eq_getElem hi])
        cases e : taken[i] with
        | none => exact (e ▸ hq).cons_of_lt (hdeeper i hi)
        | some j => exact (e ▸ hq).cons_of_some
      · -- an entry that it does not take over
        rw [if_neg hi, List.getElem?_map, Option.map_eq_some_iff] at hp
        obtain ⟨q, hq, rfl⟩ := hp
        have hparent := ih (i := i) (by rw [List.getElem?_append_right (by omega), hq])
        cases q with
        | none =>
          refine hparent.cons_of_le (Nat.le_trans ?_ hnext)
          -- the levels of roots never rise
          cases hparent with
          | root hroot =>
            rcases Nat.lt_or_ge taken.length i with hlt | hge
            · exact hroot _ hlt
            · exact Nat.le_of_eq (by rw [Nat.le_antisymm hge (Nat.le_of_not_lt hi)])
        | some j => exact hparent.cons_of_some

end Entry

/-! ## Outlines of documents -/

/-- **What an outline shows, and where.** A document that cannot be read has no outline. Else the
entries are the headings that belong into the outline, in their order in the document, each of them
once and with its level; and each entry is below the nearest one before it that is of a smaller
level. -/
theorem outline_eq (spelling : Slug.Transliteration) (isDemo : Text → Bool) (t : Text) :
    match Document.ofText t with
    | .error r => ofText spelling isDemo t = .error r
    | .ok ns => ∃ outline, ofText spelling isDemo t = .ok outline ∧
        (Entry.preorders outline).map some =
          (Placed.listed isDemo (Placed.ofDocument ns)).map (Placed.heading? spelling) ∧
        (Entry.preorders outline).map (fun h => some h.level) =
          (Placed.listed isDemo (Placed.ofDocument ns)).map (fun e => level? e.name) ∧
        (Entry.parentsOf none 0 outline).length = (Entry.preorders outline).length ∧
        ∀ i p, (Entry.parentsOf none 0 outline)[i]? = some p →
          IsParent ((Entry.preorders outline).map Heading.level) i p := by
  rw [ofText]
  cases Document.ofText t with
  | error r => rfl
  | ok ns =>
    have hlisted := Placed.map_heading?_listed_ofDocument spelling isDemo ns
    refine ⟨_, rfl, ?_, ?_, Entry.length_parentsOf none 0 _, fun i p hp => ?_⟩
    · rw [Entry.preorder_ofHeadings, hlisted]
    · rw [Entry.preorder_ofHeadings, Placed.map_level?_of_map_heading? spelling hlisted]
    · rw [Entry.preorder_ofHeadings]
      exact Entry.isParent_ofHeadings _ hp

end Showcase.Outline
