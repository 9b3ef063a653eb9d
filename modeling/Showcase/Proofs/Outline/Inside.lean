import Showcase.Proofs.Document.Piece
import Showcase.Proofs.Outline.Nesting

/-!
# What stands inside of demos

A demo is known by the name of its element, and the names of elements are in lower case once a
document is read (`lower_of_mem_ancestors`). So which headings are left out of an outline depends on
the letter case in which the name of demos is given:

* a name in lower case is found, and nothing that stands in such an element is in the outline;
* a name with a capital letter is never found, and the outline has these headings as well
  (`isNamedBy_of_capital`).

Main statement: `listed_around`, about any stretch of a document that keeps an element open.
-/

namespace Showcase.Outline

open Document

namespace Placed

/-- The element as its opening tag shows it. -/
def opened (x : Placed) : Opened := ⟨x.ancestors, x.name, x.attributes⟩

mutual

theorem map_opened_ofNode (ancestors : List Text) :
    ∀ n : Node, (ofNode ancestors n).map opened = Opened.ofNode ancestors n
  | .text _ _ => rfl
  | .note _ _ => rfl
  | .element name attributes children => by
    rw [ofNode, List.map_cons, map_opened_ofNodes (name :: ancestors) children]
    rfl

theorem map_opened_ofNodes (ancestors : List Text) :
    ∀ ns : List Node, (ofNodes ancestors ns).map opened = Opened.ofNodes ancestors ns
  | [] => rfl
  | n :: ns => by
    rw [ofNodes, List.map_append, map_opened_ofNode ancestors n, map_opened_ofNodes ancestors ns]
    rfl

end

/-- The elements of a document are those that its tokens open. -/
theorem map_opened_ofDocument (ts : List Token) :
    (ofDocument (ofTokens ts)).map opened = Course.start.allOpened [documentName] ts := by
  rw [ofDocument, map_opened_ofNodes, ofNodes_ofTokens]

/-! ## Letter case -/

variable {P : Text → Prop}

mutual

theorem forall_ancestors_ofNode {ancestors : List Text} (h : ∀ a ∈ ancestors, P a) :
    ∀ n : Node, (∀ name attributes children, Node.element name attributes children ∈ n.parts →
      P name) → ∀ x ∈ ofNode ancestors n, ∀ a ∈ x.ancestors, P a
  | .text _ _, _ => fun _ hx => absurd hx List.not_mem_nil
  | .note _ _, _ => fun _ hx => absurd hx List.not_mem_nil
  | .element name attributes children, hn => by
    have hname : P name := hn name attributes children List.mem_cons_self
    rw [ofNode]
    refine List.forall_mem_cons.2 ⟨h, ?_⟩
    exact forall_ancestors_ofNodes (List.forall_mem_cons.2 ⟨hname, h⟩) children
      fun m as cs hm => hn m as cs (List.mem_cons_of_mem _ hm)

/-- What holds of the names of all elements holds of all names of what they stand in. -/
theorem forall_ancestors_ofNodes {ancestors : List Text} (h : ∀ a ∈ ancestors, P a) :
    ∀ ns : List Node, (∀ name attributes children,
      Node.element name attributes children ∈ Node.partsOf ns → P name) →
      ∀ x ∈ ofNodes ancestors ns, ∀ a ∈ x.ancestors, P a
  | [], _ => fun _ hx => absurd hx List.not_mem_nil
  | n :: ns, hns => by
    rw [ofNodes]
    refine List.forall_mem_append.2 ⟨?_, ?_⟩
    · exact forall_ancestors_ofNode h n fun m as cs hm => hns m as cs (List.mem_append_left _ hm)
    · exact forall_ancestors_ofNodes h ns fun m as cs hm => hns m as cs (List.mem_append_right _ hm)

end

variable {t : Text} {ns : List Node}

/-- **The names of elements** are in lower case. -/
theorem lower_of_mem_ancestors (hns : Document.ofText t = .ok ns) :
    ∀ x ∈ ofDocument ns, ∀ a ∈ x.ancestors, a = documentName ∨ Text.lower a = a := by
  refine forall_ancestors_ofNodes (P := fun a => a = documentName ∨ Text.lower a = a)
    (List.forall_mem_singleton.2 (Or.inl rfl)) ns fun name attributes children hm => Or.inr ?_
  exact (isRegular_of_ofText hns _ hm).1.lower

/-- Without demos, the elements with a title belong into the outline. -/
theorem listed_of_forall {isDemo : Text → Bool} {es : List Placed}
    (h : ∀ x ∈ es, ∀ a ∈ x.ancestors, isDemo a = false) :
    listed isDemo es = listed (fun _ => false) es := by
  refine List.filter_congr fun x hx => ?_
  rw [decide_eq_decide]
  exact ⟨fun hl => ⟨fun _ _ => rfl, hl.2⟩, fun hl => ⟨h x hx, hl.2⟩⟩

variable {e : Text} {outer : List Text}

/-- **A name with a capital letter** is the name of no element. -/
theorem isNamedBy_of_capital (hns : Document.ofText t = .ok ns) (he : e ≠ documentName)
    (hcapital : Text.lower e ≠ e) :
    ∀ x ∈ ofDocument ns, ∀ a ∈ x.ancestors, isNamedBy (.text e) a = false := by
  refine fun x hx a ha => beq_eq_false_iff_ne.2 ?_
  change e ≠ a
  rintro rfl
  exact (lower_of_mem_ancestors hns x hx e ha).elim he hcapital

/-- **A name in lower case** hides what stands in the element. -/
theorem listed_eq_nil {es : List Placed} (h : ∀ x ∈ es, e ∈ x.ancestors) :
    listed (isNamedBy (.text e)) es = [] := by
  refine List.filter_eq_nil_iff.2 fun x hx => ?_
  rw [decide_eq_true_eq]
  rintro ⟨hno, -⟩
  have hyes : isNamedBy (.text e) e = true := beq_self_eq_true e
  rw [hno e (h x hx)] at hyes
  cases hyes

/-! ## Stretches of a document -/

/-- **A stretch of a document** in which an element stays open: the headings in it belong into the
outline exactly if the name for demos is not in lower case. -/
theorem listed_around {before inside after : Text} {ts us : List Token} (hbefore : IsRead before ts)
    (hinside : IsRead inside us) (he : e ≠ documentName)
    (hkeeps : (Course.start.after ts).Keeps (Text.lower e :: outer) us)
    (hns : Document.ofText (before ++ inside ++ after) = .ok ns) :
    ∃ out within rest : List Placed, ofDocument ns = out ++ within ++ rest ∧
      within.map opened = (Course.start.after ts).allOpened [documentName] us ∧
      listed (isNamedBy (.text e)) (ofDocument ns) =
        listed (isNamedBy (.text e)) out ++
          (if Text.lower e = e then [] else listed (fun _ => false) within) ++
            listed (isNamedBy (.text e)) rest := by
  obtain ⟨vs, rfl⟩ := (hbefore.append hinside).exists_tokens hns
  have hopened := map_opened_ofDocument (ts ++ us ++ vs)
  rw [Course.allOpened_append, Course.allOpened_append] at hopened
  -- the places are split where the tokens are
  obtain ⟨start, rest, hsplit, hstart, -⟩ := List.map_eq_append_iff.1 hopened
  obtain ⟨out, within, rfl, -, hwithin⟩ := List.map_eq_append_iff.1 hstart
  refine ⟨out, within, rest, hsplit, hwithin, ?_⟩
  rw [hsplit, listed_append, listed_append]
  split
  · next hlower =>
    -- the element is an ancestor of each place inside, so none of them is listed
    have hnil : listed (isNamedBy (.text e)) within = [] := listed_eq_nil fun x hx => by
      have hmem : x.opened ∈ (Course.start.after ts).allOpened [documentName] us :=
        hwithin ▸ List.mem_map_of_mem hx
      obtain ⟨inner, hinner⟩ := Course.exists_ancestors hkeeps hmem
      change x.ancestors = _ at hinner
      rw [hinner, hlower]
      simp
    rw [hnil]
  · next hcapital =>
    have hno := isNamedBy_of_capital hns he hcapital
    rw [hsplit] at hno
    rw [@listed_of_forall (isNamedBy (.text e)) within fun x hx => hno x (by simp [hx])]

end Placed

end Showcase.Outline
