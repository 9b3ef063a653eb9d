import Showcase.Proofs.Document.Writing

/-!
# Ordinary elements

Most elements can have anything in them and are found by their closing tags. Whether a name is the
name of such an element can be computed (`isOrdinary`), and that is all there is to be checked
before an element is written and read again (`isRegular_of_isOrdinary`).
-/

namespace Showcase.Document

/-- The name of an element that can have anything in it and is found by its closing tag. -/
def isOrdinary (name : Text) : Bool :=
  (name.head?.map Text.isLetter).getD false && name.all (!Tag.endsName ·)
    && Text.lower name == name && Tag.closingName? name == some name
    && !isVoid name && !isVerbatim name

theorem isName_of_isOrdinary {name : Text} (h : isOrdinary name = true) : IsName name := by
  simp only [isOrdinary, Bool.and_eq_true, beq_iff_eq] at h
  obtain ⟨⟨⟨⟨⟨hletter, hwhole⟩, hlower⟩, -⟩, -⟩, -⟩ := h
  cases name with
  | nil => cases hletter
  | cons c t =>
    exact ⟨⟨c, t, rfl, hletter⟩, fun d hd => Bool.not_inj (List.all_eq_true.1 hwhole d hd), hlower⟩

theorem of_isOrdinary {name : Text} (h : isOrdinary name = true) :
    Tag.closingName? name = some name ∧ isVoid name = false ∧ isVerbatim name = false := by
  simp only [isOrdinary, Bool.and_eq_true, beq_iff_eq, Bool.not_eq_true'] at h
  exact ⟨h.1.1.2, h.1.2, h.2⟩

theorem isRegular_of_isOrdinary {name : Text} (h : isOrdinary name = true)
    {attributes : List Attribute} (hkeys : ∀ a ∈ attributes, IsKey a.1)
    (hdistinct : (attributes.map (·.1)).Nodup) (children : List Node) :
    (Node.element name attributes children).IsRegular ∧
      (Node.element name attributes children).Returns := by
  obtain ⟨hclosing, hvoid, hverbatim⟩ := of_isOrdinary h
  refine ⟨⟨isName_of_isOrdinary h, hkeys, hdistinct, fun hv => ?_, fun hv => ?_⟩, hclosing⟩
  · rw [hvoid] at hv
    cases hv
  · rw [hverbatim] at hv
    cases hv

/-- An ordinary element as HTML. -/
theorem html_of_isOrdinary {name : Text} (h : isOrdinary name = true)
    (attributes : List Attribute) (children : List Node) :
    (Node.element name attributes children).html false =
      '<' :: (name ++ writtenAttributes name attributes ++
        '>' :: (Node.htmls false children ++ '<' :: '/' :: (name ++ ['>']))) := by
  obtain ⟨-, hvoid, hverbatim⟩ := of_isOrdinary h
  rw [Node.html, hvoid, hverbatim]
  rfl

/-! ## Nodes that are written and read again -/

/-- The nodes and all nodes in them are such that they are read as they are written. -/
def AreWritable (ns : List Node) : Prop := ∀ m ∈ Node.partsOf ns, m.IsRegular ∧ m.Returns

theorem areWritable_nil : AreWritable [] := fun _ h => absurd h List.not_mem_nil

theorem areWritable_append {ms ns : List Node} (hms : AreWritable ms) (hns : AreWritable ns) :
    AreWritable (ms ++ ns) := by
  intro m hm
  obtain ⟨n, hn, hm⟩ := Node.mem_partsOf.1 hm
  rcases List.mem_append.1 hn with hn | hn
  · exact hms m (Node.mem_partsOf.2 ⟨n, hn, hm⟩)
  · exact hns m (Node.mem_partsOf.2 ⟨n, hn, hm⟩)

theorem areWritable_text (holder : Option Text) (data : Text) :
    AreWritable [.text holder data] :=
  List.forall_mem_singleton.2 ⟨trivial, trivial⟩

theorem areWritable_element {name : Text} (h : isOrdinary name = true)
    (attributes : List Attribute) (hkeys : ∀ a ∈ attributes, IsKey a.1)
    (hdistinct : (attributes.map (·.1)).Nodup) {children : List Node}
    (hchildren : AreWritable children) : AreWritable [.element name attributes children] := by
  rw [AreWritable, Node.partsOf, Node.partsOf, List.append_nil, Node.parts]
  exact List.forall_mem_cons.2
    ⟨isRegular_of_isOrdinary h hkeys hdistinct children, hchildren⟩

end Showcase.Document
