import Showcase.Proofs.Document.Reading

/-!
# Drafts

What one token changes in the draft of a document. A run of texts becomes one node (`flush_eq`), a
node comes into the innermost open element and changes nothing else (`addAll_open`), and closing
this element makes it a node of the element around it (`close_open`). At the end, open elements are
closed in the same way (`nodes_open`).
-/

namespace Showcase.Document

/-- White space alone as one character, unless the place keeps it. -/
def condensed (keeps : Bool) (t : Text) : Text :=
  if t.all Draft.isSpace && !keeps then if '\n' ∈ t then ['\n'] else [' '] else t

/-- White space of HTML is white space. -/
theorem isBlank_of_isSpace {c : Char} (h : Draft.isSpace c = true) : Text.isBlank c = true := by
  simp only [Draft.isSpace, Bool.or_eq_true, beq_iff_eq] at h
  rcases h with (((rfl | rfl) | rfl) | rfl) | rfl <;> decide

/-- Condensing a text changes nothing but its white space. -/
theorem inked_condensed (keeps : Bool) (t : Text) :
    Text.inked (condensed keeps t) = Text.inked t := by
  rw [condensed]
  split
  · next h =>
    have hspace := List.all_eq_true.1 (Bool.and_eq_true_iff.1 h).1
    rw [Text.inked_of_blank fun c hc => isBlank_of_isSpace (hspace c hc)]
    split <;> decide
  · rfl

/-- A text in the tree; an empty text is no node. -/
def textNode (holder : Option Text) (keeps : Bool) (t : Text) : List Node :=
  if t = [] then [] else [.text holder (condensed keeps t)]

namespace Draft

/-- White space counts in the innermost open element. -/
def keeps (d : Draft) : Bool := d.stack.any (keepsSpace ·.name)

/-- The draft with several nodes in the innermost open element. -/
def addAll (d : Draft) (ns : List Node) : Draft := ns.foldl (fun d n => d.add n) d

/-- The draft with the letters of a text as its run. -/
def withRun (d : Draft) (t : Text) : Draft := { d with run := (t.map fun c => [c]).reverse }

variable {d : Draft}

theorem condense_eq (d : Draft) (t : Text) : d.condense t = condensed d.keeps t := rfl

theorem withRun_nil (h : d.run = []) : d.withRun [] = d := by
  rw [withRun, List.map_nil, List.reverse_nil, ← h]

theorem add_run (d : Draft) (n : Node) : (d.add n).run = d.run := by
  rw [add]
  split <;> rfl

theorem add_awaited (d : Draft) (n : Node) : (d.add n).awaited = d.awaited := by
  rw [add]
  split <;> rfl

/-- A node is added to the innermost open element, and no element is opened or closed by it. -/
theorem add_names (d : Draft) (n : Node) : (d.add n).stack.map (·.name) = d.stack.map (·.name) := by
  rw [add]
  split
  · rfl
  · next h => rw [h]; rfl

/-- What holds a text is told by the names of the open elements. -/
theorem holder_eq (d : Draft) : d.holder = (d.stack.map (·.name)).find? isHolder := by
  rw [holder, List.find?_map]
  rfl

/-- Whether white space is kept is told by the names of the open elements. -/
theorem keeps_eq (d : Draft) : d.keeps = (d.stack.map (·.name)).any keepsSpace := by
  rw [keeps, List.any_map]
  rfl

theorem add_holder (d : Draft) (n : Node) : (d.add n).holder = d.holder := by
  rw [holder_eq, holder_eq, add_names]

theorem add_keeps (d : Draft) (n : Node) : (d.add n).keeps = d.keeps := by
  rw [keeps_eq, keeps_eq, add_names]

/-- What no added node changes, several added nodes do not change. -/
theorem addAll_eq {α : Type} {f : Draft → α} (hf : ∀ (d : Draft) (n : Node), f (d.add n) = f d)
    (d : Draft) (ns : List Node) : f (d.addAll ns) = f d := by
  induction ns generalizing d with
  | nil => rfl
  | cons n ns ih => exact (ih (d.add n)).trans (hf d n)

/-- Nodes in a row are added one after the other. -/
theorem addAll_append (d : Draft) (ms ns : List Node) :
    d.addAll (ms ++ ns) = (d.addAll ms).addAll ns := List.foldl_append

/-- A run of texts, none of them empty, becomes a text in the innermost open element. -/
theorem flush_eq (h : d.run = []) {run : List Text} {t : Text} (hflat : run.reverse.flatten = t)
    (hrun : t = [] → run = []) :
    { d with run := run }.flush = d.addAll (textNode d.holder d.keeps t) := by
  have hd : { d with run := [] } = d := by rw [← h]
  rw [textNode, flush, hd]
  by_cases ht : t = []
  · rw [if_pos ht, if_pos (hrun ht), hrun ht]
    exact hd
  · have hne : run ≠ [] := by
      rintro rfl
      exact ht hflat.symm
    rw [if_neg ht, if_neg hne, hflat]
    rfl

/-- The text that was gathered becomes a node, unless there is none. -/
theorem flush_withRun (h : d.run = []) (t : Text) :
    (d.withRun t).flush = d.addAll (textNode d.holder d.keeps t) :=
  flush_eq h (by rw [List.reverse_reverse, ← List.flatMap_def, List.flatMap_singleton'])
    fun ht => by rw [ht, List.map_nil, List.reverse_nil]

theorem flush_run (d : Draft) : d.flush.run = [] := by
  rw [flush]
  split
  · next h => exact h
  · exact add_run _ _

theorem flush_awaited : d.flush.awaited = d.awaited := by
  rw [flush]
  split
  · rfl
  · exact add_awaited _ _

/-- Adding to an open element changes nothing but this element. -/
theorem addAll_open (name : Text) (attributes : List Attribute) (ms ns : List Node) (d : Draft) :
    { d with stack := ⟨name, attributes, ms⟩ :: d.stack }.addAll ns =
      { d with stack := ⟨name, attributes, ns.reverse ++ ms⟩ :: d.stack } := by
  induction ns generalizing ms with
  | nil => rfl
  | cons n ns ih =>
    refine (ih (n :: ms)).trans ?_
    rw [List.reverse_cons, List.append_assoc, List.singleton_append]

/-- Closing the innermost element adds it to the one around it, with what was added to it. -/
theorem close_open (name : Text) (attributes : List Attribute) (ns : List Node) (d : Draft) :
    { d with stack := ⟨name, attributes, ns.reverse⟩ :: d.stack }.close name =
      d.add (.element name attributes ns) := by
  rw [close, if_pos (by simp)]
  simp only [unwind, if_pos, List.nil_append, List.reverse_reverse]
  rfl

/-- Letters are gathered. -/
theorem foldl_letterTokens_withRun (d : Draft) (t u : Text) :
    (letterTokens u).foldl read (d.withRun t) = d.withRun (t ++ u) := by
  rw [foldl_letterTokens, withRun, withRun, List.map_append, List.reverse_append]

/-- What is added to a draft without open elements stands in no element. -/
theorem addAll_top (top ns : List Node) :
    addAll ⟨[], [], top, []⟩ ns = ⟨[], [], ns.reverse ++ top, []⟩ := by
  induction ns generalizing top with
  | nil => rfl
  | cons n ns ih =>
    refine (ih (n :: top)).trans ?_
    rw [List.reverse_cons, List.append_assoc, List.singleton_append]

theorem flush_eq_self {d : Draft} (h : d.run = []) : d.flush = d := if_pos h

/-- Whether an element is closed makes no difference at the end. -/
theorem nodes_open (name : Text) (attributes : List Attribute) (ns : List Node) {d : Draft}
    (h : d.run = []) :
    { d with stack := ⟨name, attributes, ns.reverse⟩ :: d.stack }.nodes =
      (d.add (.element name attributes ns)).nodes := by
  have hopen : { d with stack := ⟨name, attributes, ns.reverse⟩ :: d.stack }.run = [] := h
  rw [nodes, nodes, flush_eq_self hopen, flush_eq_self ((add_run _ _).trans h)]
  simp only [unwindAll, List.nil_append, List.reverse_reverse]
  rw [add]
  cases d.stack with
  | nil => rfl
  | cons e es => rfl

end Draft

end Showcase.Document
