import Showcase.Proofs.Document.Draft

/-!
# The course of the open elements

Which elements a document has, and what each of them stands in, is settled when their opening tags
are read: an element stands in those that are open then. So the elements of a document can be
followed on its tokens, with no more to remember than the names of the open elements and of those
whose closing tags are still awaited (`Course`).

A draft has its elements in the tree and on the stack. Reading a token adds the element that it
opens (`elements_read`); joining texts, closing elements and coming to the end change nothing
(`elements_flush`, `elements_close`, `ofNodes_nodes`).

Main statement: `ofNodes_ofTokens`.
-/

namespace Showcase.Document

/-- An element as its opening tag shows it. -/
structure Opened where
  /-- the names of what it stands in, the innermost first -/
  ancestors : List Text
  /-- its name -/
  name : Text
  /-- its attributes -/
  attributes : List Attribute

namespace Opened

mutual

/-- The elements of a node, in their order in the document. -/
def ofNode (ancestors : List Text) : Node → List Opened
  | .element name attributes children =>
    ⟨ancestors, name, attributes⟩ :: ofNodes (name :: ancestors) children
  | _ => []

/-- The elements of several nodes, in their order in the document. -/
def ofNodes (ancestors : List Text) : List Node → List Opened
  | [] => []
  | n :: ns => ofNode ancestors n ++ ofNodes ancestors ns

end

/-- The elements of nodes in a row. -/
theorem ofNodes_append (ancestors : List Text) (ms ns : List Node) :
    ofNodes ancestors (ms ++ ns) = ofNodes ancestors ms ++ ofNodes ancestors ns := by
  induction ms with
  | nil => rfl
  | cons m ms ih => rw [List.cons_append, ofNodes, ih, ofNodes, List.append_assoc]

theorem ofNodes_singleton (ancestors : List Text) (n : Node) :
    ofNodes ancestors [n] = ofNode ancestors n := by
  rw [ofNodes, ofNodes, List.append_nil]

end Opened

/-- What is open. -/
structure Course where
  /-- the names of the open elements, the innermost first -/
  stack : List Text
  /-- the names of elements that are closed and may still get a closing tag -/
  awaited : List Text

namespace Course

/-- Nothing is open. -/
def start : Course := ⟨[], []⟩

/-- What is open after a token. -/
def read (p : Course) : Token → Course
  | .opening name _ closed =>
    if closed then p
    else if isVoid name then { p with awaited := name :: p.awaited }
    else { p with stack := name :: p.stack }
  | .closing name =>
    if name ∈ p.awaited then { p with awaited := p.awaited.erase name }
    else if name ∈ p.stack then { p with stack := (p.stack.dropWhile (· != name)).drop 1 }
    else p
  | _ => p

/-- What is open after several tokens. -/
def after (p : Course) (tokens : List Token) : Course := tokens.foldl read p

/-- The element that a token opens; `base` is what the document stands in. -/
def opened (base : List Text) (p : Course) : Token → List Opened
  | .opening name attributes _ => [⟨p.stack ++ base, name, lastAttributes attributes⟩]
  | _ => []

/-- The elements that several tokens open. -/
def allOpened (base : List Text) : Course → List Token → List Opened
  | _, [] => []
  | p, t :: ts => p.opened base t ++ allOpened base (p.read t) ts

/-- Tokens in a row lead from place to place. -/
theorem after_append (p : Course) (ts us : List Token) :
    p.after (ts ++ us) = (p.after ts).after us := List.foldl_append

/-- What is opened by tokens in a row; the second ones start where the first ones lead. -/
theorem allOpened_append (base : List Text) (p : Course) (ts us : List Token) :
    allOpened base p (ts ++ us) = allOpened base p ts ++ allOpened base (p.after ts) us := by
  induction ts generalizing p with
  | nil => rfl
  | cons t ts ih =>
    rw [List.cons_append, allOpened, ih, allOpened, List.append_assoc]
    rfl

end Course

namespace Draft

variable {base : List Text}

/-- What is open in a draft. -/
def course (d : Draft) : Course := ⟨d.stack.map (·.name), d.awaited⟩

/-- The elements in the tree and on the stack, in their order in the document. -/
def elementsOf (base : List Text) (top : List Node) : List Open → List Opened
  | [] => Opened.ofNodes base top.reverse
  | e :: es =>
    elementsOf base top es ++ ⟨es.map (·.name) ++ base, e.name, e.attributes⟩ ::
      Opened.ofNodes (e.name :: (es.map (·.name) ++ base)) e.children.reverse

/-- The elements of a draft. -/
def elements (base : List Text) (d : Draft) : List Opened := elementsOf base d.top d.stack

/-! ## Adding and joining -/

/-- A node changes no place. -/
theorem course_add (d : Draft) (n : Node) : (d.add n).course = d.course := by
  rw [course, course, add_names, add_awaited]

/-- An added node has its elements after all others. -/
theorem elements_add (d : Draft) (n : Node) :
    (d.add n).elements base =
      d.elements base ++ Opened.ofNode (d.stack.map (·.name) ++ base) n := by
  rw [add]
  split
  · next h =>
    simp only [elements, h, elementsOf, List.reverse_cons, Opened.ofNodes_append,
      Opened.ofNodes_singleton, List.map_nil, List.nil_append]
  · next e es h =>
    simp only [elements, h, elementsOf, List.reverse_cons, Opened.ofNodes_append,
      Opened.ofNodes_singleton, List.map_cons, List.cons_append, List.append_assoc]

/-- Nor does the text that was gathered. -/
theorem course_flush (d : Draft) : d.flush.course = d.course := by
  rw [flush]
  split
  · rfl
  · exact course_add _ _

/-- A text has no elements. -/
theorem elements_flush (d : Draft) : d.flush.elements base = d.elements base := by
  rw [flush]
  split
  · rfl
  · rw [elements_add, Opened.ofNode]
    · exact List.append_nil _
    · exact fun _ _ _ e => Node.noConfusion e

/-! ## Closing -/

/-- Nodes that are put into an open element, the last first. -/
theorem foldr_add_open (ns : List Node) (e : Open) (es : List Open) (d : Draft) :
    ns.foldr add { d with stack := e :: es } =
      { d with stack := { e with children := ns ++ e.children } :: es } := by
  induction ns with
  | nil => rfl
  | cons n ns ih => rw [List.foldr_cons, ih, add]; rfl

/-- Closing the innermost element makes it a node of the element around it. -/
theorem elements_closed (e : Open) (d : Draft) (done : List Node) :
    (d.add (.element e.name e.attributes (done ++ e.children).reverse)).elements base =
      (done.foldr add { d with stack := e :: d.stack }).elements base := by
  rw [elements_add, Opened.ofNode, foldr_add_open]
  rfl

/-- What is closed, and then put into the element that is left innermost, has its elements where
they were; `done` is what is closed already. -/
theorem elements_unwind (name : Text) (d : Draft) (done : List Node) (es : List Open) :
    ((unwind name done es).1.foldr add { d with stack := (unwind name done es).2 }).elements base =
      (done.foldr add { d with stack := es }).elements base := by
  induction es generalizing done with
  | nil => rfl
  | cons e es ih =>
    have hstep := @elements_closed base e { d with stack := es } done
    rw [unwind]
    split
    · exact hstep
    · exact (ih _).trans hstep

theorem elements_close (d : Draft) (name : Text) :
    (d.close name).elements base = d.elements base := by
  rw [close]
  split
  · exact elements_unwind name d [] d.stack
  · rfl

/-- Closing an element closes all that is open inside of it. -/
theorem names_unwind (name : Text) (done : List Node) {es : List Open}
    (h : name ∈ es.map (·.name)) :
    (unwind name done es).2.map (·.name) =
      ((es.map (·.name)).dropWhile (· != name)).drop 1 := by
  induction es generalizing done with
  | nil => cases h
  | cons e es ih =>
    rw [unwind, List.map_cons]
    split
    · next he =>
      rw [List.dropWhile_cons_of_neg (by simp [he])]
      rfl
    · next he =>
      rw [List.dropWhile_cons_of_pos (by simp [he])]
      exact ih _ ((List.mem_cons.1 h).resolve_left (Ne.symm he))

theorem course_foldr_add (ns : List Node) (d : Draft) : (ns.foldr add d).course = d.course := by
  induction ns with
  | nil => rfl
  | cons n ns ih => rw [List.foldr_cons, course_add, ih]

/-- An end tag leads out of the element of its name, if one is open. -/
theorem course_close (d : Draft) (name : Text) :
    (d.close name).course =
      if name ∈ d.course.stack then
        { d.course with stack := (d.course.stack.dropWhile (· != name)).drop 1 }
      else d.course := by
  have hany : d.stack.any (·.name == name) = true ↔ name ∈ d.course.stack := by
    simp [course, List.any_eq_true, List.mem_map]
  rw [close]
  simp only [hany]
  split
  · next h =>
    rw [course_foldr_add, course, names_unwind name [] h]
    rfl
  · rfl

/-! ## Reading -/

/-- **A draft is where its tokens lead**, whatever else is in it. -/
theorem course_read (d : Draft) (t : Token) : (d.read t).course = d.course.read t := by
  cases t with
  | text t => rfl
  | half n => rfl
  | note kind data =>
    rw [read, course_add, course_flush]
    rfl
  | opening name attributes closed =>
    simp only [read, Course.read]
    -- an element that is void or closed at once is not entered
    split
    · rw [course_add, course_flush]
    · split
      · rw [course, add_names, ← course_flush d]
        rfl
      · rw [course, ← course_flush d]
        rfl
  | closing name =>
    simp only [read, Course.read]
    split
    · next h => exact (if_pos h).symm
    · next h =>
      rw [course_close, course_flush]
      exact (if_neg h).symm

/-- **A token** adds the element that it opens. -/
theorem elements_read (d : Draft) (t : Token) :
    (d.read t).elements base = d.elements base ++ d.course.opened base t := by
  cases t with
  | text t => exact (List.append_nil _).symm
  | half n => exact (List.append_nil _).symm
  | note kind data =>
    rw [read, elements_add, elements_flush, Opened.ofNode]
    · rfl
    · exact fun _ _ _ e => Node.noConfusion e
  | opening name attributes closed =>
    have hnames : d.flush.stack.map (·.name) = d.stack.map (·.name) :=
      congrArg Course.stack (course_flush d)
    -- the element is the same whether it is entered or added right away
    have hadd : (d.flush.add (.element name (lastAttributes attributes) [])).elements base =
        d.elements base ++ d.course.opened base (.opening name attributes closed) := by
      rw [elements_add, elements_flush, Opened.ofNode, hnames, Opened.ofNodes]
      rfl
    rw [read]
    dsimp only
    split
    · exact hadd
    · split
      · exact hadd
      · rw [← hadd, elements_add, Opened.ofNode]
        rfl
  | closing name =>
    rw [read]
    split
    · exact (List.append_nil _).symm
    · rw [elements_close, elements_flush]
      exact (List.append_nil _).symm

/-- **The elements of a draft are those that its tokens opened**, each with the place at which it
did. -/
theorem elements_foldl (d : Draft) (ts : List Token) :
    (ts.foldl read d).elements base = d.elements base ++ d.course.allOpened base ts := by
  induction ts generalizing d with
  | nil => exact (List.append_nil _).symm
  | cons t ts ih =>
    rw [List.foldl_cons, ih, elements_read, course_read, Course.allOpened, List.append_assoc]

theorem ofNodes_unwindAll (top : List Node) (done : List Node) (es : List Open) :
    Opened.ofNodes base (unwindAll done es ++ top).reverse =
      (done.foldr add ⟨[], es, top, []⟩).elements base := by
  induction es generalizing done with
  | nil =>
    have hfold : done.foldr add ⟨[], [], top, []⟩ = ⟨[], [], done ++ top, []⟩ := by
      induction done with
      | nil => rfl
      | cons n done ih => rw [List.foldr_cons, ih]; rfl
    rw [hfold]
    rfl
  | cons e es ih =>
    rw [unwindAll, ih]
    exact elements_closed e ⟨[], es, top, []⟩ done

/-- In the end the elements are those of the tree. -/
theorem ofNodes_nodes (d : Draft) : Opened.ofNodes base d.nodes = d.elements base := by
  rw [nodes, ofNodes_unwindAll, ← elements_flush d]
  rfl

end Draft

/-- **The elements of a document** are those that its tokens open, and each stands in what is open
then. -/
theorem ofNodes_ofTokens (base : List Text) (ts : List Token) :
    Opened.ofNodes base (ofTokens ts) = Course.start.allOpened base ts := by
  rw [ofTokens, Draft.ofNodes_nodes, Draft.elements_foldl]
  rfl

end Showcase.Document
