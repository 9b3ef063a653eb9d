import Showcase.Proofs.Document.Draft
import Showcase.Proofs.Document.Orderly

/-!
# Nodes of documents

Every node of a document that was read is `Node.IsRegular`: elements and attributes have names that
are read as such, no attribute stands twice, nothing stands in an element that never has anything in
it, and neither a note nor an element without markup has its own end in it.

The tokens of a document are orderly, and a draft of such nodes stays one under orderly tokens. In
the end its nodes are those of the document (`Draft.isSound_nodes_foldl`).

Main statement: `isRegular_of_ofText`.
-/

namespace Showcase.Document

namespace Node

mutual

/-- A node and all nodes in it, in their order in the document. -/
def parts : Node → List Node
  | .element name attributes children => .element name attributes children :: partsOf children
  | n => [n]

/-- Several nodes and all nodes in them. -/
def partsOf : List Node → List Node
  | [] => []
  | n :: ns => parts n ++ partsOf ns

end

/-- The parts of several nodes are those of each of them. -/
theorem mem_partsOf {m : Node} {ns : List Node} : m ∈ partsOf ns ↔ ∃ n ∈ ns, m ∈ n.parts := by
  induction ns with
  | nil => simp [partsOf]
  | cons n ns ih => simp [partsOf, ih]

/-- A node is a part of itself. -/
theorem mem_parts_self (n : Node) : n ∈ n.parts := by
  cases n <;> exact List.mem_cons_self

mutual

/-- What is in a part of a node is in the node. -/
theorem mem_parts_trans {k m : Node} : ∀ n : Node, k ∈ n.parts → m ∈ k.parts → m ∈ n.parts
  | .text _ _, hk, hm => List.mem_singleton.1 hk ▸ hm
  | .note _ _, hk, hm => List.mem_singleton.1 hk ▸ hm
  | .element name attributes children, hk, hm => by
    rw [parts] at hk ⊢
    rcases List.mem_cons.1 hk with rfl | hk
    · rwa [parts] at hm
    · exact List.mem_cons_of_mem _ (mem_partsOf_trans children hk hm)

/-- The parts of parts are parts. -/
theorem mem_partsOf_trans {k m : Node} :
    ∀ ns : List Node, k ∈ partsOf ns → m ∈ k.parts → m ∈ partsOf ns
  | [], hk, _ => by cases hk
  | n :: ns, hk, hm => by
    rw [partsOf, List.mem_append] at hk ⊢
    exact hk.imp (fun hk => mem_parts_trans n hk hm) fun hk => mem_partsOf_trans ns hk hm

end

/-! ## Nodes that can be read -/

/-- The children of an element without markup: at most one text, in which the element does not end.
-/
def IsContent (name : Text) (children : List Node) : Prop :=
  children = [] ∨ ∃ holder content, children = [.text holder content] ∧
    until? (afterVerbatim? name) content = none

/-- The node, apart from what is in it, is one that a document can have. -/
def IsRegular : Node → Prop
  | .text _ _ => True
  | .note kind data => kind.IsWhole data
  | .element name attributes children =>
    IsName name ∧ (∀ a ∈ attributes, IsKey a.1) ∧ (attributes.map (·.1)).Nodup ∧
      (isVoid name = true → children = []) ∧ (isVerbatim name = true → IsContent name children)

/-- The node and all nodes in it are regular. -/
def IsSound (n : Node) : Prop := ∀ m ∈ n.parts, m.IsRegular

/-- An element is sound if its own form is regular and its children are sound. -/
theorem isSound_element {name : Text} {attributes : List Attribute} {children : List Node}
    (h : (element name attributes children).IsRegular) (hchildren : ∀ n ∈ children, n.IsSound) :
    (element name attributes children).IsSound := by
  rw [IsSound, parts]
  refine List.forall_mem_cons.2 ⟨h, fun m hm => ?_⟩
  obtain ⟨n, hn, hm⟩ := mem_partsOf.1 hm
  exact hchildren n hn m hm

/-- Nothing can be wrong with a text. -/
theorem isSound_text (holder : Option Text) (data : Text) : (text holder data).IsSound :=
  List.forall_mem_singleton.2 trivial

/-- A note is sound if its end is not in it. -/
theorem isSound_note {kind : NoteKind} {data : Text} (h : kind.IsWhole data) :
    (note kind data).IsSound :=
  List.forall_mem_singleton.2 h

end Node

/-! ## Attributes -/

/-- Setting an attribute adds its name, if it is new. -/
theorem keys_setAttribute (as : List Attribute) (a : Attribute) :
    (setAttribute as a).map (·.1) =
      if a.1 ∈ as.map (·.1) then as.map (·.1) else as.map (·.1) ++ [a.1] := by
  have hany : as.any (·.1 == a.1) = true ↔ a.1 ∈ as.map (·.1) := by
    simp [List.any_eq_true, List.mem_map]
  rw [setAttribute]
  simp only [hany]
  split
  · rw [List.map_map]
    refine List.map_congr_left fun b _ => ?_
    simp only [Function.comp]
    split
    · next h => exact h.symm
    · rfl
  · exact List.map_append

/-- Attributes that are set one after the other have different keys, all of them given. -/
theorem keys_foldl_setAttribute {as bs : List Attribute} (h : (as.map (·.1)).Nodup) :
    ((bs.foldl setAttribute as).map (·.1)).Nodup ∧
      ∀ key ∈ (bs.foldl setAttribute as).map (·.1), key ∈ (as ++ bs).map (·.1) := by
  induction bs generalizing as with
  | nil => exact ⟨h, fun key hkey => by rwa [List.append_nil]⟩
  | cons b bs ih =>
    -- a key that is there already is set in its place
    have hset : ((setAttribute as b).map (·.1)).Nodup := by
      rw [keys_setAttribute]
      split
      · exact h
      · next hb => exact List.nodup_append.2 ⟨h, by simp, by
          rintro k hk _ hb' rfl
          exact hb (List.mem_singleton.1 hb' ▸ hk)⟩
    obtain ⟨hnodup, hmem⟩ := ih hset
    refine ⟨hnodup, fun key hkey => ?_⟩
    have := hmem key hkey
    rw [List.map_append, keys_setAttribute] at this
    split at this
    · simp only [List.map_append, List.mem_append, List.map_cons, List.mem_cons] at this ⊢
      exact this.imp_right Or.inr
    · simpa [or_assoc] using this

/-- The attributes of an element have their names once each. -/
theorem keys_lastAttributes {as : List Attribute} (has : ∀ a ∈ as, IsKey a.1) :
    ((lastAttributes as).map (·.1)).Nodup ∧ ∀ a ∈ lastAttributes as, IsKey a.1 := by
  obtain ⟨hnodup, hmem⟩ := @keys_foldl_setAttribute [] as List.nodup_nil
  refine ⟨hnodup, fun a ha => ?_⟩
  obtain ⟨b, hb, e⟩ := List.mem_map.1 (hmem a.1 (List.mem_map_of_mem ha))
  exact e ▸ has b hb

/-! ## Drafts -/

/-- An open element is one that can have anything in it, and so far it has sound nodes. -/
structure Open.IsRegular (e : Open) : Prop where
  name : IsName e.name
  keys : ∀ a ∈ e.attributes, IsKey a.1
  distinct : (e.attributes.map (·.1)).Nodup
  void : isVoid e.name = false
  verbatim : isVerbatim e.name = false
  children : ∀ n ∈ e.children, n.IsSound

/-- The draft has sound nodes, and no closing tag of an element that can have anything in it is
awaited. -/
structure Draft.IsRegular (d : Draft) : Prop where
  top : ∀ n ∈ d.top, n.IsSound
  stack : ∀ e ∈ d.stack, e.IsRegular
  awaited : ∀ name ∈ d.awaited, isVoid name = true

/-- An open element that is closed is sound, if what is added to it at last is. -/
theorem Open.IsRegular.closed {e : Open} (h : e.IsRegular) {done : List Node}
    (hdone : ∀ n ∈ done, n.IsSound) :
    (Node.element e.name e.attributes (done ++ e.children).reverse).IsSound := by
  refine Node.isSound_element ⟨h.name, h.keys, h.distinct, fun hv => ?_, fun hv => ?_⟩
    fun n hn => ?_
  · rw [h.void] at hv
    cases hv
  · rw [h.verbatim] at hv
    cases hv
  · rw [List.mem_reverse, List.mem_append] at hn
    exact hn.elim (hdone n) (h.children n)

namespace Draft

/-- Before anything is read, all is well. -/
theorem isRegular_empty : empty.IsRegular :=
  ⟨fun _ h => absurd h List.not_mem_nil, fun _ h => absurd h List.not_mem_nil,
    fun _ h => absurd h List.not_mem_nil⟩

variable {d : Draft}

/-- A sound node may be added anywhere. -/
theorem IsRegular.add (h : d.IsRegular) {n : Node} (hn : n.IsSound) : (d.add n).IsRegular := by
  rw [Draft.add]
  split
  · exact ⟨List.forall_mem_cons.2 ⟨hn, h.top⟩, h.stack, h.awaited⟩
  · next e es hes =>
    have hstack := h.stack
    rw [hes] at hstack
    obtain ⟨he, hes'⟩ := List.forall_mem_cons.1 hstack
    refine ⟨h.top, List.forall_mem_cons.2 ⟨?_, hes'⟩, h.awaited⟩
    exact ⟨he.name, he.keys, he.distinct, he.void, he.verbatim,
      List.forall_mem_cons.2 ⟨hn, he.children⟩⟩

/-- The run of texts becomes a sound node. -/
theorem IsRegular.flush (h : d.IsRegular) : d.flush.IsRegular := by
  rw [Draft.flush]
  split
  · exact h
  · have hd : { d with run := [] }.IsRegular := ⟨h.top, h.stack, h.awaited⟩
    exact hd.add (Node.isSound_text _ _)

/-- Sound nodes may be added one after the other. -/
theorem IsRegular.foldr_add (h : d.IsRegular) {ns : List Node} (hns : ∀ n ∈ ns, n.IsSound) :
    (ns.foldr Draft.add d).IsRegular := by
  induction ns with
  | nil => exact h
  | cons n ns ih =>
    obtain ⟨hn, hns⟩ := List.forall_mem_cons.1 hns
    exact (ih hns).add hn

/-- Closing elements makes sound nodes of them. -/
theorem isSound_unwind (name : Text) {done : List Node} {es : List Open}
    (hdone : ∀ n ∈ done, n.IsSound) (hes : ∀ e ∈ es, e.IsRegular) :
    (∀ n ∈ (unwind name done es).1, n.IsSound) ∧ ∀ e ∈ (unwind name done es).2, e.IsRegular := by
  induction es generalizing done with
  | nil => exact ⟨hdone, hes⟩
  | cons e es ih =>
    obtain ⟨he, hes⟩ := List.forall_mem_cons.1 hes
    have hclosed := List.forall_mem_singleton.2 (he.closed hdone)
    rw [unwind]
    split
    · exact ⟨hclosed, hes⟩
    · exact ih hclosed hes

/-- A draft stays regular when an element is closed. -/
theorem IsRegular.close (h : d.IsRegular) (name : Text) : (d.close name).IsRegular := by
  rw [Draft.close]
  split
  · obtain ⟨hnodes, hstack⟩ := @isSound_unwind name [] d.stack (by simp) h.stack
    have hd : { d with stack := (unwind name [] d.stack).2 }.IsRegular :=
      ⟨h.top, hstack, h.awaited⟩
    exact hd.foldr_add hnodes
  · exact h

/-- A note of nothing but white space is still whole when that is condensed. -/
theorem isWhole_condense {kind : NoteKind} {data : Text} (h : kind.IsWhole data) :
    kind.IsWhole (d.condense data) := by
  have hspace : ∀ c ∈ ['\n', ' '], NoteKind.IsWhole [c] kind := by
    cases kind <;> exact Text.forall_mem_of_all (by decide)
  rw [condense]
  split
  · split
    · exact hspace _ (by decide)
    · exact hspace _ (by decide)
  · exact h

/-- A draft stays regular when a note is read. -/
theorem IsRegular.note (h : d.IsRegular) {kind : NoteKind} {data : Text}
    (hdata : kind.IsWhole data) :
    (d.read (.note kind data)).IsRegular :=
  h.flush.add (Node.isSound_note (isWhole_condense hdata))

/-- A draft stays regular when an opening tag is read. -/
theorem IsRegular.opening (h : d.IsRegular) {name : Text} {as : List Attribute} {closed : Bool}
    (hname : IsName name) (has : ∀ a ∈ as, IsKey a.1)
    (hclosed : closed = true ∨ isVerbatim name = false) :
    (d.read (.opening name as closed)).IsRegular := by
  obtain ⟨hnodup, hkeys⟩ := keys_lastAttributes has
  have helement : (Node.element name (lastAttributes as) []).IsSound :=
    Node.isSound_element ⟨hname, hkeys, hnodup, fun _ => rfl, fun _ => Or.inl rfl⟩ (by simp)
  rw [read]
  dsimp only
  split
  · exact h.flush.add helement
  · next hc =>
    split
    · next hv =>
      have hadd := h.flush.add helement
      exact ⟨hadd.top, hadd.stack, List.forall_mem_cons.2 ⟨hv, h.flush.awaited⟩⟩
    · next hv =>
      refine ⟨h.flush.top, List.forall_mem_cons.2 ⟨?_, h.flush.stack⟩, h.flush.awaited⟩
      exact ⟨hname, hkeys, hnodup, by simpa using hv, hclosed.resolve_left hc, by simp⟩

/-- A draft stays regular when a closing tag is read. -/
theorem IsRegular.closing (h : d.IsRegular) (name : Text) :
    (d.read (.closing name)).IsRegular := by
  rw [read]
  split
  · exact ⟨h.top, h.stack, fun n hn => h.awaited n (List.mem_of_mem_erase hn)⟩
  · exact h.flush.close name

/-- Elements without markup may have something in them. -/
theorem isVoid_of_isVerbatim {name : Text} (h : isVerbatim name = true) : isVoid name = false := by
  simp only [isVerbatim, Bool.or_eq_true, beq_iff_eq] at h
  rcases h with rfl | rfl <;> decide +kernel

/-- A text without its closing tag is the content of an element without markup. -/
theorem isContent_textNode {name : Text} (hname : isVerbatim name = true) {content : Text}
    (h : until? (afterVerbatim? name) content = none) (holder : Option Text) (keeps : Bool) :
    Node.IsContent name (textNode holder keeps content) := by
  rw [textNode]
  split
  · exact Or.inl rfl
  · refine Or.inr ⟨holder, _, rfl, ?_⟩
    have hspace : ∀ c ∈ ['\n', ' '], until? (afterVerbatim? name) [c] = none := by
      simp only [isVerbatim, Bool.or_eq_true, beq_iff_eq] at hname
      rcases hname with rfl | rfl <;> exact Text.forall_mem_of_all (by decide +kernel)
    rw [condensed]
    split
    · split
      · exact hspace _ (by decide)
      · exact hspace _ (by decide)
    · exact h

/-- The node of a text is sound, if there is one. -/
theorem isSound_textNode (holder : Option Text) (keeps : Bool) (t : Text) :
    ∀ n ∈ textNode holder keeps t, n.IsSound := by
  rw [textNode]
  split
  · exact fun n hn => absurd hn List.not_mem_nil
  · exact List.forall_mem_singleton.2 (Node.isSound_text _ _)

/-- The draft in which the only text of an element without markup has been read. -/
theorem exists_flush_verbatim {name : Text} (hname : isVerbatim name = true) (as : List Attribute)
    {content : Text} (h : until? (afterVerbatim? name) content = none) (d : Draft) :
    ∃ ns, Node.IsContent name ns ∧ (∀ n ∈ ns, n.IsSound) ∧
      ((.opening name as false :: textToken content).foldl read d).flush =
        { d.flush with stack := ⟨name, lastAttributes as, ns.reverse⟩ :: d.flush.stack } := by
  have hvoid := isVoid_of_isVerbatim hname
  -- the draft inside of the element that was just opened
  let inner : Draft := { d.flush with stack := ⟨name, lastAttributes as, []⟩ :: d.flush.stack }
  have hopen : d.read (.opening name as false) = inner := by
    rw [read, hvoid]
    rfl
  have hrun : inner.run = [] := flush_run d
  have hflush : ((textToken content).foldl read inner).flush =
      inner.addAll (textNode inner.holder inner.keeps content) := by
    rw [textToken]
    split
    · next hc =>
      rw [textNode, if_pos hc]
      exact flush_eq_self hrun
    · next hc =>
      have e : [Token.text content].foldl read inner = { inner with run := [content] } := by
        rw [List.foldl_cons, List.foldl_nil, read, hrun]
      rw [e]
      exact flush_eq hrun (by simp) fun h => absurd h hc
  refine ⟨textNode inner.holder inner.keeps content, isContent_textNode hname h _ _,
    isSound_textNode _ _ _, ?_⟩
  rw [List.foldl_cons, hopen, hflush, addAll_open, List.append_nil]

/-- An element without markup may be added as a whole. -/
theorem IsRegular.verbatim (h : d.IsRegular) {name : Text} {as : List Attribute} {ns : List Node}
    (hname : IsName name) (has : ∀ a ∈ as, IsKey a.1) (hv : isVerbatim name = true)
    (hcontent : Node.IsContent name ns) (hns : ∀ n ∈ ns, n.IsSound) :
    (d.flush.add (.element name (lastAttributes as) ns)).IsRegular := by
  obtain ⟨hnodup, hkeys⟩ := keys_lastAttributes has
  refine h.flush.add
    (Node.isSound_element ⟨hname, hkeys, hnodup, fun hvoid => ?_, fun _ => hcontent⟩ hns)
  rw [isVoid_of_isVerbatim hv] at hvoid
  cases hvoid

/-- What is open at the end makes sound nodes too. -/
theorem isSound_unwindAll {done : List Node} {es : List Open} (hdone : ∀ n ∈ done, n.IsSound)
    (hes : ∀ e ∈ es, e.IsRegular) : ∀ n ∈ unwindAll done es, n.IsSound := by
  induction es generalizing done with
  | nil => exact hdone
  | cons e es ih =>
    obtain ⟨he, hes⟩ := List.forall_mem_cons.1 hes
    exact ih (List.forall_mem_singleton.2 (he.closed hdone)) hes

/-- **The nodes of a regular draft are sound.** -/
theorem IsRegular.nodes (h : d.IsRegular) : ∀ n ∈ d.nodes, n.IsSound := by
  intro n hn
  rcases List.mem_append.1 (List.mem_reverse.1 hn) with hn | hn
  · exact isSound_unwindAll (by simp) h.flush.stack n hn
  · exact h.flush.top n hn

/-- **Regular drafts** stay regular, and in the end all their nodes are sound. -/
theorem isSound_nodes_foldl {tokens : List Token} (htokens : Orderly tokens) (h : d.IsRegular) :
    ∀ n ∈ (tokens.foldl read d).nodes, n.IsSound := by
  induction htokens generalizing d with
  | nil => exact h.nodes
  | text t _ ih => exact ih ⟨h.top, h.stack, h.awaited⟩
  | half n _ ih => exact ih ⟨h.top, h.stack, h.awaited⟩
  | note hdata _ ih => exact ih (h.note hdata)
  | opening hname has hclosed _ ih => exact ih (h.opening hname has hclosed)
  | closing name _ ih => exact ih (h.closing name)
  | @verbatim name as content ts hname has hv hcontent _ ih =>
    obtain ⟨ns, hns, hsound, hflush⟩ := exists_flush_verbatim hv as hcontent d
    rw [← List.cons_append, List.foldl_append, List.foldl_cons]
    generalize (Token.opening name as false :: textToken content).foldl read d = e at hflush
    -- only elements that never have anything in them are awaited, so the tag is not passed over
    have hawaited : name ∉ e.awaited := by
      rw [← flush_awaited, hflush]
      intro hmem
      have := h.flush.awaited name hmem
      rw [isVoid_of_isVerbatim hv] at this
      cases this
    have hclose : e.read (.closing name) = d.flush.add (.element name (lastAttributes as) ns) := by
      rw [read, if_neg hawaited, hflush, close_open]
    rw [hclose]
    exact ih (h.verbatim hname has hv hns hsound)
  | @unclosed name as content hname has hv hcontent =>
    obtain ⟨ns, hns, hsound, hflush⟩ := exists_flush_verbatim hv as hcontent d
    generalize (Token.opening name as false :: textToken content).foldl read d = e at hflush ⊢
    have hnodes : e.nodes = (d.flush.add (.element name (lastAttributes as) ns)).nodes := by
      rw [← nodes_open _ _ _ (flush_run d), ← hflush, Draft.nodes, Draft.nodes,
        flush_eq_self (flush_run e)]
    rw [hnodes]
    exact (h.verbatim hname has hv hns hsound).nodes

end Draft

/-- **Every node of a document is regular.** -/
theorem isRegular_of_ofText {t : Text} {ns : List Node} (h : ofText t = .ok ns) :
    ∀ m ∈ Node.partsOf ns, m.IsRegular := by
  obtain ⟨ts, ht, rfl⟩ := exists_of_map_eq_ok h
  intro m hm
  obtain ⟨n, hn, hm⟩ := Node.mem_partsOf.1 hm
  exact Draft.isSound_nodes_foldl (orderly_tokensFrom ht) Draft.isRegular_empty n hn m hm

end Showcase.Document
