import Showcase.Proofs.Document.Regular

/-!
# Written nodes

Nodes that are written and read again are the same nodes, as a document has them (`settled`):
neighbouring texts are one text, white space alone is one character, and attributes stand in the
order in which they are written. Nothing else changes (`gistOf_settledAfter`).

This takes nodes as they are in documents that were read (`Node.IsRegular`), and two things that
such nodes may lack (`Node.Returns`): a declaration is written as something else, and an element
whose name ends with white space is not found by its closing tag.

Main statement: `ofText_htmls`.
-/

namespace Showcase.Document

namespace Node

/-- The node is written as what it is: it is no declaration, and its closing tag has its name. -/
def Returns : Node → Prop
  | .text _ _ => True
  | .note kind _ => kind ≠ .declaration ∧ kind ≠ .doctype
  | .element name _ _ => Tag.closingName? name = some name

/-! ## Tokens -/

mutual

/-- The tokens of a written node, with its texts taken apart. -/
def tokens : Node → List Token
  | .text _ data => letterTokens data
  | .note kind data => [.note kind data]
  | .element name attributes children =>
    if isVoid name && children.isEmpty then [.opening name (restated name attributes) true]
    else .opening name (restated name attributes) false :: (tokensOf children ++ [.closing name])

/-- The tokens of several written nodes. -/
def tokensOf : List Node → List Token
  | [] => []
  | n :: ns => tokens n ++ tokensOf ns

end

theorem isKey_of_mem_restated {name : Text} {attributes : List Attribute}
    (h : ∀ a ∈ attributes, IsKey a.1) : ∀ a ∈ restated name attributes, IsKey a.1 := by
  intro a ha
  have hmem := (keys_restated name attributes).mem_iff.1 (List.mem_map_of_mem ha)
  obtain ⟨b, hb, e⟩ := List.mem_map.1 hmem
  exact e ▸ h b hb

/-- The only text of an element without markup, as it is written and as it is read. -/
theorem IsContent.exists_text {name : Text} {children : List Node} (h : IsContent name children) :
    ∃ content, Node.htmls true children = content ∧ tokensOf children = letterTokens content ∧
      until? (afterVerbatim? name) content = none := by
  rcases h with rfl | ⟨holder, content, rfl, h⟩
  · exact ⟨[], rfl, rfl, rfl⟩
  · refine ⟨content, ?_, ?_, h⟩
    · rw [Node.htmls, Node.htmls, Node.html, if_pos rfl, List.append_nil]
    · rw [tokensOf, tokensOf, tokens, List.append_nil]

mutual

/-- **A written node** is read as its tokens, whatever follows it. -/
theorem letters_html (last : Bool) :
    ∀ n : Node, (∀ m ∈ n.parts, m.IsRegular ∧ m.Returns) → ∀ t,
      letters last (n.html false ++ t) = (letters last t).map (n.tokens ++ ·)
  | .text _ data, _, t => by
    rw [Node.html, if_neg Bool.false_ne_true, tokens]
    exact letters_writtenText data t
  | .note kind data, h, t => by
    obtain ⟨hregular, hreturns⟩ := h _ List.mem_cons_self
    rw [Node.html]
    exact letters_note hregular hreturns t
  | .element name attributes children, h, t => by
    rw [parts] at h
    obtain ⟨⟨⟨hname, hkeys, -, hvoid, hverbatim⟩, hclosing⟩, hchildren⟩ := List.forall_mem_cons.1 h
    have has : ∀ a ∈ restated name attributes, IsKey a.1 := isKey_of_mem_restated hkeys
    rw [Node.html, tokens, writtenAttributes_eq]
    split
    · have e :
          '<' :: (name ++ (restated name attributes).flatMap writtenAttribute) ++ ['/', '>'] ++ t =
            '<' :: (name ++
              ((restated name attributes).flatMap writtenAttribute ++ tagEnd true t)) := by
        simp [tagEnd]
      rw [e, letters_opening hname has (Or.inl rfl)]
      rfl
    · have e : '<' :: (name ++ (restated name attributes).flatMap writtenAttribute) ++
            '>' :: (Node.htmls (isVerbatim name) children ++ '<' :: '/' :: (name ++ ['>'])) ++ t
          = '<' :: (name ++ ((restated name attributes).flatMap writtenAttribute ++
            tagEnd false (Node.htmls (isVerbatim name) children ++
              '<' :: '/' :: (name ++ '>' :: t)))) := by
        simp [tagEnd]
      rw [e]
      cases hv : isVerbatim name with
      | false =>
        -- the children are followed by the closing tag, so the general rest is needed
        rw [letters_opening hname has (Or.inr hv), letters_htmls last children hchildren,
          letters_closing hname hclosing]
        cases letters last t with
        | error e => rfl
        | ok ts => exact congrArg Except.ok (by simp)
      | true =>
        obtain ⟨content, hhtml, htokens, huntil⟩ := (hverbatim hv).exists_text
        rw [hhtml, htokens, letters_verbatim hname hv has huntil]

/-- Regular nodes in a row are read back as their tokens. -/
theorem letters_htmls (last : Bool) :
    ∀ ns : List Node, (∀ m ∈ partsOf ns, m.IsRegular ∧ m.Returns) → ∀ t,
      letters last (Node.htmls false ns ++ t) = (letters last t).map (tokensOf ns ++ ·)
  | [], _, t => by
    rw [Node.htmls, List.nil_append]
    cases letters last t <;> rfl
  | n :: ns, h, t => by
    rw [partsOf, List.forall_mem_append] at h
    rw [Node.htmls, List.append_assoc, letters_html last n h.1, letters_htmls last ns h.2, tokensOf]
    cases letters last t with
    | error e => rfl
    | ok ts => exact congrArg Except.ok (List.append_assoc ..).symm

end

/-! ## Settled nodes -/

mutual

/-- A node as a document has it, in a place with the given holder, which keeps white space or not.
-/
def settled (holder : Option Text) (keeps : Bool) : Node → Node
  | .text _ data => .text holder (condensed keeps data)
  | .note kind data => .note kind (condensed keeps data)
  | .element name attributes children =>
    .element name (restated name attributes)
      (settledAfter (if isHolder name then some name else holder) (keepsSpace name || keeps) []
        children)

/-- Several nodes after the text `run`, as a document has them: neighbouring texts are one. -/
def settledAfter (holder : Option Text) (keeps : Bool) (run : Text) : List Node → List Node
  | [] => textNode holder keeps run
  | n :: ns =>
    match n with
    | .text _ data => settledAfter holder keeps (run ++ data) ns
    | n => textNode holder keeps run ++ settled holder keeps n :: settledAfter holder keeps [] ns

end

/-! ## What settling keeps -/

mutual

/-- The gist of a node: its characters and notes without white space, and its tags without
attributes. -/
def gist : Node → List Token
  | .text _ data => letterTokens (Text.inked data)
  | .note kind data => [.note kind (Text.inked data)]
  | .element name _ children => .opening name [] false :: (gistOf children ++ [.closing name])

/-- The gist of several nodes. -/
def gistOf : List Node → List Token
  | [] => []
  | n :: ns => gist n ++ gistOf ns

end

theorem gistOf_append (ms ns : List Node) : gistOf (ms ++ ns) = gistOf ms ++ gistOf ns := by
  induction ms with
  | nil => rfl
  | cons m ms ih => rw [List.cons_append, gistOf, gistOf, ih, List.append_assoc]

theorem gistOf_singleton (n : Node) : gistOf [n] = n.gist := by
  rw [gistOf, gistOf, List.append_nil]

theorem gistOf_textNode (holder : Option Text) (keeps : Bool) (t : Text) :
    gistOf (textNode holder keeps t) = letterTokens (Text.inked t) := by
  rw [textNode]
  split
  · next h => rw [h]; rfl
  · rw [gistOf_singleton, gist, inked_condensed]

mutual

/-- Settling changes white space only. -/
theorem gist_settled (holder : Option Text) (keeps : Bool) :
    ∀ n : Node, (settled holder keeps n).gist = n.gist
  | .text _ data => by rw [settled, gist, gist, inked_condensed]
  | .note kind data => by rw [settled, gist, gist, inked_condensed]
  | .element name attributes children => by
    rw [settled, gist, gist, gistOf_settledAfter]
    rfl

/-- **Settling** changes no more than white space and the way attributes are written. -/
theorem gistOf_settledAfter (holder : Option Text) (keeps : Bool) :
    ∀ (run : Text) (ns : List Node),
      gistOf (settledAfter holder keeps run ns) = letterTokens (Text.inked run) ++ gistOf ns
  | run, [] => by
    rw [settledAfter, gistOf_textNode, gistOf, List.append_nil]
  | run, .text _ data :: ns => by
    rw [settledAfter, gistOf_settledAfter holder keeps (run ++ data) ns, gistOf, gist,
      Text.inked_append, letterTokens, List.map_append, List.append_assoc]
    rfl
  -- any other node ends the run, which becomes a text of its own
  | run, .note kind data :: ns => by
    rw [settledAfter, gistOf_append, gistOf_textNode, gistOf, gistOf,
      gist_settled holder keeps (.note kind data), gistOf_settledAfter holder keeps [] ns]
    · rfl
    · exact fun _ _ e => nomatch e
  | run, .element name attributes children :: ns => by
    rw [settledAfter, gistOf_append, gistOf_textNode, gistOf, gistOf,
      gist_settled holder keeps (.element name attributes children),
      gistOf_settledAfter holder keeps [] ns]
    · rfl
    · exact fun _ _ e => nomatch e

end

end Node

/-- Attributes with keys of their own are set one after the other. -/
theorem foldl_setAttribute {as bs : List Attribute} (h : ((as ++ bs).map (·.1)).Nodup) :
    bs.foldl setAttribute as = as ++ bs := by
  induction bs generalizing as with
  | nil => rw [List.foldl_nil, List.append_nil]
  | cons b bs ih =>
    have hfresh : as.any (·.1 == b.1) = false := by
      rw [List.any_eq_false]
      intro a ha hab
      rw [List.map_append, List.nodup_append] at h
      exact h.2.2 a.1 (List.mem_map_of_mem ha) b.1 List.mem_cons_self (beq_iff_eq.1 hab)
    have happend : as ++ b :: bs = as ++ [b] ++ bs := by rw [List.append_assoc]; rfl
    rw [happend] at h ⊢
    rw [List.foldl_cons, setAttribute, hfresh, if_neg Bool.false_ne_true]
    exact ih h

theorem lastAttributes_restated {name : Text} {attributes : List Attribute}
    (h : (attributes.map (·.1)).Nodup) :
    lastAttributes (restated name attributes) = restated name attributes :=
  foldl_setAttribute ((keys_restated name attributes).nodup_iff.2 h)

namespace Node

mutual

/-- A written node that is no text comes into the draft after the text before it. -/
theorem foldl_tokens :
    ∀ n : Node, (∀ m ∈ n.parts, m.IsRegular) → (∀ holder data, n ≠ .text holder data) →
      ∀ (d : Draft) (t : Text), d.run = [] → d.awaited = [] →
        n.tokens.foldl Draft.read (d.withRun t) =
          (d.addAll (textNode d.holder d.keeps t)).add (n.settled d.holder d.keeps)
  | .text holder data, _, h, _, _, _, _ => absurd rfl (h holder data)
  | .note kind data, _, _, d, t, hrun, _ => by
    have hkeeps := Draft.addAll_eq (f := Draft.keeps) Draft.add_keeps d
      (textNode d.holder d.keeps t)
    rw [tokens, settled, List.foldl_cons, List.foldl_nil, Draft.read, Draft.flush_withRun hrun,
      Draft.condense_eq, hkeeps]
  | .element name attributes children, h, _, d, t, hrun, hawaited => by
    rw [parts] at h
    obtain ⟨⟨-, -, hdistinct, hvoid, -⟩, hchildren⟩ := List.forall_mem_cons.1 h
    have hlast : lastAttributes (restated name attributes) = restated name attributes :=
      lastAttributes_restated hdistinct
    rw [tokens, settled]
    split
    · next hempty =>
      have hchildren : children = [] := List.isEmpty_iff.1 (Bool.and_eq_true_iff.1 hempty).2
      rw [List.foldl_cons, List.foldl_nil, Draft.read, Draft.flush_withRun hrun, hlast, hchildren]
      rfl
    · next hempty =>
      have hname : isVoid name = false := by
        cases hname : isVoid name with
        | false => rfl
        | true => exact absurd (by rw [hname, hvoid hname]; rfl) hempty
      -- the draft in which the children are read
      let e := d.addAll (textNode d.holder d.keeps t)
      let inner : Draft := { e with stack := ⟨name, restated name attributes, []⟩ :: e.stack }
      have hopen : (d.withRun t).read (.opening name (restated name attributes) false) = inner := by
        rw [Draft.read, Draft.flush_withRun hrun, hlast, hname]
        rfl
      have hholder : inner.holder = if isHolder name then some name else d.holder := by
        have he : e.holder = d.holder := Draft.addAll_eq Draft.add_holder d _
        rw [Draft.holder_eq] at he ⊢
        rw [List.map_cons, List.find?_cons, ← he]
        cases isHolder name <;> rfl
      have hkeeps : inner.keeps = (keepsSpace name || d.keeps) := by
        have he : e.keeps = d.keeps := Draft.addAll_eq Draft.add_keeps d _
        rw [Draft.keeps_eq] at he ⊢
        rw [List.map_cons, List.any_cons, ← he]
      have hrun' : inner.run = [] := (Draft.addAll_eq Draft.add_run d _).trans hrun
      have hawaited' : inner.awaited = [] := (Draft.addAll_eq Draft.add_awaited d _).trans hawaited
      have hinner := foldl_tokensOf children hchildren inner [] hrun' hawaited'
      rw [Draft.withRun_nil hrun', hholder, hkeeps, Draft.addAll_open, List.append_nil] at hinner
      have hnone : ((tokensOf children).foldl Draft.read inner).awaited = [] := by
        rw [← Draft.flush_awaited, hinner]
        exact hawaited'
      rw [List.foldl_cons, hopen, List.foldl_append, List.foldl_cons, List.foldl_nil, Draft.read,
        hnone, if_neg List.not_mem_nil, hinner, Draft.close_open]

/-- Written nodes come into the draft as a document has them. -/
theorem foldl_tokensOf :
    ∀ ns : List Node, (∀ m ∈ partsOf ns, m.IsRegular) →
      ∀ (d : Draft) (t : Text), d.run = [] → d.awaited = [] →
        ((tokensOf ns).foldl Draft.read (d.withRun t)).flush =
          d.addAll (settledAfter d.holder d.keeps t ns)
  | [], _, d, t, hrun, _ => Draft.flush_withRun hrun t
  | n :: ns, h, d, t, hrun, hawaited => by
    rw [partsOf, List.forall_mem_append] at h
    rw [tokensOf, List.foldl_append]
    by_cases htext : ∃ holder data, n = .text holder data
    · obtain ⟨holder, data, rfl⟩ := htext
      rw [tokens, Draft.foldl_letterTokens_withRun, settledAfter]
      exact foldl_tokensOf ns h.2 d (t ++ data) hrun hawaited
    · have htext' : ∀ holder data, n ≠ .text holder data :=
        fun holder data e => htext ⟨holder, data, e⟩
      -- the draft in which the run of texts has ended and `n` stands after it
      let e := (d.addAll (textNode d.holder d.keeps t)).add (n.settled d.holder d.keeps)
      have hrun' : e.run = [] := by
        rw [Draft.add_run, Draft.addAll_eq (f := Draft.run) Draft.add_run, hrun]
      have hawaited' : e.awaited = [] := by
        rw [Draft.add_awaited, Draft.addAll_eq (f := Draft.awaited) Draft.add_awaited, hawaited]
      have hholder : e.holder = d.holder := by
        rw [Draft.add_holder, Draft.addAll_eq (f := Draft.holder) Draft.add_holder]
      have hkeeps : e.keeps = d.keeps := by
        rw [Draft.add_keeps, Draft.addAll_eq (f := Draft.keeps) Draft.add_keeps]
      have hrest := foldl_tokensOf ns h.2 e [] hrun' hawaited'
      rw [Draft.withRun_nil hrun', hholder, hkeeps] at hrest
      have hsettled : settledAfter d.holder d.keeps t (n :: ns) =
          textNode d.holder d.keeps t ++
            n.settled d.holder d.keeps :: settledAfter d.holder d.keeps [] ns := by
        rw [settledAfter]
        exact htext'
      rw [foldl_tokens n h.1 htext' d t hrun hawaited, hsettled, Draft.addAll_append]
      exact hrest

end

end Node

/-- The tree of written nodes. -/
theorem ofTokens_tokensOf {ns : List Node} (h : ∀ m ∈ Node.partsOf ns, m.IsRegular) :
    ofTokens (Node.tokensOf ns) = Node.settledAfter none false [] ns := by
  have hfold := Node.foldl_tokensOf ns h Draft.empty [] rfl rfl
  rw [Draft.withRun_nil rfl] at hfold
  have htop := Draft.addAll_top [] (Node.settledAfter none false [] ns)
  rw [ofTokens, Draft.nodes, hfold]
  change (let d := Draft.addAll ⟨[], [], [], []⟩ (Node.settledAfter none false [] ns)
    (Draft.unwindAll [] d.stack ++ d.top).reverse) = _
  rw [htop]
  simp only [Draft.unwindAll, List.nil_append, List.append_nil, List.reverse_reverse]

/-- **Written nodes are read again** as they are. -/
theorem ofText_htmls {ns : List Node} (h : ∀ m ∈ Node.partsOf ns, m.IsRegular ∧ m.Returns) :
    ofText (Node.htmls false ns) = .ok (Node.settledAfter none false [] ns) := by
  have hletters := Node.letters_htmls false ns h []
  rw [List.append_nil, letters_nil] at hletters
  have htree := ofTokens_tokensOf fun m hm => (h m hm).1
  rw [ofText_eq, hletters]
  refine congrArg Except.ok ?_
  rw [← htree]
  exact congrArg ofTokens (List.append_nil _)

end Showcase.Document
