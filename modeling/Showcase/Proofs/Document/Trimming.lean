import Showcase.Proofs.Document.Writing

/-!
# Trimmed contents

White space at the ends of what is written comes from texts at the ends of the nodes that are
written. Taking it away from the nodes (`trimmed`) and taking it away from what is written are the
same (`strip_htmls`), so that trimmed HTML is read as the trimmed nodes (`ofText_strip_htmls`).
-/

namespace Showcase.Document

/-! ## Nodes without white space at their ends -/

/-- The nodes with `f` done to their first text until it leaves something; texts of which nothing is
left are dropped. -/
def trimFrom (f : Text → Text) : List Node → List Node
  | .text holder data :: ns =>
    match f data with
    | [] => trimFrom f ns
    | c :: t => .text holder (c :: t) :: ns
  | ns => ns

/-- The nodes without white space at their ends. -/
def trimmed (ns : List Node) : List Node :=
  (trimFrom (Text.trimEnd Text.isBlank) (trimFrom (List.dropWhile Text.isBlank) ns).reverse).reverse

/-- Trimming leaves nodes as they are or shortens texts. -/
theorem mem_trimFrom {f : Text → Text} {n : Node} {ns : List Node} (h : n ∈ trimFrom f ns) :
    n ∈ ns ∨ ∃ holder data, n = .text holder data := by
  fun_induction trimFrom f ns with
  | case1 holder data ns hdata ih => exact (ih h).imp_left (List.mem_cons_of_mem _)
  | case2 holder data ns c t hdata =>
    rcases List.mem_cons.1 h with rfl | h
    · exact Or.inr ⟨_, _, rfl⟩
    · exact Or.inl (List.mem_cons_of_mem _ h)
  | case3 => exact Or.inl h

/-- Trimming changes the outermost texts only. -/
theorem mem_trimmed {n : Node} {ns : List Node} (h : n ∈ trimmed ns) :
    n ∈ ns ∨ ∃ holder data, n = .text holder data := by
  rcases mem_trimFrom (List.mem_reverse.1 h) with h | h
  · exact mem_trimFrom (List.mem_reverse.1 h)
  · exact Or.inr h

/-- Trimming takes away white space only, from either end. -/
theorem gistOf_trimFrom {f : Text → Text} (hf : ∀ t, Text.inked (f t) = Text.inked t)
    (ns : List Node) :
    Node.gistOf (trimFrom f ns) = Node.gistOf ns ∧
      Node.gistOf (trimFrom f ns).reverse = Node.gistOf ns.reverse := by
  fun_induction trimFrom f ns with
  | case1 holder data ns hdata ih =>
    have hgist : Node.gist (.text holder data) = [] := by rw [Node.gist, ← hf, hdata]; rfl
    refine ⟨ih.1.trans ?_, ih.2.trans ?_⟩
    · rw [Node.gistOf, hgist, List.nil_append]
    · rw [List.reverse_cons, Node.gistOf_append, Node.gistOf_singleton, hgist, List.append_nil]
  | case2 holder data ns c t hdata =>
    have hgist : Node.gist (.text holder (c :: t)) = Node.gist (.text holder data) := by
      rw [Node.gist, Node.gist, ← hf data, hdata]
    refine ⟨?_, ?_⟩
    · rw [Node.gistOf, Node.gistOf, hgist]
    · rw [List.reverse_cons, List.reverse_cons, Node.gistOf_append, Node.gistOf_append,
        Node.gistOf_singleton, Node.gistOf_singleton, hgist]
  | case3 => exact ⟨rfl, rfl⟩

/-- Trimming changes nothing but white space. -/
theorem gistOf_trimmed (ns : List Node) : Node.gistOf (trimmed ns) = Node.gistOf ns := by
  rw [trimmed, (gistOf_trimFrom Text.inked_trimEnd _).2, List.reverse_reverse,
    (gistOf_trimFrom Text.inked_dropWhile _).1]

/-! ## Written texts -/

/-- What is written for a character that is no white space begins and ends with no white space. -/
theorem writtenChar_ends {c : Char} (hc : Text.isBlank c = false) :
    (∃ d t, writtenChar c = d :: t ∧ Text.isBlank d = false) ∧
      ∃ d t, writtenChar c = t ++ [d] ∧ Text.isBlank d = false := by
  rcases writtenChar_cases c with ⟨name, -, h⟩ | ⟨-, -, -, h⟩
  · exact ⟨⟨'&', _, h, by decide⟩, ';', '&' :: name, h, by decide⟩
  · exact ⟨⟨c, [], h, hc⟩, c, [], h, hc⟩

theorem writtenText_of_blank {t : Text} (ht : ∀ c ∈ t, Text.isBlank c = true) :
    writtenText t = t :=
  writtenText_eq_self fun c hc => Text.not_mem_of_all (ht c hc) (by decide)

/-- Leading white space is the same before and after escaping. -/
theorem dropWhile_writtenText (t u : Text) :
    (writtenText t ++ u).dropWhile Text.isBlank =
      match t.dropWhile Text.isBlank with
      | [] => u.dropWhile Text.isBlank
      | c :: r => writtenText (c :: r) ++ u := by
  induction t with
  | nil => rfl
  | cons c t ih =>
    cases hc : Text.isBlank c with
    | true =>
      have h := writtenText_of_blank (t := [c]) (List.forall_mem_singleton.2 hc)
      rw [writtenText, List.flatMap_singleton] at h
      rw [writtenText, List.flatMap_cons, ← writtenText, h, List.append_assoc,
        List.singleton_append, List.dropWhile_cons_of_pos hc, List.dropWhile_cons_of_pos hc, ih]
    | false =>
      obtain ⟨⟨d, r, hd, hblank⟩, -⟩ := writtenChar_ends hc
      have hc' : ¬ Text.isBlank c = true := by simp [hc]
      have hd' : ¬ Text.isBlank d = true := by simp [hblank]
      have hwritten : writtenText (c :: t) ++ u = d :: (r ++ writtenText t ++ u) := by
        rw [writtenText, List.flatMap_cons, hd]
        rfl
      rw [List.dropWhile_cons_of_neg hc', hwritten, List.dropWhile_cons_of_neg hd', ← hwritten]

/-- So is white space at the end. -/
theorem trimEnd_writtenText (t u : Text) :
    Text.trimEnd Text.isBlank (u ++ writtenText t) =
      match Text.trimEnd Text.isBlank t with
      | [] => Text.trimEnd Text.isBlank u
      | c :: r => u ++ writtenText (c :: r) := by
  rcases Text.all_or_last Text.isBlank t with h | ⟨a, c, w, rfl, hc, hw⟩
  · rw [Text.trimEnd_eq_nil h, writtenText_of_blank h, Text.trimEnd_append h]
  · obtain ⟨-, d, r, hd, hblank⟩ := writtenChar_ends hc
    have hwritten : writtenText (a ++ c :: w) = writtenText a ++ r ++ d :: w := by
      rw [writtenText, List.flatMap_append, List.flatMap_cons, ← writtenText, ← writtenText,
        writtenText_of_blank hw, hd]
      simp
    have hlast : writtenText (a ++ [c]) = writtenText a ++ r ++ [d] := by
      rw [writtenText, List.flatMap_append, List.flatMap_singleton, ← writtenText, hd,
        List.append_assoc]
    rw [hwritten, ← List.append_assoc, Text.trimEnd_append_cons hblank,
      Text.trimEnd_append_cons hc, Text.trimEnd_eq_nil hw]
    split
    · next h => exact absurd h (by simp)
    · next h => rw [← h, hlast, List.append_assoc]

/-! ## Written nodes -/

/-- A written node that is no text begins and ends with marks. -/
theorem exists_html {n : Node} (hn : n.Returns) (htext : ∀ holder data, n ≠ .text holder data) :
    ∃ t, n.html false = '<' :: (t ++ ['>']) := by
  match n, hn, htext with
  | .text holder data, _, h => exact absurd rfl (h holder data)
  | .note kind data, hn, _ =>
    -- each kind of note has brackets of its own; declarations do not return
    obtain ⟨hcomment, hsection, hinstruction⟩ := noteHtml_cases data
    rw [Node.html]
    match kind, hn with
    | .comment, _ => exact ⟨'!' :: '-' :: '-' :: (data ++ ['-', '-']), by rw [hcomment]; simp⟩
    | .section, _ =>
      exact ⟨'!' :: '[' :: (sectionBeginning ++ (data ++ [']', ']'])), by rw [hsection]; simp⟩
    | .instruction, _ => exact ⟨'?' :: data, by rw [hinstruction]; simp⟩
    | .declaration, hn => exact absurd rfl hn.1
    | .doctype, hn => exact absurd rfl hn.2
  | .element name attributes children, _, _ =>
    rw [Node.html]
    split
    · exact ⟨name ++ writtenAttributes name attributes ++ ['/'], by simp⟩
    · exact ⟨name ++ writtenAttributes name attributes ++
        '>' :: (Node.htmls (isVerbatim name) children ++ '<' :: '/' :: name), by simp⟩

theorem htmls_append (ms ns : List Node) :
    Node.htmls false (ms ++ ns) = Node.htmls false ms ++ Node.htmls false ns := by
  induction ms with
  | nil => rfl
  | cons m ms ih => rw [List.cons_append, Node.htmls, Node.htmls, ih, List.append_assoc]

/-- Trimming the nodes at the front trims their HTML. -/
theorem dropWhile_htmls {ns : List Node} (h : ∀ n ∈ ns, n.Returns) :
    (Node.htmls false ns).dropWhile Text.isBlank =
      Node.htmls false (trimFrom (List.dropWhile Text.isBlank) ns) := by
  fun_induction trimFrom (List.dropWhile Text.isBlank) ns with
  | case1 holder data ns hdata ih =>
    rw [Node.htmls, Node.html, if_neg Bool.false_ne_true, dropWhile_writtenText, hdata]
    exact ih (List.forall_mem_cons.1 h).2
  | case2 holder data ns c t hdata =>
    rw [Node.htmls, Node.html, if_neg Bool.false_ne_true, dropWhile_writtenText, hdata, Node.htmls,
      Node.html, if_neg Bool.false_ne_true]
  | case3 ns hns =>
    cases ns with
    | nil => rfl
    | cons n ns =>
      obtain ⟨t, e⟩ := exists_html (List.forall_mem_cons.1 h).1 fun holder data e =>
        hns holder data ns (by rw [e])
      rw [Node.htmls, e, List.cons_append, List.dropWhile_cons_of_neg (by decide)]

/-- Trimming the nodes at the end does the same there. -/
theorem trimEnd_htmls {ns : List Node} (h : ∀ n ∈ ns, n.Returns) :
    Text.trimEnd Text.isBlank (Node.htmls false ns.reverse) =
      Node.htmls false (trimFrom (Text.trimEnd Text.isBlank) ns).reverse := by
  -- the nodes are reversed, so that the last one is at the head
  have hlast : ∀ (n : Node) (ms : List Node), Node.htmls false (n :: ms).reverse =
      Node.htmls false ms.reverse ++ n.html false := fun n ms => by
    rw [List.reverse_cons, htmls_append, Node.htmls, Node.htmls, List.append_nil]
  fun_induction trimFrom (Text.trimEnd Text.isBlank) ns with
  | case1 holder data ns hdata ih =>
    rw [hlast, Node.html, if_neg Bool.false_ne_true, trimEnd_writtenText, hdata]
    exact ih (List.forall_mem_cons.1 h).2
  | case2 holder data ns c t hdata =>
    rw [hlast, Node.html, if_neg Bool.false_ne_true, trimEnd_writtenText, hdata, hlast, Node.html,
      if_neg Bool.false_ne_true]
  | case3 ns hns =>
    cases ns with
    | nil => rfl
    | cons n ns =>
      -- a node that is no text ends with a bracket, where trimming stops
      obtain ⟨t, e⟩ := exists_html (List.forall_mem_cons.1 h).1 fun holder data e =>
        hns holder data ns (by rw [e])
      rw [hlast, e, ← List.cons_append, ← List.append_assoc, Text.trimEnd_append_cons (by decide)]
      rfl

/-- **Trimmed HTML** is the HTML of trimmed nodes. -/
theorem strip_htmls {ns : List Node} (h : ∀ n ∈ ns, n.Returns) :
    Text.strip (Node.htmls false ns) = Node.htmls false (trimmed ns) := by
  have hstart : ∀ n ∈ (trimFrom (List.dropWhile Text.isBlank) ns).reverse, n.Returns := by
    intro n hn
    rcases mem_trimFrom (List.mem_reverse.1 hn) with hn | ⟨holder, data, rfl⟩
    · exact h n hn
    · trivial
  have hend := trimEnd_htmls hstart
  rw [List.reverse_reverse] at hend
  rw [Text.strip, Text.trim, dropWhile_htmls h, hend, trimmed]

/-- **Trimmed HTML is read** as the trimmed nodes. -/
theorem ofText_strip_htmls {ns : List Node}
    (h : ∀ m ∈ Node.partsOf ns, m.IsRegular ∧ m.Returns) :
    ofText (Text.strip (Node.htmls false ns)) =
      .ok (Node.settledAfter none false [] (trimmed ns)) := by
  have hmem : ∀ n ∈ ns, n.Returns := fun n hn =>
    (h n (Node.mem_partsOf.2 ⟨n, hn, Node.mem_parts_self n⟩)).2
  rw [strip_htmls hmem]
  refine ofText_htmls fun m hm => ?_
  obtain ⟨n, hn, hm⟩ := Node.mem_partsOf.1 hm
  rcases mem_trimmed hn with hn | ⟨holder, data, rfl⟩
  · exact h m (Node.mem_partsOf.2 ⟨n, hn, hm⟩)
  · rw [Node.parts, List.mem_singleton] at hm
    · exact hm ▸ ⟨trivial, trivial⟩
    · exact fun _ _ _ e => nomatch e

end Showcase.Document
