import Showcase.Proofs.Outline.TitleHtml

/-!
# Plain titles

A reader of a page sees the text of a heading: all texts in it, one directly behind the other, but
no notes and no permalinks (`visibleTextsOf`), and any white space between words as one space
(`visibleTitle`).

The plain title of a heading is made in another way: texts are trimmed and get single spaces between
them (`title_eq`). They come from the children of the heading by two ways. A text or note that
stands in the heading itself is taken as it is; of an element the texts are taken that have the
holder of a text of this element. So the title differs from what a reader sees for three reasons:

* A word or a mark that goes on from one text into the next is torn apart by a space, and white
  space within a text is kept as it is.
* A note in the heading itself is added, and so is a permalink inside another element.
* The texts of an element are missed if the heading stands in an element that keeps its text apart,
  as all headings of a component do.

The main statement, `title_eq_visibleTitle_iff`, says that there is no other reason.
-/

namespace Showcase.Outline

open Document Text

/-! ## What is seen and what is taken -/

mutual

/-- The texts in a node that a reader of the page sees. A marked section counts as text. -/
def visibleTexts : Node → List Text
  | .text _ data => [data]
  | .note kind data => if kind = .section then [data] else []
  | .element _ attributes children =>
    if isPermalink attributes then [] else visibleTextsOf children

/-- The texts in several nodes that a reader of the page sees. -/
def visibleTextsOf : List Node → List Text
  | [] => []
  | n :: ns => visibleTexts n ++ visibleTextsOf ns

end

/-- The title of a heading as a reader of the page sees it. -/
def visibleTitle (children : List Node) : Text := spaced (visibleTextsOf children).flatten

/-- The holder that the texts of an element have if nothing else in it keeps its text apart. -/
def ownHolder (name : Text) : Option Text := if isHolder name then some name else none

/-- The texts that a child of a heading adds to the plain title. -/
def takenTexts : Node → List Text
  | .text _ data | .note _ data => [data]
  | .element name attributes children =>
    if isPermalink attributes then [] else Node.textsOf (ownHolder name) children

/-- The texts that are taken for a plain title. -/
def takenTextsOf (children : List Node) : List Text := children.flatMap takenTexts

/-- The title of a node gathers the texts that are taken from it. -/
theorem plainPart_eq (n : Node) : plainPart n = gathered (takenTexts n) := by
  have hsingle (data : Text) : strip data = gathered [data] := by
    by_cases h : strip data = []
    · simp [gathered, h, joinWith]
    · simp [gathered, h, joinWith]
  cases n with
  | text holder data => exact hsingle data
  | note kind data => exact hsingle data
  | element name attributes children =>
    rw [plainPart, takenTexts]
    split
    · rfl
    · rfl

/-- The plain title gathers the texts that are taken for it. -/
theorem title_eq (children : List Node) : title children = gathered (takenTextsOf children) := by
  rw [title, List.map_congr_left fun n _ => plainPart_eq n, joinWith_gathered, strip_gathered]
  rfl

/-! ## Leaves -/

/-- A text or note in a heading. -/
structure Leaf where
  /-- what is in it -/
  data : Text
  /-- a reader of the page sees it -/
  isVisible : Bool
  /-- it is taken for the plain title -/
  isTaken : Bool

namespace Leaf

/-- It is taken, though a reader of the page does not see it. -/
def isAdded (l : Leaf) : Bool := l.isTaken && !l.isVisible

/-- A reader of the page sees it, though it is not taken. -/
def isMissed (l : Leaf) : Bool := l.isVisible && !l.isTaken

end Leaf

mutual

/-- The texts and notes in a node inside of a child of a heading. Texts with the given holder are
taken; what is hidden stands in a permalink. -/
def leavesIn (holder : Option Text) (isHidden : Bool) : Node → List Leaf
  | .text h data => [⟨data, !isHidden, h == holder⟩]
  | .note kind data => [⟨data, !isHidden && kind == .section, kind == .section && holder == none⟩]
  | .element _ attributes children =>
    leavesInAll holder (isHidden || isPermalink attributes) children

/-- The texts and notes in several nodes inside of a child of a heading. -/
def leavesInAll (holder : Option Text) (isHidden : Bool) : List Node → List Leaf
  | [] => []
  | n :: ns => leavesIn holder isHidden n ++ leavesInAll holder isHidden ns

end

/-- The texts and notes in a child of a heading that is no permalink. -/
def leaves : Node → List Leaf
  | .text _ data => [⟨data, true, true⟩]
  | .note kind data => [⟨data, kind == .section, true⟩]
  | .element name attributes children =>
    if isPermalink attributes then [] else leavesInAll (ownHolder name) false children

/-- What is in the leaves of one kind. -/
def dataOf (kind : Leaf → Bool) (ls : List Leaf) : List Text := (ls.filter kind).map (·.data)

/-- The data of leaves in a row. -/
theorem dataOf_append (kind : Leaf → Bool) (ls ms : List Leaf) :
    dataOf kind (ls ++ ms) = dataOf kind ls ++ dataOf kind ms := by
  rw [dataOf, List.filter_append, List.map_append]
  rfl

theorem dataOf_cons (kind : Leaf → Bool) (l : Leaf) (ls : List Leaf) :
    dataOf kind (l :: ls) = (if kind l then [l.data] else []) ++ dataOf kind ls := by
  cases h : kind l <;> simp [dataOf, h]

mutual

/-- Both readings go over the same leaves: the visible ones make the text that is seen, and those
that are taken make the title. -/
theorem dataOf_leavesIn (holder : Option Text) (isHidden : Bool) :
    ∀ n : Node, dataOf Leaf.isVisible (leavesIn holder isHidden n) =
        (if isHidden then [] else visibleTexts n) ∧
      dataOf Leaf.isTaken (leavesIn holder isHidden n) = Node.texts holder n
  | .text h data => by
    cases isHidden <;> by_cases hh : h = holder <;>
      simp [leavesIn, dataOf, visibleTexts, Node.texts, hh]
  | .note kind data => by
    cases isHidden <;> by_cases hk : kind = .section <;> by_cases hh : holder = none <;>
      simp [leavesIn, dataOf, visibleTexts, Node.texts, hk, hh]
  | .element name attributes children => by
    have h := dataOf_leavesInAll holder (isHidden || isPermalink attributes) children
    rw [leavesIn, visibleTexts, Node.texts]
    refine ⟨h.1.trans ?_, h.2⟩
    cases isHidden <;> simp

theorem dataOf_leavesInAll (holder : Option Text) (isHidden : Bool) :
    ∀ ns : List Node, dataOf Leaf.isVisible (leavesInAll holder isHidden ns) =
        (if isHidden then [] else visibleTextsOf ns) ∧
      dataOf Leaf.isTaken (leavesInAll holder isHidden ns) = Node.textsOf holder ns
  | [] => by simp [leavesInAll, dataOf, visibleTextsOf, Node.textsOf]
  | n :: ns => by
    have h := dataOf_leavesIn holder isHidden n
    have hs := dataOf_leavesInAll holder isHidden ns
    rw [leavesInAll, dataOf_append, dataOf_append, h.1, h.2, hs.1, hs.2, visibleTextsOf,
      Node.textsOf]
    cases isHidden <;> simp

end

/-- The data of the leaves of one child. -/
theorem dataOf_leaves (n : Node) :
    dataOf Leaf.isVisible (leaves n) = visibleTexts n ∧
      dataOf Leaf.isTaken (leaves n) = takenTexts n := by
  cases n with
  | text holder data => simp [leaves, dataOf, visibleTexts, takenTexts]
  | note kind data =>
    by_cases hk : kind = .section <;> simp [leaves, dataOf, visibleTexts, takenTexts, hk]
  | element name attributes children =>
    rw [leaves, visibleTexts, takenTexts]
    split
    · exact ⟨rfl, rfl⟩
    · exact dataOf_leavesInAll (ownHolder name) false children

/-- The texts and notes in the children of a heading. -/
def leavesOf (children : List Node) : List Leaf := children.flatMap leaves

/-- The texts and notes in a heading make up what is seen of it, and its plain title. -/
theorem dataOf_leavesOf (children : List Node) :
    dataOf Leaf.isVisible (leavesOf children) = visibleTextsOf children ∧
      dataOf Leaf.isTaken (leavesOf children) = takenTextsOf children := by
  induction children with
  | nil => exact ⟨rfl, rfl⟩
  | cons n ns ih =>
    rw [leavesOf, takenTextsOf, List.flatMap_cons, List.flatMap_cons, dataOf_append, dataOf_append,
      (dataOf_leaves n).1, (dataOf_leaves n).2, visibleTextsOf, ← leavesOf, ih.1, ih.2]
    exact ⟨rfl, rfl⟩

/-! ## What is added and what is missed -/

/-- There is nothing but white space in the texts. -/
def AreBlank (ts : List Text) : Prop := ∀ t ∈ ts, isBlankText t = true

/-- Texts are blank if they have no weight together. -/
theorem areBlank_iff {ts : List Text} : AreBlank ts ↔ weight ts.flatten = 0 := by
  rw [weight, List.length_eq_zero_iff, inked, List.filter_eq_nil_iff]
  constructor
  · intro h c hc
    obtain ⟨t, ht, hc⟩ := List.mem_flatten.1 hc
    simpa using List.all_eq_true.1 (h t ht) c hc
  · intro h t ht
    refine List.all_eq_true.2 fun c hc => ?_
    simpa using h c (List.mem_flatten.2 ⟨t, ht, hc⟩)

/-- The words of several texts have what is no white space in them. -/
theorem weight_flatten_flatMap_words (ts : List Text) :
    weight ts.flatten = (ts.flatMap words).flatten.length := by
  induction ts with
  | nil => rfl
  | cons t ts ih =>
    rw [List.flatten_cons, weight_append, ih, List.flatMap_cons, List.flatten_append,
      List.length_append, flatten_words]
    rfl

/-- What is added and what is missed make the difference between what is taken and what is seen. -/
theorem weight_dataOf (ls : List Leaf) :
    weight (dataOf Leaf.isTaken ls).flatten + weight (dataOf Leaf.isMissed ls).flatten =
      weight (dataOf Leaf.isVisible ls).flatten + weight (dataOf Leaf.isAdded ls).flatten := by
  induction ls with
  | nil => rfl
  | cons l ls ih =>
    obtain ⟨data, isVisible, isTaken⟩ := l
    simp only [dataOf_cons, List.flatten_append, weight_append]
    cases isVisible <;> cases isTaken <;> simp [Leaf.isAdded, Leaf.isMissed] <;> omega

/-- The texts that are not blank. -/
def inkedTexts (ts : List Text) : List Text := ts.filter (!isBlankText ·)

/-- Blank texts have no words. -/
theorem flatMap_words_inkedTexts (ts : List Text) :
    (inkedTexts ts).flatMap words = ts.flatMap words := by
  induction ts with
  | nil => rfl
  | cons t ts ih =>
    rw [inkedTexts, List.filter_cons, List.flatMap_cons, ← ih]
    cases ht : isBlankText t with
    | false => rfl
    | true =>
      rw [words_of_blank (List.all_eq_true.1 ht)]
      rfl

/-- Blank texts are no exception to being spaced. -/
theorem forall_inkedTexts {ts : List Text} :
    (∀ t ∈ inkedTexts ts, spaced t = strip t) ↔ ∀ t ∈ ts, spaced t = strip t := by
  refine ⟨fun h t ht => ?_, fun h t ht => h t (List.mem_filter.1 ht).1⟩
  cases hblank : isBlankText t with
  | false => exact h t (List.mem_filter.2 ⟨ht, by simp [hblank]⟩)
  | true =>
    have hall := List.all_eq_true.1 hblank
    rw [spaced_eq_nil_iff.2 hall, strip_eq_nil_iff.2 hall]

/-- Without anything added or missed, what is taken is what is seen. -/
theorem inkedTexts_dataOf {ls : List Leaf} (hadded : AreBlank (dataOf Leaf.isAdded ls))
    (hmissed : AreBlank (dataOf Leaf.isMissed ls)) :
    inkedTexts (dataOf Leaf.isTaken ls) = inkedTexts (dataOf Leaf.isVisible ls) := by
  induction ls with
  | nil => rfl
  | cons l ls ih =>
    obtain ⟨data, isVisible, isTaken⟩ := l
    simp only [dataOf_cons, AreBlank, List.forall_mem_append] at hadded hmissed
    have hrest := ih hadded.2 hmissed.2
    simp only [inkedTexts] at hrest
    simp only [dataOf_cons, inkedTexts, List.filter_append, hrest, List.append_left_inj]
    cases isVisible <;> cases isTaken <;> simp_all [Leaf.isAdded, Leaf.isMissed]

/-! ## Titles -/

/-- **The plain title of a heading.** It is what a reader sees exactly if there are only single
spaces between the words of each text that is taken, and the words of these texts are those that a
reader sees.

What is added may make up for what is missed if it says the same. If nothing is added or nothing is
missed, the title is what a reader sees exactly if both is so, there are only single spaces between
the words of each text, and no word goes on from one text into those behind it. -/
theorem title_eq_visibleTitle_iff (children : List Node) :
    (title children = visibleTitle children ↔
        (∀ t ∈ takenTextsOf children, spaced t = strip t) ∧
          (takenTextsOf children).flatMap words = words (visibleTextsOf children).flatten) ∧
      (AreBlank (dataOf Leaf.isAdded (leavesOf children)) ∨
          AreBlank (dataOf Leaf.isMissed (leavesOf children)) →
        (title children = visibleTitle children ↔
          AreBlank (dataOf Leaf.isAdded (leavesOf children)) ∧
            AreBlank (dataOf Leaf.isMissed (leavesOf children)) ∧
            (∀ t ∈ visibleTextsOf children, spaced t = strip t) ∧
            AreApart (visibleTextsOf children))) := by
  have hiff : title children = visibleTitle children ↔
      (∀ t ∈ takenTextsOf children, spaced t = strip t) ∧
        (takenTextsOf children).flatMap words = words (visibleTextsOf children).flatten := by
    rw [title_eq, visibleTitle, gathered_eq_spaced_iff]
  obtain ⟨hvisible, htaken⟩ := dataOf_leavesOf children
  refine ⟨hiff, fun hor => ?_⟩
  -- with nothing added or missed, the taken texts may be put for the visible ones
  have hboth (hadded : AreBlank (dataOf Leaf.isAdded (leavesOf children)))
      (hmissed : AreBlank (dataOf Leaf.isMissed (leavesOf children))) :
      title children = visibleTitle children ↔
        (∀ t ∈ visibleTextsOf children, spaced t = strip t) ∧
          AreApart (visibleTextsOf children) := by
    have h := inkedTexts_dataOf hadded hmissed
    rw [hvisible, htaken] at h
    rw [hiff, ← forall_inkedTexts, ← flatMap_words_inkedTexts, h, forall_inkedTexts,
      flatMap_words_inkedTexts, ← words_flatten_iff]
    exact and_congr_right' eq_comm
  constructor
  · intro htitle
    have hweight : weight (takenTextsOf children).flatten =
        weight (visibleTextsOf children).flatten := by
      rw [weight_flatten_flatMap_words, (hiff.1 htitle).2, flatten_words]
      rfl
    have hbalance := weight_dataOf (leavesOf children)
    rw [hvisible, htaken, hweight] at hbalance
    have hsame : AreBlank (dataOf Leaf.isAdded (leavesOf children)) ↔
        AreBlank (dataOf Leaf.isMissed (leavesOf children)) := by
      rw [areBlank_iff, areBlank_iff]
      omega
    have hadded := hor.elim id hsame.2
    exact ⟨hadded, hsame.1 hadded, (hboth hadded (hsame.1 hadded)).1 htitle⟩
  · rintro ⟨hadded, hmissed, hrest⟩
    exact (hboth hadded hmissed).2 hrest

/-- A name in an element, with a text behind it. -/
def tip (rest : Text) : List Node :=
  [.text none ['U', 's', 'e', ' '], .element ['c', 'o', 'd', 'e'] [] [.text none ['n', 'p', 'm']],
    .text none rest]

/-- The leaves of such a heading are three visible texts. -/
theorem leavesOf_tip (rest : Text) :
    leavesOf (tip rest) =
      [⟨['U', 's', 'e', ' '], true, true⟩, ⟨['n', 'p', 'm'], true, true⟩, ⟨rest, true, true⟩] := by
  have hplain : isPermalink [] = false := by decide +kernel
  have hown : ownHolder ['c', 'o', 'd', 'e'] = none := by decide +kernel
  simp [leavesOf, tip, leaves, leavesInAll, leavesIn, hplain, hown]

theorem visibleTextsOf_tip (rest : Text) :
    visibleTextsOf (tip rest) = [['U', 's', 'e', ' '], ['n', 'p', 'm'], rest] := by
  rw [← (dataOf_leavesOf _).1, leavesOf_tip]
  rfl

/-- Its title is gathered from them. -/
theorem title_tip (rest : Text) :
    title (tip rest) = gathered [['U', 's', 'e', ' '], ['n', 'p', 'm'], rest] := by
  rw [title_eq, ← (dataOf_leavesOf _).2, leavesOf_tip]
  rfl

/-- Its readers see them without a gap. -/
theorem visibleTitle_tip (rest : Text) :
    visibleTitle (tip rest) = spaced ("Use npm".toList ++ rest) := by
  rw [visibleTitle, visibleTextsOf_tip]
  simp

/-- Where the text behind the code begins with a space, both titles are the same. -/
theorem title_eq_visibleTitle_tip :
    AreBlank (dataOf Leaf.isAdded (leavesOf (tip " now".toList))) ∧
      title (tip " now".toList) = visibleTitle (tip " now".toList) ∧
      title (tip " now".toList) = "Use npm now".toList := by
  have hadded : AreBlank (dataOf Leaf.isAdded (leavesOf (tip " now".toList))) := by
    rw [leavesOf_tip]
    simp [AreBlank, dataOf, Leaf.isAdded]
  have hmissed : AreBlank (dataOf Leaf.isMissed (leavesOf (tip " now".toList))) := by
    rw [leavesOf_tip]
    simp [AreBlank, dataOf, Leaf.isMissed]
  refine ⟨hadded, ((title_eq_visibleTitle_iff _).2 (Or.inl hadded)).2 ⟨hadded, hmissed, ?_, ?_⟩, ?_⟩
  · rw [visibleTextsOf_tip]
    simp only [List.forall_mem_cons, List.not_mem_nil, false_imp_iff, implies_true, and_true]
    decide +kernel
  · rw [visibleTextsOf_tip, ← words_flatten_iff]
    decide +kernel
  · rw [title_tip]
    decide +kernel

theorem isRegular_tip : ∀ m ∈ Node.partsOf (tip ['.']), m.IsRegular ∧ m.Returns := by
  have hclosing : Tag.closingName? ['c', 'o', 'd', 'e'] = some ['c', 'o', 'd', 'e'] := by decide
  simp only [tip, Node.partsOf, Node.parts, List.append_nil, List.cons_append, List.nil_append,
    List.forall_mem_cons, List.not_mem_nil, false_imp_iff, implies_true, and_true]
  exact ⟨⟨trivial, trivial⟩,
    ⟨isRegular_plain (by decide) (by decide) (by decide) _, hclosing⟩,
    ⟨trivial, trivial⟩, trivial, trivial⟩

theorem settled_tip : Node.settledAfter none false [] (tip ['.']) = tip ['.'] := by
  have hcode : isHolder ['c', 'o', 'd', 'e'] = false ∧
      keepsSpace ['c', 'o', 'd', 'e'] = false := by
    decide
  have hchar : Draft.isSpace 'U' = false ∧ Draft.isSpace 'n' = false ∧
      Draft.isSpace '.' = false := by
    decide
  simp [tip, Node.settledAfter, Node.settled, restated, textNode, condensed, hcode.1, hcode.2,
    hchar.1, hchar.2.1, hchar.2.2]

theorem html_tip : Node.htmls false (tip ['.']) = "Use <code>npm</code>.".toList := by
  have hcode : isVerbatim ['c', 'o', 'd', 'e'] = false ∧ isVoid ['c', 'o', 'd', 'e'] = false := by
    decide
  have htext : writtenText ['U', 's', 'e', ' '] = ['U', 's', 'e', ' '] ∧
      writtenText ['n', 'p', 'm'] = ['n', 'p', 'm'] ∧ writtenText ['.'] = ['.'] := by
    decide
  simp [tip, Node.htmls, Node.html, writtenAttributes_eq, restated, hcode.1, hcode.2, htext.1,
    htext.2.1, htext.2.2]

/-- **A mark behind an element.** The title puts a space in front of it, which no reader sees. -/
theorem title_of_mark_behind_element :
    Document.ofText "<h2>Use <code>npm</code>.</h2>".toList =
        .ok [.element ['h', '2'] [] (tip ['.'])] ∧
      title (tip ['.']) = "Use npm .".toList ∧ visibleTitle (tip ['.']) = "Use npm.".toList ∧
      title (tip ['.']) ≠ visibleTitle (tip ['.']) := by
  have hpage : Document.ofText "<h2>Use <code>npm</code>.</h2>".toList =
      .ok [.element ['h', '2'] [] (tip ['.'])] := by
    have h := ofText_heading (by decide : '2' ∈ levelDigits) isRegular_tip
    rw [html_tip, settled_tip] at h
    rw [← h]
    congr 1
  have htitle : title (tip ['.']) = "Use npm .".toList := by
    rw [title_tip]
    decide +kernel
  have hseen : visibleTitle (tip ['.']) = "Use npm.".toList := by
    rw [visibleTitle_tip]
    decide +kernel
  refine ⟨hpage, htitle, hseen, ?_⟩
  rw [htitle, hseen]
  simp

end Showcase.Outline
