import Mathlib.Data.List.Infix
import Showcase.Proofs.Markup.Reader

/-!
# Lines that open demos

Which lines open demos is known only when the page is read. But a line that does so has the opening
line of a demo as its content, or behind the markers of quotes and list items in it (`openers`); and
a line of colons that is not indented like a listing ends the demo wherever it is read
(`Colons.endsAt`). So the lines alone can tell that no demo is opened in another one (`areApart`).

What is told of the lines of a page is kept for those that readers further down are given
(`areApart_of_isInfix`, `areApart_of_becomes`). Main statement: `openers_of_mem_take_untilEnd`.
-/

namespace Showcase

/-! ## What becomes of lines -/

/-- A line loses what stands at its front only. -/
theorem Line.Becomes.content_suffix {l m : Line} (h : l.Becomes m) : m.content <:+ l.content := by
  cases h with
  | same => exact List.suffix_rfl
  | lazy => exact List.suffix_rfl
  | passed h => exact (List.dropWhile_suffix _).trans (List.drop_suffix _ _)
  | unquoted h =>
    rw [Line.unquote?.eq_def] at h
    split at h
    · next t ht =>
      obtain rfl := Option.some.inj h
      have htail : t <:+ l.content := ht ▸ List.suffix_cons '>' t
      have hspace (taken : Bool) : (if taken then t.drop 1 else t) <:+ t := by
        split
        · exact List.drop_suffix 1 t
        · exact List.suffix_rfl
      exact (List.dropWhile_suffix _).trans ((hspace _).trans htail)
    · cases h

namespace Block

/-- A line of colons is neither marked as one of a quote nor as an item, so it stays as it is. -/
theorem becomes_colons {l m : Line} {t : Text} (h : l.Becomes m) (hl : l.content = ':' :: t) :
    m.content = l.content ∧ (m.indent = l.indent ∨ m.indent = -1) := by
  cases h with
  | same => exact ⟨rfl, .inl rfl⟩
  | lazy => exact ⟨rfl, .inr rfl⟩
  | unquoted h =>
    rw [Line.unquote?, hl] at h
    cases h
  | passed h =>
    rw [hl] at h
    cases h

variable (g : Grammar)

/-! ## Demos that are kept apart -/

/-- The demos that the line may open, whatever markers stand before. -/
def openers (l : Line) : List Colons :=
  (l.content.tails.filterMap (colons? g)).filter fun c => c.container = .demo

/-- The line ends the demo that has been opened, wherever it is read. -/
def Colons.endsAt (c : Colons) (l : Line) : Bool := l.indent ≤ 3 && c.isClosedBy l.content

/-- No demo may be opened before the given one is ended. -/
def isClear (c : Colons) : List Line → Bool
  | [] => true
  | l :: ls => c.endsAt l || ((openers g l).isEmpty && isClear c ls)

/-- Each demo that may be opened is ended before the next one may be opened. -/
def areApart : List Line → Bool
  | [] => true
  | l :: ls => (openers g l).all (isClear g · ls) && areApart ls

variable {g} {c : Colons} {l m : Line} {ls more whole part : List Line}

/-- The openers in a line, told by the places at which they begin. -/
theorem mem_openers_iff :
    c ∈ openers g l ↔ (∃ t, t <:+ l.content ∧ colons? g t = some c) ∧ c.container = .demo := by
  rw [openers, List.mem_filter, List.mem_filterMap, decide_eq_true_iff]
  simp only [List.mem_tails]

/-- An opener has three colons at least. -/
theorem three_le_of_colons? {t : Text} (h : colons? g t = some c) : 3 ≤ c.length := by
  rw [colons?] at h
  dsimp only at h
  split at h
  · cases h
  · next hlength =>
    obtain ⟨container, -, rfl⟩ := Option.map_eq_some_iff.1 h
    exact Nat.le_of_not_lt hlength

theorem one_le_of_mem_openers (h : c ∈ openers g l) : 1 ≤ c.length := by
  obtain ⟨⟨t, -, ht⟩, -⟩ := mem_openers_iff.1 h
  exact Nat.le_trans (by decide) (three_le_of_colons? ht)

/-- A line that ends a demo begins with a colon. -/
theorem exists_of_isClosedBy (hc : 1 ≤ c.length) {content : Text}
    (h : c.isClosedBy content = true) : ∃ t, content = ':' :: t := by
  rw [Colons.isClosedBy] at h
  simp only [Bool.and_eq_true, decide_eq_true_eq] at h
  cases content with
  | nil => exact absurd (Nat.le_trans hc h.1) (by decide)
  | cons d t =>
    by_cases hd : d = ':'
    · exact ⟨t, by rw [hd]⟩
    · have hnone : (runOf ':' (d :: t)).1 = 0 := by
        rw [runOf, List.takeWhile_cons_of_neg (by simpa using hd)]
        rfl
      rw [hnone] at h
      exact absurd (Nat.le_trans hc h.1) (by decide)

/-- A line that ends a demo still does after its front was taken off. -/
theorem Colons.endsAt_of_becomes (hc : 1 ≤ c.length) (h : l.Becomes m)
    (hends : c.endsAt l = true) : c.endsAt m = true := by
  rw [Colons.endsAt, Bool.and_eq_true, decide_eq_true_iff] at hends ⊢
  obtain ⟨t, ht⟩ := exists_of_isClosedBy hc hends.2
  obtain ⟨hcontent, hindent⟩ := becomes_colons h ht
  rw [hcontent]
  exact ⟨by omega, hends.2⟩

/-- Taking off the front of a line brings in no opener. -/
theorem mem_openers_of_becomes (h : l.Becomes m) (hc : c ∈ openers g m) : c ∈ openers g l := by
  obtain ⟨⟨t, ht, hcolons⟩, hdemo⟩ := mem_openers_iff.1 hc
  exact mem_openers_iff.2 ⟨⟨t, ht.trans h.content_suffix, hcolons⟩, hdemo⟩

theorem openers_eq_nil_of_becomes (h : l.Becomes m) (hl : openers g l = []) : openers g m = [] :=
  List.eq_nil_iff_forall_not_mem.2 fun _ hc =>
    List.not_mem_nil (hl ▸ mem_openers_of_becomes h hc)

theorem openers_eq_nil_of_forall₂ (h : List.Forall₂ Line.Becomes whole part)
    (hwhole : ∀ l ∈ whole, openers g l = []) : ∀ m ∈ part, openers g m = [] := by
  induction h with
  | nil => exact fun m hm => absurd hm List.not_mem_nil
  | cons h _ ih =>
    obtain ⟨hl, hwhole⟩ := List.forall_mem_cons.1 hwhole
    exact List.forall_mem_cons.2 ⟨openers_eq_nil_of_becomes h hl, ih hwhole⟩

/-! ## Some of the lines -/

theorem isClear_cons : isClear g c (l :: ls) = true ↔
    c.endsAt l = true ∨ openers g l = [] ∧ isClear g c ls = true := by
  rw [isClear, Bool.or_eq_true, Bool.and_eq_true, List.isEmpty_iff]

theorem areApart_cons : areApart g (l :: ls) = true ↔
    (∀ c ∈ openers g l, isClear g c ls = true) ∧ areApart g ls = true := by
  rw [areApart, Bool.and_eq_true, List.all_eq_true]

/-- What is clear up to some line is clear up to an earlier one. -/
theorem isClear_of_append (h : isClear g c (ls ++ more) = true) : isClear g c ls = true := by
  induction ls with
  | nil => rfl
  | cons l ls ih =>
    rw [List.cons_append, isClear_cons] at h
    exact isClear_cons.2 (h.imp_right fun h => ⟨h.1, ih h.2⟩)

theorem areApart_of_append (h : areApart g (ls ++ more) = true) : areApart g ls = true := by
  induction ls with
  | nil => rfl
  | cons l ls ih =>
    rw [List.cons_append, areApart_cons] at h
    exact areApart_cons.2 ⟨fun c hc => isClear_of_append (h.1 c hc), ih h.2⟩

theorem areApart_of_suffix (h : areApart g (ls ++ more) = true) : areApart g more = true := by
  induction ls with
  | nil => exact h
  | cons l ls ih => exact ih (areApart_cons.1 h).2

/-- Lines in the middle are apart if all are. -/
theorem areApart_of_isInfix (h : part <:+: whole) (hwhole : areApart g whole = true) :
    areApart g part = true := by
  obtain ⟨before, after, rfl⟩ := h
  exact areApart_of_suffix (areApart_of_append hwhole)

/-- Lines stay clear when their fronts are taken off. -/
theorem isClear_of_becomes (hc : 1 ≤ c.length) (h : List.Forall₂ Line.Becomes whole part)
    (hclear : isClear g c whole = true) : isClear g c part = true := by
  induction h with
  | nil => rfl
  | cons h _ ih =>
    refine isClear_cons.2 ((isClear_cons.1 hclear).imp (Colons.endsAt_of_becomes hc h) ?_)
    exact fun hopeners => ⟨openers_eq_nil_of_becomes h hopeners.1, ih hopeners.2⟩

/-- **Lines stay apart when their fronts are taken off**, as they are for the content of a block. -/
theorem areApart_of_becomes (h : List.Forall₂ Line.Becomes whole part)
    (hwhole : areApart g whole = true) : areApart g part = true := by
  induction h with
  | nil => rfl
  | cons h htail ih =>
    obtain ⟨hclear, hapart⟩ := areApart_cons.1 hwhole
    refine areApart_cons.2 ⟨fun c hc => ?_, ih hapart⟩
    exact isClear_of_becomes (one_le_of_mem_openers hc) htail
      (hclear c (mem_openers_of_becomes h hc))

/-! ## The lines of a demo -/

/-- **A line that ends a demo** ends its lines where they are read. -/
theorem untilEnd_of_endsAt (f : Frame) (hends : c.endsAt l = true)
    (window : Nat) (ls : List Line) :
    (untilEnd g f c.isClosedBy (window + 1) (l :: ls)).1 = 0 := by
  rw [Colons.endsAt, Bool.and_eq_true, decide_eq_true_iff] at hends
  obtain ⟨hindent, hclosed⟩ := hends
  have hcode : isCode g f l = false := by
    rw [isCode, Bool.and_eq_false_iff, decide_eq_false_iff_not]
    exact .inr (by omega)
  rw [untilEnd]
  split
  · rfl
  · rw [hcode, hclosed]
    rfl

/-- **In the lines of a demo** nothing may be opened, if nothing may be before the demo is ended. -/
theorem openers_of_mem_take_untilEnd (f : Frame) {window : Nat}
    (h : isClear g c (ls.take window) = true) :
    ∀ m ∈ ls.take (untilEnd g f c.isClosedBy window ls).1, openers g m = [] := by
  induction ls generalizing window with
  | nil => exact fun m hm => absurd (List.mem_of_mem_take hm) List.not_mem_nil
  | cons l ls ih =>
    cases window with
    | zero => exact fun m hm => absurd hm List.not_mem_nil
    | succ window =>
      -- the container ends with its first line, or that line opens nothing
      rcases isClear_cons.1 h with hends | ⟨hopeners, hclear⟩
      · rw [untilEnd_of_endsAt f hends]
        exact fun m hm => absurd hm List.not_mem_nil
      · rw [untilEnd]
        split
        · exact fun m hm => absurd hm List.not_mem_nil
        split
        · exact fun m hm => absurd hm List.not_mem_nil
        · exact List.forall_mem_cons.2 ⟨hopeners, ih hclear⟩

end Block

end Showcase
