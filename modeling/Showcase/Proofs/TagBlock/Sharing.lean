import Showcase.Proofs.TagBlock.Shape

/-!
# Two kinds of blocks in one text

The source of a demo is gone over for two names. The blocks of the first name are removed, then the
blocks of the second name are removed from what is left; but the contents of both are read in the
source as it is. Removing and reading *share out* the source (`Sharing`) if a single splitting of it
into characters and blocks is what all three readings see: the blocks of the first name, the blocks
of the second name, and the blocks of the second name in what is left.

This is not always so: a block of one name may stand inside a block of the other, and the removal of
a block may bring the halves of another one together. The theory says exactly when it is so, by the
places at which blocks begin and end (`exists_sharing_iff`):

* no block of the second name overlaps a block of the first name (`Apart`);
* no block of the second name that is found in what is left lies across the place of a removed block
  (`Uncrossed`).

The three readings run in step: as long as the two conditions hold, a reading that is at the same
character of the source as another one finds the same block there, since a block is recognised by
its own text alone (`block?_append`).
-/

namespace Showcase.TagBlock

open Text

/-! ## Places -/

/-- Where each block of several parts begins and ends; the first part begins at `n`. -/
def spans : (n : Nat) → List Part → List (Nat × Nat)
  | _, [] => []
  | n, .char _ :: ps => spans (n + 1) ps
  | n, .block b :: ps => (n, n + b.text.length) :: spans (n + b.text.length) ps

/-- Where blocks have been removed, as places in the text that is left. -/
def joints : (n : Nat) → List Part → List Nat
  | _, [] => []
  | n, .char _ :: ps => joints (n + 1) ps
  | n, .block _ :: ps => n :: joints n ps

/-- The blocks of parts begin where these begin, or later. -/
theorem le_of_mem_spans {n : Nat} {ps : List Part} {x : Nat × Nat} (h : x ∈ spans n ps) :
    n ≤ x.1 ∧ x.1 ≤ x.2 := by
  induction ps generalizing n with
  | nil => cases h
  | cons p ps ih =>
    cases p with
    | char c =>
      obtain ⟨h₁, h₂⟩ := ih (show x ∈ spans (n + 1) ps from h)
      exact ⟨by omega, h₂⟩
    | block b =>
      rcases List.mem_cons.1 h with rfl | h
      · exact ⟨Nat.le_refl n, Nat.le_add_right n _⟩
      · obtain ⟨h₁, h₂⟩ := ih h
        exact ⟨by omega, h₂⟩

/-- So do the places between their blocks and what follows. -/
theorem le_of_mem_joints {n j : Nat} {ps : List Part} (h : j ∈ joints n ps) : n ≤ j := by
  induction ps generalizing n with
  | nil => cases h
  | cons p ps ih =>
    cases p with
    | char c =>
      have := ih (show j ∈ joints (n + 1) ps from h)
      omega
    | block b =>
      rcases List.mem_cons.1 h with rfl | h
      · exact Nat.le_refl j
      · exact ih h

/-- A count of places passes over characters one by one. -/
theorem count_map_char {α : Type} {count : Nat → List Part → α}
    (hcount : ∀ n c ps, count n (.char c :: ps) = count (n + 1) ps) (n : Nat) (u : Text)
    (ps : List Part) : count n (u.map Part.char ++ ps) = count (n + u.length) ps := by
  induction u generalizing n with
  | nil => rfl
  | cons c u ih =>
    rw [List.map_cons, List.cons_append, hcount, ih, List.length_cons, Nat.add_right_comm,
      Nat.add_assoc]

/-- Characters move blocks on. -/
theorem spans_map_char (n : Nat) (u : Text) (ps : List Part) :
    spans n (u.map Part.char ++ ps) = spans (n + u.length) ps :=
  count_map_char (fun _ _ _ => rfl) n u ps

theorem joints_map_char (n : Nat) (u : Text) (ps : List Part) :
    joints n (u.map Part.char ++ ps) = joints (n + u.length) ps :=
  count_map_char (fun _ _ _ => rfl) n u ps

/-- A stretch of text in which no block begins is read as characters. -/
theorem parts_append_of_le {name u r : Text} {n : Nat}
    (h : ∀ x ∈ spans n (parts name (u ++ r)), n + u.length ≤ x.1) :
    parts name (u ++ r) = u.map Part.char ++ parts name r := by
  induction u generalizing n with
  | nil => rfl
  | cons c u ih =>
    rcases hb : block? name (c :: (u ++ r)) with _ | ⟨b, s⟩
    · rw [List.cons_append, parts_cons_of_none hb] at h ⊢
      rw [ih (n := n + 1) fun x hx => ?_]
      · rfl
      · have := h x hx
        rw [List.length_cons] at this
        omega
    · -- a block would begin at the first character
      rw [List.cons_append, parts_of_block hb] at h
      have := h _ (List.mem_cons_self ..)
      rw [List.length_cons] at this
      simp only at this
      omega

/-- If no block has been removed within the first characters of what is left, then these are the
first parts. -/
theorem eq_map_char_append {ps : List Part} {u r : Text} {n : Nat}
    (hu : ps.flatMap Part.outside = u ++ r) (h : ∀ j ∈ joints n ps, n + u.length ≤ j) :
    ∃ qs, ps = u.map Part.char ++ qs := by
  induction u generalizing n ps with
  | nil => exact ⟨ps, rfl⟩
  | cons c u ih =>
    cases ps with
    | nil => cases hu
    | cons p ps =>
      cases p with
      | char d =>
        rw [List.flatMap_cons, Part.outside, List.singleton_append, List.cons_append,
          List.cons.injEq] at hu
        obtain ⟨rfl, hu⟩ := hu
        obtain ⟨qs, rfl⟩ := ih (n := n + 1) hu fun j hj => by
          have := h j hj
          rw [List.length_cons] at this
          omega
        exact ⟨qs, rfl⟩
      -- a block leaves a joint right here, which is too early
      | block b =>
        have := h n (List.mem_cons_self ..)
        rw [List.length_cons] at this
        omega

/-! ## Sharing out -/

/-- A piece of a text with blocks of two names. -/
inductive Segment
  | char (c : Char)
  | first (b : Block)
  | second (b : Block)

namespace Segment

/-- The text of a segment. -/
def text : Segment → Text
  | char c => [c]
  | first b => b.text
  | second b => b.text

/-- A segment as it is read for the first name. -/
def firstParts : Segment → List Part
  | char c => [.char c]
  | first b => [.block b]
  | second b => b.text.map .char

/-- A segment as it is read for the second name. -/
def secondParts : Segment → List Part
  | char c => [.char c]
  | first b => b.text.map .char
  | second b => [.block b]

/-- A segment as it is read for the second name when the blocks of the first one are gone. -/
def leftParts : Segment → List Part
  | char c => [.char c]
  | first _ => []
  | second b => [.block b]

/-- The text of a segment that is no block. -/
def outside : Segment → Text
  | char c => [c]
  | _ => []

/-- What is left of a segment when the blocks of the first name are gone. -/
def leftText : Segment → Text
  | char c => [c]
  | first _ => []
  | second b => b.text

/-- The content of a segment that is a block of the first name. -/
def firstContent : Segment → Text
  | first b => b.content
  | _ => []

/-- The content of a segment that is a block of the second name. -/
def secondContent : Segment → Text
  | second b => b.content
  | _ => []

end Segment

/-- The text is split into segments, and all readings see just these. -/
structure Sharing (p q t : Text) (segments : List Segment) : Prop where
  /-- the blocks of the first name are those of the splitting -/
  first : parts p t = segments.flatMap Segment.firstParts
  /-- the blocks of the second name are those of the splitting -/
  second : parts q t = segments.flatMap Segment.secondParts
  /-- so are the blocks of the second name that are found in what is left -/
  left : parts q (strip p t) = segments.flatMap Segment.leftParts

/-- No block of the second name overlaps a block of the first name. -/
def Apart (p q t : Text) : Prop :=
  ∀ x ∈ spans 0 (parts p t), ∀ y ∈ spans 0 (parts q t), x.2 ≤ y.1 ∨ y.2 ≤ x.1

/-- No block of the second name that is found in what is left lies across the place of a removed
block. -/
def Uncrossed (p q t : Text) : Prop :=
  ∀ y ∈ spans 0 (parts q (strip p t)), ∀ j ∈ joints 0 (parts p t), j ≤ y.1 ∨ y.2 ≤ j

instance (p q t : Text) : Decidable (Apart p q t) :=
  inferInstanceAs (Decidable (∀ x ∈ spans 0 (parts p t), ∀ y ∈ spans 0 (parts q t), _ ∨ _))

instance (p q t : Text) : Decidable (Uncrossed p q t) :=
  inferInstanceAs
    (Decidable (∀ y ∈ spans 0 (parts q (strip p t)), ∀ j ∈ joints 0 (parts p t), _ ∨ _))

/-! ### What is shared out -/

/-- Characters stand outside of blocks. -/
theorem flatMap_outside_map_char (u : Text) : (u.map Part.char).flatMap Part.outside = u := by
  rw [List.flatMap_map]
  exact List.flatMap_singleton' u

theorem flatMap_inside_map_char (u : Text) : (u.map Part.char).flatMap Part.inside = [] := by
  rw [List.flatMap_map]
  exact List.flatMap_eq_nil_iff.2 fun _ _ => rfl

theorem flatMap_text_map_char (u : Text) : (u.map Part.char).flatMap Part.text = u := by
  rw [List.flatMap_map]
  exact List.flatMap_singleton' u

section

variable {p q t : Text} {segments : List Segment}

/-- What is taken from the parts of a splitting is taken from its segments one by one. -/
theorem flatMap_parts {f : Segment → List Part} {g : Part → Text} {k : Segment → Text}
    (h : ∀ s, (f s).flatMap g = k s) : (segments.flatMap f).flatMap g = segments.flatMap k := by
  rw [List.flatMap_assoc]
  exact congrArg segments.flatMap (funext h)

/-- The segments make up the text. -/
theorem Sharing.text_eq (h : Sharing p q t segments) : t = segments.flatMap Segment.text := by
  rw [← text_parts p t, h.first]
  refine flatMap_parts fun s => ?_
  cases s with
  | char c => rfl
  | first b => exact List.append_nil b.text
  | second b => exact flatMap_text_map_char b.text

/-- The contents of the first kind are those of its segments. -/
theorem Sharing.fetch_first (h : Sharing p q t segments) :
    fetch p t = segments.flatMap Segment.firstContent := by
  rw [fetch, h.first]
  refine flatMap_parts fun s => ?_
  cases s with
  | char c => rfl
  | first b => exact List.append_nil b.content
  | second b => exact flatMap_inside_map_char b.text

/-- The contents of the second kind are those of its segments. -/
theorem Sharing.fetch_second (h : Sharing p q t segments) :
    fetch q t = segments.flatMap Segment.secondContent := by
  rw [fetch, h.second]
  refine flatMap_parts fun s => ?_
  cases s with
  | char c => rfl
  | first b => exact flatMap_inside_map_char b.text
  | second b => exact List.append_nil b.content

/-- And they are so once the first kind is taken away. -/
theorem Sharing.fetch_left (h : Sharing p q t segments) :
    fetch q (strip p t) = segments.flatMap Segment.secondContent := by
  rw [fetch, h.left]
  refine flatMap_parts fun s => ?_
  cases s with
  | char c => rfl
  | first b => rfl
  | second b => exact List.append_nil b.content

/-- Without the first kind, all other segments are left. -/
theorem Sharing.strip_first (h : Sharing p q t segments) :
    strip p t = segments.flatMap Segment.leftText := by
  rw [strip, h.first]
  refine flatMap_parts fun s => ?_
  cases s with
  | char c => rfl
  | first b => rfl
  | second b => exact flatMap_outside_map_char b.text

/-- Without both kinds, what is outside of blocks is left. -/
theorem Sharing.strip_strip (h : Sharing p q t segments) :
    strip q (strip p t) = segments.flatMap Segment.outside := by
  rw [strip, h.left]
  exact flatMap_parts fun s => by cases s <;> rfl

/-! ### One segment more -/

/-- A block in front is taken away. -/
theorem strip_of_block {name t r : Text} {b : Block} (h : block? name t = some (b, r)) :
    strip name t = strip name r := by
  rw [strip, parts_of_block h]
  rfl

/-- A character at which no block begins is left. -/
theorem strip_cons_of_none {name t : Text} {c : Char} (h : block? name (c :: t) = none) :
    strip name (c :: t) = c :: strip name t := by
  rw [strip, parts_cons_of_none h]
  rfl

/-- And so is each of several such characters. -/
theorem strip_append_of_parts {name u r : Text}
    (h : parts name (u ++ r) = u.map Part.char ++ parts name r) :
    strip name (u ++ r) = u ++ strip name r := by
  rw [strip, h, List.flatMap_append, flatMap_outside_map_char]
  rfl

/-- An empty text has no segments. -/
theorem Sharing.nil (p q : Text) : Sharing p q [] [] where
  first := parts_nil p
  second := parts_nil q
  left := by rw [strip, parts_nil]; exact parts_nil q

/-- A character at which neither kind begins is a segment of its own. -/
theorem Sharing.cons_char {c : Char} (h : Sharing p q t segments) (hp : block? p (c :: t) = none)
    (hq : block? q (c :: t) = none) (hl : block? q (c :: strip p t) = none) :
    Sharing p q (c :: t) (.char c :: segments) where
  first := by rw [parts_cons_of_none hp, h.first]; rfl
  second := by rw [parts_cons_of_none hq, h.second]; rfl
  left := by rw [strip_cons_of_none hp, parts_cons_of_none hl, h.left]; rfl

/-- A block of the first kind is a segment if no block of the second begins in it. -/
theorem Sharing.cons_first {b : Block} (h : Sharing p q t segments)
    (hp : block? p (b.text ++ t) = some (b, t))
    (hq : parts q (b.text ++ t) = b.text.map Part.char ++ parts q t) :
    Sharing p q (b.text ++ t) (.first b :: segments) where
  first := by rw [parts_of_block hp, h.first]; rfl
  second := by rw [hq, h.second]; rfl
  left := by rw [strip_of_block hp, h.left]; rfl

/-- A block of the second kind is a segment if no block of the first begins in it. -/
theorem Sharing.cons_second {b : Block} (hname : IsWord q) (h : Sharing p q t segments)
    (hp : parts p (b.text ++ t) = b.text.map Part.char ++ parts p t)
    (hq : block? q (b.text ++ t) = some (b, t)) :
    Sharing p q (b.text ++ t) (.second b :: segments) where
  first := by rw [hp, h.first]; rfl
  second := by rw [parts_of_block hq, h.second]; rfl
  left := by
    rw [strip_append_of_parts hp, parts_of_block (block?_append hname hq _), h.left]
    rfl

/-! ### When a text is shared out -/

/-- The blocks of a splitting lie side by side. -/
theorem Sharing.apart (h : Sharing p q t segments) : Apart p q t := by
  rw [Apart, h.first, h.second]
  -- places are counted from `n` on, so that the induction goes through
  generalize 0 = n
  clear h
  induction segments generalizing n with
  | nil =>
    intro x hx
    cases hx
  | cons s segments ih =>
    cases s with
    | char c => exact ih (n + 1)
    | first b =>
      intro x hx y hy
      rw [List.flatMap_cons, Segment.secondParts, spans_map_char] at hy
      rcases List.mem_cons.1 hx with rfl | hx
      · exact Or.inl (le_of_mem_spans hy).1
      · exact ih _ x hx y hy
    | second b =>
      intro x hx y hy
      rw [List.flatMap_cons, Segment.firstParts, spans_map_char] at hx
      rcases List.mem_cons.1 hy with rfl | hy
      · exact Or.inr (le_of_mem_spans hx).1
      · exact ih _ x hx y hy

/-- A block of a splitting is in one piece when the blocks of the first name are gone. -/
theorem Sharing.uncrossed (h : Sharing p q t segments) : Uncrossed p q t := by
  rw [Uncrossed, h.first, h.left]
  -- as before, places are counted from `n` on
  generalize 0 = n
  clear h
  induction segments generalizing n with
  | nil =>
    intro y hy
    cases hy
  | cons s segments ih =>
    cases s with
    | char c => exact ih (n + 1)
    | first b =>
      intro y hy j hj
      rcases List.mem_cons.1 hj with rfl | hj
      · exact Or.inl (le_of_mem_spans hy).1
      · exact ih n y hy j hj
    | second b =>
      intro y hy j hj
      rw [List.flatMap_cons, Segment.firstParts, joints_map_char] at hj
      rcases List.mem_cons.1 hy with rfl | hy
      · exact Or.inr (le_of_mem_joints hj)
      · exact ih _ y hy j hj

end

/-- A block has an end beyond its beginning. -/
theorem lt_of_mem_spans_parts {name t : Text} {n : Nat} {x : Nat × Nat}
    (h : x ∈ spans n (parts name t)) : x.1 < x.2 := by
  fun_induction parts name t generalizing n with
  | case1 t b r hb ih =>
    rcases List.mem_cons.1 h with rfl | h
    · exact Nat.lt_add_of_pos_right (length_text_pos hb)
    · exact ih h
  | case2 => cases h
  | case3 c r hb ih => exact ih (show x ∈ spans (n + 1) (parts name r) from h)

/-- A reading passes over the characters of a block of another name that none of its own blocks
overlaps. -/
theorem parts_append_of_apart {name u r : Text} {n : Nat}
    (h : ∀ x ∈ spans n (parts name (u ++ r)), n + u.length ≤ x.1 ∨ x.2 ≤ n) :
    parts name (u ++ r) = u.map Part.char ++ parts name r := by
  refine parts_append_of_le (n := n) fun x hx => ?_
  rcases h x hx with h | h
  · exact h
  · have h₁ := (le_of_mem_spans hx).1
    have h₂ := lt_of_mem_spans_parts hx
    omega

/-- A block that is found in what is left, and lies across no place of a removed block, is found in
the source as well. -/
theorem exists_block?_of_left {p q t s : Text} {c : Char} {b : Block} {m : Nat} (hname : IsWord q)
    (hp : block? p (c :: t) = none) (hl : block? q (c :: strip p t) = some (b, s))
    (hu : ∀ j ∈ joints m (parts p (c :: t)), j ≤ m ∨ m + b.text.length ≤ j) :
    ∃ r, block? q (c :: t) = some (b, r) := by
  have hout : (parts p (c :: t)).flatMap Part.outside = b.text ++ s := by
    rw [← eq_append_of_block? hl, ← strip_cons_of_none hp]
    rfl
  have hle : ∀ j ∈ joints m (parts p (c :: t)), m + b.text.length ≤ j := by
    intro j hj
    rcases hu j hj with h | h
    · -- the first character is no block, so every joint comes after it
      rw [parts_cons_of_none hp] at hj
      have := le_of_mem_joints (show j ∈ joints (m + 1) (parts p t) from hj)
      omega
    · exact h
  obtain ⟨ps, hps⟩ := eq_map_char_append hout hle
  have ht : c :: t = b.text ++ ps.flatMap Part.text := by
    rw [← text_parts p (c :: t), hps, List.flatMap_append, flatMap_text_map_char]
  rw [ht]
  exact ⟨_, block?_append hname hl _⟩

/-- Where no block begins in the source, none begins in what is left. -/
theorem block?_left_eq_none {p q t : Text} {c : Char} {m : Nat} (hname : IsWord q)
    (hp : block? p (c :: t) = none) (hq : block? q (c :: t) = none)
    (hu : ∀ y ∈ spans m (parts q (strip p (c :: t))), ∀ j ∈ joints m (parts p (c :: t)),
      j ≤ y.1 ∨ y.2 ≤ j) : block? q (c :: strip p t) = none := by
  rcases hl : block? q (c :: strip p t) with _ | ⟨b, s⟩
  · rfl
  · rw [strip_cons_of_none hp, parts_of_block hl] at hu
    obtain ⟨r, hr⟩ := exists_block?_of_left hname hp hl (hu _ (List.mem_cons_self ..))
    rw [hr] at hq
    cases hq

/-- The three readings run in step from a common place on, `n` in the source and `m` in what is
left, if no two blocks are in each other's way. The induction is on what is still to be read. -/
theorem exists_sharing_of {p q : Text} (hname : IsWord q) (t : Text) (n m : Nat)
    (ha : ∀ x ∈ spans n (parts p t), ∀ y ∈ spans n (parts q t), x.2 ≤ y.1 ∨ y.2 ≤ x.1)
    (hu : ∀ y ∈ spans m (parts q (strip p t)), ∀ j ∈ joints m (parts p t), j ≤ y.1 ∨ y.2 ≤ j) :
    ∃ segments, Sharing p q t segments := by
  induction hlen : t.length using Nat.strongRecOn generalizing t n m with
  | _ k ih =>
  subst hlen
  rcases hp : block? p t with _ | ⟨b, r⟩
  · cases t with
    | nil => exact ⟨[], Sharing.nil p q⟩
    | cons c t =>
      rcases hq : block? q (c :: t) with _ | ⟨b, r⟩
      · -- a character for all three readings
        have hl := block?_left_eq_none hname hp hq hu
        rw [parts_cons_of_none hp, parts_cons_of_none hq] at ha
        rw [strip_cons_of_none hp, parts_cons_of_none hp, parts_cons_of_none hl] at hu
        obtain ⟨segments, h⟩ := ih t.length (Nat.lt_succ_self _) t (n + 1) (m + 1) ha hu rfl
        exact ⟨_, h.cons_char hp hq hl⟩
      · -- a block of the second name
        have hr := length_lt_of_block? hq
        have e := eq_append_of_block? hq
        rw [e] at hq ha hu ⊢
        rw [parts_of_block hq] at ha
        have hp := parts_append_of_apart fun x hx => (ha x hx _ (List.mem_cons_self ..)).symm
        rw [hp, spans_map_char] at ha
        rw [strip_append_of_parts hp, parts_of_block (block?_append hname hq _), hp,
          joints_map_char] at hu
        obtain ⟨segments, h⟩ := ih r.length hr r (n + b.text.length) (m + b.text.length)
          (fun x hx y hy => ha x hx y (List.mem_cons_of_mem _ hy))
          (fun y hy => hu y (List.mem_cons_of_mem _ hy)) rfl
        exact ⟨_, h.cons_second hname hp hq⟩
  · -- a block of the first name
    have hr := length_lt_of_block? hp
    obtain rfl := eq_append_of_block? hp
    rw [parts_of_block hp] at ha hu
    have hq := parts_append_of_apart (ha _ (List.mem_cons_self ..))
    rw [hq, spans_map_char] at ha
    rw [strip_of_block hp] at hu
    obtain ⟨segments, h⟩ := ih r.length hr r (n + b.text.length) m
      (fun x hx => ha x (List.mem_cons_of_mem _ hx))
      (fun y hy j hj => hu y hy j (List.mem_cons_of_mem _ hj)) rfl
    exact ⟨_, h.cons_first hp hq⟩

/-- **When a text is shared out**: exactly if no two blocks overlap, and none that is found in what
is left has been put together. -/
theorem exists_sharing_iff {p q t : Text} (hname : IsWord q) :
    (∃ segments, Sharing p q t segments) ↔ Apart p q t ∧ Uncrossed p q t := by
  constructor
  · rintro ⟨segments, h⟩
    exact ⟨h.apart, h.uncrossed⟩
  · rintro ⟨ha, hu⟩
    exact exists_sharing_of hname t 0 0 ha hu

end Showcase.TagBlock
