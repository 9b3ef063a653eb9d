import Showcase.Demo.TagBlock

/-!
# Marked texts

Removing blocks in several rounds is easier to follow if the removed characters stay where they are
and are only marked (`Marked`). The blocks of a name are found in the whole text and marked there
(`mark`), whatever is marked already, so it does not matter in which order several names are marked
(`mark_mark`, `markAll_perm`). What is left is the text in no block of any of the names.
-/

namespace Showcase.TagBlock

variable {name : Text}

/-! ## Marked texts -/

/-- A text in which some characters are marked: they are taken away. -/
abbrev Marked := List (Char × Bool)

namespace Marked

/-- The whole text. -/
def text (m : Marked) : Text := m.map Prod.fst

/-- What is left of the text. -/
def left (m : Marked) : Text := (m.filter fun x => !x.2).map Prod.fst

/-- A text of which nothing is taken away. -/
def kept (t : Text) : Marked := t.map fun c => (c, false)

@[simp] theorem text_nil : text [] = [] := rfl

@[simp] theorem text_cons (x : Char × Bool) (m : Marked) : text (x :: m) = x.1 :: text m := rfl

@[simp] theorem text_append (m m' : Marked) : text (m ++ m') = text m ++ text m' :=
  List.map_append

@[simp] theorem left_nil : left [] = [] := rfl

/-- A character that is taken is not left. -/
@[simp] theorem left_cons_true (c : Char) (m : Marked) : left ((c, true) :: m) = left m := rfl

/-- A character that is not taken is left. -/
@[simp] theorem left_cons_false (c : Char) (m : Marked) :
    left ((c, false) :: m) = c :: left m := rfl

/-- What is left of two texts in a row is what is left of each of them. -/
@[simp] theorem left_append (m m' : Marked) : left (m ++ m') = left m ++ left m' := by
  rw [left, List.filter_append, List.map_append]
  rfl

@[simp] theorem kept_cons (c : Char) (t : Text) : kept (c :: t) = (c, false) :: kept t := rfl

@[simp] theorem text_kept (t : Text) : text (kept t) = t := by
  rw [text, kept, List.map_map]
  exact List.map_id t

/-- Where nothing is taken, all is left. -/
@[simp] theorem left_kept (t : Text) : left (kept t) = t := by
  induction t with
  | nil => rfl
  | cons c t ih => rw [kept_cons, left_cons_false, ih]

@[simp] theorem kept_append (t u : Text) : kept (t ++ u) = kept t ++ kept u := List.map_append

theorem length_kept (t : Text) : (kept t).length = t.length := List.length_map _

theorem length_text (m : Marked) : (text m).length = m.length := List.length_map _

theorem text_eq_nil {m : Marked} : text m = [] ↔ m = [] := List.map_eq_nil_iff

/-- A text is cut together with its marks. -/
theorem exists_of_text_eq_append {m : Marked} {t u : Text} (h : text m = t ++ u) :
    ∃ x y, m = x ++ y ∧ text x = t ∧ text y = u := List.map_eq_append_iff.1 h

/-- A front of marked text is one of its text. -/
theorem prefix_text {m m' : Marked} (h : m <+: m') : text m <+: text m' := h.map Prod.fst

/-- Where a marked text begins is told by its characters. -/
theorem eq_of_prefix {p x m : Marked} (hp : p <+: x ++ m) (h : text p = text x) : p = x := by
  obtain ⟨d, hd⟩ := hp
  refine List.append_inj_left hd ?_
  rw [← length_text p, h, length_text]

/-- Marks more characters: those at which the list says so. -/
def also (m : Marked) (taken : List Bool) : Marked :=
  List.zipWith (fun x t => (x.1, x.2 || t)) m taken

theorem also_cons (x : Char × Bool) (m : Marked) (t : Bool) (taken : List Bool) :
    also (x :: m) (t :: taken) = (x.1, x.2 || t) :: m.also taken := rfl

/-- Taking more changes no characters. -/
theorem text_also {m : Marked} {taken : List Bool} (h : taken.length = m.length) :
    text (m.also taken) = text m := by
  induction m generalizing taken with
  | nil => rfl
  | cons x m ih =>
    cases taken with
    | nil => cases h
    | cons t taken => rw [also_cons, text_cons, text_cons, ih (Nat.succ.inj h)]

/-- It does not matter what is taken first. -/
theorem also_comm (m : Marked) (s t : List Bool) : (m.also s).also t = (m.also t).also s := by
  induction m generalizing s t with
  | nil => rfl
  | cons x m ih =>
    cases s with
    | nil => cases t <;> rfl
    | cons a s =>
      cases t with
      | nil => rfl
      | cons b t =>
        rw [also_cons, also_cons, also_cons, also_cons, ih s t, Bool.or_right_comm]

/-- Where all is taken, nothing is left. -/
theorem left_also_replicate (m : Marked) : left (m.also (List.replicate m.length true)) = [] := by
  induction m with
  | nil => rfl
  | cons x m ih =>
    obtain ⟨c, t⟩ := x
    cases t <;> exact ih

end Marked

open Marked

/-! ## Marking blocks -/

/-- A mark for each character of a part: those of a block are taken away. -/
def Part.marks : Part → List Bool
  | .char _ => [false]
  | .block b => List.replicate b.text.length true

/-- Marks the blocks of the name that are found in the whole text, besides what is marked. -/
def mark (name : Text) (m : Marked) : Marked := m.also ((parts name m.text).flatMap Part.marks)

/-- The source with the blocks of all names marked. -/
def markAll (names : List Text) (t : Text) : Marked :=
  names.foldl (fun m name => mark name m) (kept t)

/-- The parts of a text have a mark for each of its characters. -/
theorem length_marks (name : Text) (m : Marked) :
    ((parts name m.text).flatMap Part.marks).length = m.length := by
  have h (ps : List Part) : (ps.flatMap Part.marks).length = (ps.flatMap Part.text).length := by
    induction ps with
    | nil => rfl
    | cons p ps ih =>
      rw [List.flatMap_cons, List.flatMap_cons, List.length_append, List.length_append, ih]
      cases p with
      | char c => rfl
      | block b => rw [Part.marks, List.length_replicate, Part.text]
  rw [h, text_parts, length_text]

/-- Marking blocks changes no characters. -/
theorem text_mark (name : Text) (m : Marked) : text (mark name m) = text m :=
  text_also (length_marks name m)

/-- Marks are made in any order, as each search is a search of the whole text. -/
theorem mark_mark (p q : Text) (m : Marked) : mark q (mark p m) = mark p (mark q m) := by
  rw [mark, text_mark, mark.eq_def p (mark q m), text_mark, mark, mark, also_comm]

/-- **The order of names** does not matter to what is taken, as long as nothing is cut out in
between. -/
theorem markAll_perm {names names' : List Text} (h : names'.Perm names) (t : Text) :
    markAll names' t = markAll names t :=
  h.foldl_eq' (fun p _ q _ m => mark_mark p q m) (kept t)

/-- The last name marks what the others have marked. -/
theorem markAll_concat (names : List Text) (name t : Text) :
    markAll (names ++ [name]) t = mark name (markAll names t) := by
  rw [markAll, List.foldl_append]
  rfl

/-- A character at which no block begins keeps its mark. -/
theorem mark_cons_of_none {x : Char × Bool} {m : Marked}
    (h : block? name (text (x :: m)) = none) : mark name (x :: m) = x :: mark name m := by
  rw [text_cons] at h
  have hx : (x.1, x.2 || false) = x := by rw [Bool.or_false]
  rw [mark, text_cons, parts_cons_of_none h]
  exact congrArg (· :: mark name m) hx

/-- Nothing is left of a block that is marked. -/
theorem left_mark_of_block {m r : Marked} {b : Block} (hm : text m = b.text)
    (h : block? name (text (m ++ r)) = some (b, text r)) :
    left (mark name (m ++ r)) = left (mark name r) := by
  have hlen : b.text.length = m.length := by rw [← hm, length_text]
  have e : mark name (m ++ r) = m.also (List.replicate m.length true) ++ mark name r := by
    rw [mark, parts_of_block h, List.flatMap_cons, Part.marks, hlen]
    exact List.zipWith_append (List.length_replicate ..).symm
  rw [e, left_append, left_also_replicate, List.nil_append]

end Showcase.TagBlock
