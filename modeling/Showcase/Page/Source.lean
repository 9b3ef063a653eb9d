import Showcase.Text.Basic

/-!
# Sources

Pages come with line feeds, carriage returns or both at their line ends, and some with a byte order
mark in front. Everything later sees line feeds and no mark (`clean`). Whatever is read as markup,
descriptions included, has line feeds only and no null characters (`readable`). A source with line
feeds only, no null character and no mark in front is read as it is written.
-/

namespace Showcase.Source

/-- The text with a line feed at each line end. -/
def unifyLineEnds : Text → Text
  | [] => []
  | '\r' :: '\n' :: t => '\n' :: unifyLineEnds t
  | c :: t => (if c = '\r' then '\n' else c) :: unifyLineEnds t

/-- The text without a byte order mark in front. -/
def dropMark : Text → Text
  | [] => []
  | c :: t => if c.toNat = 0xFEFF then t else c :: t

/-- The text as a writer of pages means it. -/
def clean (t : Text) : Text := unifyLineEnds (dropMark t)

/-- The text with nothing in it that cannot be shown: a null character becomes the replacement
character. -/
def dropNulls (t : Text) : Text := t.map fun c => if c.toNat = 0 then Char.ofNat 0xFFFD else c

/-- The text as blocks are read from it. -/
def readable (t : Text) : Text := dropNulls (unifyLineEnds t)

/-! ## Sources that need no cleaning -/

theorem unifyLineEnds_eq_self {t : Text} (h : '\r' ∉ t) : unifyLineEnds t = t := by
  fun_induction unifyLineEnds t with
  | case1 => rfl
  | case2 t ih => exact absurd (List.mem_cons_self ..) h
  | case3 c t _ ih =>
    rw [List.mem_cons, not_or] at h
    rw [if_neg (Ne.symm h.1), ih h.2]

theorem clean_eq_self {t : Text} (h : '\r' ∉ t) (hmark : t.head? ≠ some (Char.ofNat 0xFEFF)) :
    clean t = t := by
  have e : dropMark t = t := by
    cases t with
    | nil => rfl
    | cons c t =>
      refine if_neg fun hc => hmark ?_
      rw [← hc, Char.ofNat_toNat]
      rfl
  rw [clean, e, unifyLineEnds_eq_self h]

theorem readable_eq_self {t : Text} (h : '\r' ∉ t) (hnull : '\x00' ∉ t) : readable t = t := by
  have hid (c : Char) (hc : c ∈ t) : (if c.toNat = 0 then Char.ofNat 0xFFFD else c) = c := by
    refine if_neg fun e => hnull ?_
    obtain rfl : c = '\x00' := by rw [← Char.ofNat_toNat c, e]
    exact hc
  rw [readable, unifyLineEnds_eq_self h, dropNulls, List.map_congr_left hid, List.map_id']

end Showcase.Source
