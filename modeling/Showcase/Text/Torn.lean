import Showcase.Text.HexReference

/-!
# Torn texts

A surrogate pair writes one character as two halves. A document may name a half by its number, and
shows it then; but a half is no character, and no `Text` has one in it. A *torn* text may have
halves. It is told by what it looks like when characters stand in for its halves: it is one text for
each choice of the *stand-ins*.

Stand-ins from two choices are enough to find the halves again, for what looks different in the two
texts was a half (`Torn.points`). They are taken from the two planes of characters for private use,
which are neither white space nor letters and have no ASCII spelling, as halves are and have none.

Main statements: `points_const` (a text is a torn text without halves) and `points_ofPoints` (code
points are told by the texts that show them).
-/

namespace Showcase

open HexReference (Points isHalf isHigh isLow)

/-- A text that may have halves of surrogate pairs in it: the text that it is, given the character
that stands in for each half. -/
abbrev Torn := (standIn : Nat → Char) → Text

namespace Torn

/-- One stand-in for all halves, where they need not be told from other characters. -/
def replacement (_ : Nat) : Char := Char.ofNat 0xFFFD

/-- The stand-ins from a plane. -/
def fromPlane (plane n : Nat) : Char := Char.ofNat (plane + (n - 0xD800))

/-- The first plane for private use. -/
def firstPlane : Nat := 0xF0000

/-- The second plane for private use. -/
def secondPlane : Nat := 0x100000

/-- The code point that is shown by one character with stand-ins from the first plane, and by
another one with those from the second. -/
def point (c d : Char) : Nat := if c = d then c.toNat else 0xD800 + (c.toNat - firstPlane)

/-- The code points of a torn text. -/
def points (t : Torn) : Points :=
  List.zipWith point (t (fromPlane firstPlane)) (t (fromPlane secondPlane))

/-- Code points as a torn text. -/
def ofPoints (ps : Points) : Torn := fun standIn =>
  ps.map fun n => if isHalf n then standIn n else Char.ofNat n

/-- A text is a torn text that looks the same whatever stands in for halves. -/
theorem points_const (t : Text) : points (fun _ => t) = HexReference.points t := by
  rw [points, HexReference.points]
  induction t with
  | nil => rfl
  | cons c t ih => rw [List.zipWith_cons_cons, ih, point, if_pos rfl, List.map_cons]

theorem le_of_isHalf {n : Nat} (hn : isHalf n = true) : 0xD800 ≤ n ∧ n ≤ 0xDFFF := by
  simp only [isHalf, isHigh, isLow, Bool.or_eq_true, Bool.and_eq_true, decide_eq_true_eq] at hn
  omega

/-- Both planes have room for a stand-in for each half. -/
theorem toNat_fromPlane {plane n : Nat} (hplane : plane = firstPlane ∨ plane = secondPlane)
    (hn : isHalf n = true) : (fromPlane plane n).toNat = plane + (n - 0xD800) := by
  have hrange := le_of_isHalf hn
  simp only [firstPlane, secondPlane] at hplane
  have hvalid : (plane + (n - 0xD800)).isValidChar := Or.inr (by omega)
  rw [fromPlane, Char.ofNat, dif_pos hvalid]
  rfl

theorem fromPlane_ne {n : Nat} (hn : isHalf n = true) :
    fromPlane firstPlane n ≠ fromPlane secondPlane n := by
  intro heq
  have hnat := congrArg Char.toNat heq
  rw [toNat_fromPlane (.inl rfl) hn, toNat_fromPlane (.inr rfl) hn] at hnat
  simp only [firstPlane, secondPlane] at hnat
  omega

/-- **The code points of a torn text** are those that it shows. -/
theorem points_ofPoints {ps : Points} (h : ∀ n ∈ ps, isHalf n = true ∨ n.isValidChar) :
    (ofPoints ps).points = ps := by
  rw [points, ofPoints, ofPoints, List.zipWith_map, List.zipWith_self]
  refine (List.map_congr_left fun n hn => ?_).trans (List.map_id' ps)
  by_cases hhalf : isHalf n = true
  · have hrange := le_of_isHalf hhalf
    rw [if_pos hhalf, if_pos hhalf, point, if_neg (fromPlane_ne hhalf),
      toNat_fromPlane (.inl rfl) hhalf]
    omega
  · have hvalid := (h n hn).resolve_left hhalf
    rw [if_neg hhalf, if_neg hhalf, point, if_pos rfl, Char.ofNat, dif_pos hvalid]
    rfl

end Torn

end Showcase
