import Showcase.Text.Basic

/-!
# Hexadecimal references

Markup that went through a cleaning tool often has `&#x4F60;` where its author wrote a character.
`HexReference.restore` puts the characters back. Only references with exactly four digits count.

The work is done on code points, since four digits may also name half of a surrogate pair, which
is no character:

* a *pass* replaces the references of a text, from left to right;
* a replacement may complete a new reference with the text around it, so passes are repeated until
  one changes nothing. Each replacement drops seven code points, so this ends;
* then a high half and a low half that stand side by side become one character, and any other half
  is written as a reference again.

Main statements: `pass_eq_self_of_length` and `length_pass_le` (a pass shortens the text or keeps
it), which is why `settle` ends, and `pass_settle` (what it ends in has no reference left).
-/

namespace Showcase.HexReference

/-- Texts as code points, halves of surrogate pairs among them. -/
abbrev Points := List Nat

/-- The value of a hexadecimal digit given by its code point. -/
def digit? (n : Nat) : Option Nat :=
  if 48 ≤ n ∧ n ≤ 57 then some (n - 48)
  else if 65 ≤ n ∧ n ≤ 70 then some (n - 55)
  else if 97 ≤ n ∧ n ≤ 102 then some (n - 87)
  else none

/-- The number that four digits write. -/
def number? (a b c d : Nat) : Option Nat := do
  return (((← digit? a) * 16 + (← digit? b)) * 16 + (← digit? c)) * 16 + (← digit? d)

/-- The reference at the beginning of the text, if there is one, and what follows it. -/
def reference? : Points → Option (Nat × Points)
  | amp :: hash :: x :: a :: b :: c :: d :: semicolon :: t =>
    if amp = 38 ∧ hash = 35 ∧ (x = 120 ∨ x = 88) ∧ semicolon = 59 then
      (number? a b c d).map fun n => (n, t)
    else none
  | _ => none

theorem length_of_reference? {t r : Points} {n : Nat} (h : reference? t = some (n, r)) :
    t.length = r.length + 8 := by
  rw [reference?.eq_def] at h
  split at h
  · split at h
    · simp only [Option.map_eq_some_iff, Prod.mk.injEq] at h
      obtain ⟨_, _, _, rfl⟩ := h
      rfl
    · cases h
  · cases h

/-- The text with its references, read from left to right, replaced by what they stand for. -/
def pass (t : Points) : Points :=
  match _h : reference? t with
  | some (n, r) => n :: pass r
  | none =>
    match t with
    | [] => []
    | n :: r => n :: pass r
termination_by t.length
decreasing_by
  · have := length_of_reference? _h; omega
  · simp

theorem pass_of_reference {t r : Points} {n : Nat} (h : reference? t = some (n, r)) :
    pass t = n :: pass r := by
  rw [pass]; split <;> simp_all

theorem pass_cons_of_none {n : Nat} {t : Points} (h : reference? (n :: t) = none) :
    pass (n :: t) = n :: pass t := by
  rw [pass]; split <;> simp_all

@[simp] theorem pass_nil : pass [] = [] := by
  rw [pass]; split <;> simp_all [reference?]

theorem length_pass_le (t : Points) : (pass t).length ≤ t.length := by
  fun_induction pass t with
  | case1 t n r h ih => have := length_of_reference? h; simp; omega
  | case2 => simp
  | case3 n r h ih => simpa using ih

/-- A pass that keeps the length has found nothing to replace. -/
theorem pass_eq_self_of_length {t : Points} (h : (pass t).length = t.length) : pass t = t := by
  fun_induction pass t with
  | case1 t n r hr ih =>
    have := length_of_reference? hr
    have := length_pass_le r
    simp only [List.length_cons] at h
    omega
  | case2 => rfl
  | case3 n r hr ih =>
    simp only [List.length_cons, Nat.add_right_cancel_iff] at h
    rw [ih h]

/-- Passes until one changes nothing. -/
def settle (t : Points) : Points :=
  if pass t = t then t else settle (pass t)
termination_by t.length
decreasing_by
  rename_i h
  have := length_pass_le t
  have : (pass t).length ≠ t.length := fun e => h (pass_eq_self_of_length e)
  omega

theorem pass_settle (t : Points) : pass (settle t) = settle t := by
  fun_induction settle t with
  | case1 t h => exact h
  | case2 t h ih => exact ih

/-- The first half of a surrogate pair. -/
def isHigh (n : Nat) : Bool := 0xD800 ≤ n && n ≤ 0xDBFF

/-- The second half of a surrogate pair. -/
def isLow (n : Nat) : Bool := 0xDC00 ≤ n && n ≤ 0xDFFF

/-- A half of a surrogate pair. -/
def isHalf (n : Nat) : Bool := isHigh n || isLow n

/-- The code point that two halves make. -/
def paired (high low : Nat) : Nat := 0x10000 + (high - 0xD800) * 0x400 + (low - 0xDC00)

/-- The text with neighbouring halves made one code point. -/
def joinPairs : Points → Points
  | [] => []
  | [n] => [n]
  | n :: m :: t =>
    if isHigh n && isLow m then paired n m :: joinPairs t else n :: joinPairs (m :: t)

/-- A code point as text; a half that is left over is written as a reference. -/
def written (n : Nat) : Text :=
  if isHalf n then "&#x".toList ++ Text.hex true 4 n ++ [';'] else [Char.ofNat n]

/-- The code points of a text. -/
def points (t : Text) : Points := t.map Char.toNat

/-- The text with its four-digit references replaced by the characters they stand for. -/
def restore (t : Text) : Text := (joinPairs (settle (points t))).flatMap written

end Showcase.HexReference
