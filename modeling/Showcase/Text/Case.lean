import Showcase.Text.Basic
import Showcase.Text.CaseTable

/-!
# Letter case

* `fold` sends all case variants of a letter to one of them, so that two characters are variants
  of each other exactly when `fold` agrees on them. It works on single characters: the sharp s has a
  capital variant, but is no variant of two letters s.
* `lower` is the lower case of a text.
* `label` is the form in which link labels are compared: lower case and then upper case, where the
  sharp s does become two letters.

ASCII is decided without the tables (`fold_ascii`).
-/

namespace Showcase.Text

/-- Where the runs send a code point; one that is in no run stays. -/
def shifted (runs : List CaseRun) (n : Nat) : Nat :=
  match runs.find? fun r => r.first ≤ n && n ≤ r.last && (n - r.first) % r.step == 0 with
  | some r => (Int.ofNat n + r.shift).toNat
  | none => n

/-- Lower case for the ASCII capitals. -/
def lowerAscii (c : Char) : Char :=
  if 'A' ≤ c ∧ c ≤ 'Z' then Char.ofNat (c.toNat + 32) else c

/-- The representative of the case variants of a character. -/
def fold (c : Char) : Char :=
  if c.toNat < 128 then lowerAscii c else Char.ofNat (shifted folds c.toNat)

/-- Two characters are case variants of each other. -/
def sameFold (c d : Char) : Bool := fold c == fold d

/-- The lower case of a character; only the dotted capital i needs two characters. -/
def lowerChar (c : Char) : Text :=
  if c.toNat < 128 then [lowerAscii c]
  else if c.toNat = 0x130 then ['i', Char.ofNat 0x307]
  else [Char.ofNat (shifted lowers c.toNat)]

/-- The lower case of a text, character by character. So a capital sigma becomes the same small
letter everywhere, also at the end of a word, where a form of its own is usual. -/
def lower (t : Text) : Text := t.flatMap lowerChar

/-- The form of a character in a link label. -/
def labelChar (c : Char) : Text :=
  if c.toNat < 128 then
    [if 'a' ≤ c ∧ c ≤ 'z' then Char.ofNat (c.toNat - 32) else c]
  else
    match labelSpellings.find? fun s => s.1 == c.toNat with
    | some s => s.2.map Char.ofNat
    | none => [Char.ofNat (shifted labels c.toNat)]

/-- The form in which link labels are compared. -/
def label (t : Text) : Text := t.flatMap labelChar

/-- What follows a case variant of `p`, if the text begins with one. -/
def afterFold? : (p t : Text) → Option Text
  | [], t => some t
  | _ :: _, [] => none
  | c :: p, d :: t => if sameFold c d then afterFold? p t else none

/-- What is read is a case variant, and it is as long as `p`. -/
theorem exists_of_afterFold? {p t r : Text} (h : afterFold? p t = some r) :
    ∃ n : Text, afterFold? p n = some [] ∧ n.length = p.length ∧ t = n ++ r := by
  induction p generalizing t with
  | nil => exact ⟨[], rfl, rfl, Option.some.inj h⟩
  | cons c p ih =>
    cases t with
    | nil => cases h
    | cons d t =>
      rw [afterFold?] at h
      split at h
      · next hc =>
        obtain ⟨n, hn, hlength, rfl⟩ := ih h
        refine ⟨d :: n, ?_, congrArg Nat.succ hlength, rfl⟩
        rw [afterFold?, if_pos hc, hn]
      · cases h

theorem eq_append_of_afterFold? {p t r : Text} (h : afterFold? p t = some r) :
    t = t.take p.length ++ r := by
  obtain ⟨n, -, hn, rfl⟩ := exists_of_afterFold? h
  rw [List.take_left' hn]

theorem length_afterFold?_le {p t r : Text} (h : afterFold? p t = some r) :
    r.length ≤ t.length := by
  obtain ⟨n, -, -, rfl⟩ := exists_of_afterFold? h
  rw [List.length_append]
  exact Nat.le_add_left ..

theorem afterFold?_append {p t r : Text} (h : afterFold? p t = some r) (s : Text) :
    afterFold? p (t ++ s) = some (r ++ s) := by
  induction p generalizing t with
  | nil =>
    cases h
    rfl
  | cons c p ih =>
    cases t with
    | nil => cases h
    | cons d t =>
      rw [afterFold?] at h
      rw [List.cons_append, afterFold?]
      split at h
      · next hc => rw [if_pos hc, ih h]
      · cases h

theorem fold_ascii {c : Char} (h : c.toNat < 128) : fold c = lowerAscii c := by
  simp [fold, h]

theorem sameFold_refl (c : Char) : sameFold c c = true := by simp [sameFold]

end Showcase.Text
