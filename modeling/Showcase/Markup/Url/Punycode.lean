import Showcase.Text.Torn

/-!
# Punycode

An ASCII form of a host label. The ASCII characters come first; then come, in ascending order of the
other code points, the distances between the places at which they are to be inserted. A distance is
written with base-36 digits whose thresholds adapt to the distances before it.

The digits may also name half of a surrogate pair, which is no character. The label has its stand-in
then (`char?`).
-/

namespace Showcase.Punycode

/-- The threshold of the digit at place `j`. -/
def threshold (j bias : Nat) : Nat := max 1 (min 26 (36 * (j + 1) - bias))

theorem threshold_pos (j bias : Nat) : 1 ≤ threshold j bias := Nat.le_max_left ..

/-- The base-36 digit with the given value. -/
def digit (n : Nat) : Char := Char.ofNat (if n < 26 then 97 + n else n + 22)

/-- The value of a base-36 digit in either case. -/
def digitValue? (c : Char) : Option Nat :=
  if 'a' ≤ c ∧ c ≤ 'z' then some (c.toNat - 97)
  else if 'A' ≤ c ∧ c ≤ 'Z' then some (c.toNat - 65)
  else if '0' ≤ c ∧ c ≤ '9' then some (c.toNat - 22)
  else none

/-- A distance as digits, from place `j` on. -/
def number (bias j n : Nat) : Text :=
  let t := threshold j bias
  if n < t then [digit n]
  else digit (t + (n - t) % (36 - t)) :: number bias (j + 1) ((n - t) / (36 - t))
termination_by n
decreasing_by
  have h1 := threshold_pos j bias
  have h2 : (n - threshold j bias) / (36 - threshold j bias) ≤ n - threshold j bias :=
    Nat.div_le_self ..
  omega

/-- Divides a distance down to the range of one digit and counts the divisions. -/
def scale (delta steps : Nat) : Nat :=
  if delta ≤ 455 then 36 * steps + 36 * delta / (delta + 38) else scale (delta / 35) (steps + 1)
termination_by delta
decreasing_by omega

/-- The bias after a distance; `count` characters are in place by now. -/
def adapt (first : Bool) (delta count : Nat) : Nat :=
  let d := if first then delta / 700 else delta / 2
  scale (d + d / count) 0

/-! ## Encoding -/

/-- Where the encoding stands. -/
structure Progress where
  /-- the distance since the last insertion -/
  delta : Nat
  /-- the characters in place -/
  placed : Nat
  /-- the bias of the next number -/
  bias : Nat
  /-- nothing has been inserted yet -/
  first : Bool
  /-- the digits so far -/
  digits : Text

/-- Passes a character of the label while `point` is being inserted. -/
def Progress.pass (point : Nat) (p : Progress) (c : Char) : Progress :=
  if c.toNat < point then { p with delta := p.delta + 1 }
  else if c.toNat = point then
    { delta := 0
      placed := p.placed + 1
      bias := adapt p.first p.delta (p.placed + 1)
      first := false
      digits := p.digits ++ number p.bias 0 p.delta }
  else p

/-- Inserts all occurrences of the points, which come in ascending order. -/
def insertPoints (label : Text) : (points : List Nat) → (last : Nat) → Progress → Progress
  | [], _, p => p
  | n :: ns, last, p =>
    let q := label.foldl (Progress.pass n)
      { p with delta := p.delta + (n - last) * (p.placed + 1) }
    insertPoints label ns (n + 1) { q with delta := q.delta + 1 }

/-- A label in ASCII. -/
def encode (label : Text) : Text :=
  let basic := label.filter fun c => c.toNat < 128
  let points := ((label.filter fun c => !(c.toNat < 128)).map Char.toNat).eraseDups.mergeSort
  let p := insertPoints label points 128 ⟨0, basic.length, 72, true, []⟩
  if basic.isEmpty then p.digits else basic ++ '-' :: p.digits

/-! ## Decoding -/

/-- Reads a distance; `none` if a digit is missing or is none. -/
def readNumber (bias : Nat) : (j weight sum : Nat) → Text → Option (Nat × Text)
  | _, _, _, [] => none
  | j, w, sum, c :: t =>
    match digitValue? c with
    | none => none
    | some d =>
      let sum := sum + d * w
      if d < threshold j bias then some (sum, t)
      else readNumber bias (j + 1) (w * (36 - threshold j bias)) sum t

theorem length_of_readNumber {bias j w sum n : Nat} {t r : Text}
    (h : readNumber bias j w sum t = some (n, r)) : r.length < t.length := by
  induction t generalizing j w sum with
  | nil => cases h
  | cons c t ih =>
    simp only [readNumber] at h
    split at h
    · cases h
    · split at h
      · simp only [Option.some.injEq, Prod.mk.injEq] at h
        simp [h.2]
      · exact Nat.lt_succ_of_lt (ih h)

/-- What shows a code point: its character, or the stand-in of a half. -/
def char? (standIn : Nat → Char) (n : Nat) : Option Char :=
  if h : n.isValidChar then some (Char.ofNatAux n h)
  else if HexReference.isHalf n then some (standIn n)
  else none

/-- Inserts the characters that the digits describe into the label so far. -/
def insertAll (standIn : Nat → Char) (label : Text) (point index bias : Nat) (first : Bool)
    (t : Text) : Option Text :=
  if t = [] then some label
  else
    match _h : readNumber bias 0 1 0 t with
    | none => none
    | some (delta, r) =>
      let count := label.length + 1
      let place := index + delta
      let n := point + place / count
      match char? standIn n with
      | some c =>
        let i := place % count
        insertAll standIn (label.take i ++ c :: label.drop i) n (i + 1) (adapt first delta count)
          false r
      | none => none
termination_by t.length
decreasing_by exact length_of_readNumber _h

/-- What stands before and after the last hyphen; without one, all is after it. -/
def cutLastHyphen (t : Text) : Text × Text :=
  if '-' ∈ t then
    let r := t.reverse
    (((r.dropWhile (· != '-')).drop 1).reverse, (r.takeWhile (· != '-')).reverse)
  else ([], t)

/-- The label that an ASCII form stands for. -/
def decode? (standIn : Nat → Char) (t : Text) : Option Text :=
  if t.all fun c => c.toNat < 128 then
    let (basic, digits) := cutLastHyphen t
    insertAll standIn basic 128 0 72 true digits
  else none

end Showcase.Punycode
