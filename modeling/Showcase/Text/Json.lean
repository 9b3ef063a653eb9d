import Showcase.Text.HexReference
import Showcase.Text.Basic

/-!
# JSON

JSON values and how they are read. Readers take a value off the beginning of a text and hand back
what follows it; white space may stand around every value and every sign.

* A string has no control characters in it. An escape may name a character by one code unit, or by
  the two of a surrogate pair (`Json.codeUnits?`). Half a pair is no character and is not read.
* A number is kept as it is written.
* Values nest, and the readers of values, items and entries call each other. They carry a bound on
  the depth and the number of calls, which `Json.parse` takes from the length of the text.
-/

namespace Showcase.Text

/-- A JSON value. -/
inductive Json
  | null
  | flag (b : Bool)
  | number (written : Text)
  | text (t : Text)
  | list (items : List Json)
  | record (entries : List (Text × Json))

namespace Json

open HexReference (isHigh isLow paired)

/-- White space between the signs of a JSON text. -/
def isSpace (c : Char) : Bool := c == ' ' || c == '\t' || c == '\n' || c == '\r'

/-- The text after white space. -/
def skip (t : Text) : Text := t.dropWhile isSpace

/-! ## Strings -/

/-- Four hexadecimal digits and what follows them. -/
def codeUnit? : Text → Option (Nat × Text)
  | a :: b :: c :: d :: t => do
    let n := (((← hexValue? a) * 16 + (← hexValue? b)) * 16 + (← hexValue? c)) * 16
      + (← hexValue? d)
    return (n, t)
  | _ => none

/-- The character that one or two code units name; `t` is what follows the first `\u`. -/
def codeUnits? (t : Text) : Option (Char × Text) := do
  let (n, r) ← codeUnit? t
  if isHigh n then
    let (m, s) ← codeUnit? (← after? ['\\', 'u'] r)
    if isLow m then return (Char.ofNat (paired n m), s) else none
  else if isLow n then none
  else return (Char.ofNat n, r)

/-- The character that a single letter names after a backslash. -/
def named? (c : Char) : Option Char :=
  if c = '"' ∨ c = '\\' ∨ c = '/' then some c
  else if c = 'b' then some '\x08'
  else if c = 'f' then some '\x0c'
  else if c = 'n' then some '\n'
  else if c = 'r' then some '\r'
  else if c = 't' then some '\t'
  else none

/-- The character of an escape; `t` is what follows the backslash. -/
def escape? (t : Text) : Option (Char × Text) :=
  match t with
  | [] => none
  | c :: r => if c = 'u' then codeUnits? r else (named? c).map fun d => (d, r)

theorem length_codeUnit?_lt {t r : Text} {n : Nat} (h : codeUnit? t = some (n, r)) :
    r.length < t.length := by
  rw [codeUnit?.eq_def] at h
  split at h
  · simp only [Option.bind_eq_bind, Option.bind_eq_some_iff, Option.pure_def, Option.some.injEq,
      Prod.mk.injEq] at h
    obtain ⟨_, _, _, _, _, _, _, _, _, rfl⟩ := h
    simp only [List.length_cons]
    omega
  · cases h

theorem length_codeUnits?_lt {t r : Text} {c : Char} (h : codeUnits? t = some (c, r)) :
    r.length < t.length := by
  simp only [codeUnits?, Option.bind_eq_bind, Option.bind_eq_some_iff, Prod.exists] at h
  obtain ⟨n, u, hn, h⟩ := h
  have hu := length_codeUnit?_lt hn
  split at h
  · simp only [Option.bind_eq_some_iff, Prod.exists] at h
    obtain ⟨v, hv, m, s, hm, h⟩ := h
    have hs := length_codeUnit?_lt hm
    -- a second unit may follow, with its own mark before it
    have := congrArg List.length (after?_eq_some_iff.1 hv)
    split at h
    · simp only [Option.pure_def, Option.some.injEq, Prod.mk.injEq] at h
      obtain ⟨-, rfl⟩ := h
      simp only [List.length_append] at this
      omega
    · cases h
  · split at h
    · cases h
    · simp only [Option.pure_def, Option.some.injEq, Prod.mk.injEq] at h
      obtain ⟨-, rfl⟩ := h
      exact hu

theorem length_escape?_lt {t r : Text} {c : Char} (h : escape? t = some (c, r)) :
    r.length < t.length := by
  rw [escape?.eq_def] at h
  split at h
  · cases h
  · split at h
    · exact Nat.lt_succ_of_lt (length_codeUnits?_lt h)
    · simp only [Option.map_eq_some_iff, Prod.mk.injEq] at h
      obtain ⟨_, _, _, rfl⟩ := h
      exact Nat.lt_succ_self _

/-- A string up to its closing quote, and what follows; `t` is what follows the opening one. -/
def string? (t : Text) : Option (Text × Text) :=
  match t with
  | [] => none
  | c :: r =>
    if c = '"' then some ([], r)
    else if c = '\\' then
      match _h : escape? r with
      | some (d, s) => (string? s).map fun x => (d :: x.1, x.2)
      | none => none
    else if c.toNat < 32 then none
    else (string? r).map fun x => (c :: x.1, x.2)
termination_by t.length
decreasing_by
  · have := length_escape?_lt _h
    simp only [List.length_cons]
    omega
  · simp

/-! ## Numbers and words -/

/-- One or more decimal digits. -/
def digits? (t : Text) : Option (Text × Text) :=
  if t.takeWhile isDigit = [] then none
  else some (t.takeWhile isDigit, t.dropWhile isDigit)

/-- A whole number without leading zeros. -/
def whole? (t : Text) : Option (Text × Text) :=
  match t with
  | '0' :: r => some (['0'], r)
  | _ => digits? t

/-- A fraction, which may be missing. -/
def fraction (t : Text) : Text × Text :=
  match t with
  | '.' :: r => ((digits? r).map fun x => ('.' :: x.1, x.2)).getD ([], t)
  | _ => ([], t)

/-- An exponent, which may be missing. -/
def exponent (t : Text) : Text × Text :=
  match t with
  | e :: r =>
    if e = 'e' ∨ e = 'E' then
      let sign := r.take 1 |>.filter fun c => c == '+' || c == '-'
      ((digits? (r.drop sign.length)).map fun x => (e :: (sign ++ x.1), x.2)).getD ([], t)
    else ([], t)
  | [] => ([], t)

/-- A number. -/
def number? (t : Text) : Option (Json × Text) := do
  let sign := t.take 1 |>.filter (· == '-')
  let (whole, r) ← whole? (t.drop sign.length)
  let (part, r) := fraction r
  let (power, r) := exponent r
  return (number (sign ++ whole ++ part ++ power), r)

/-- A value that is written as a word, or a number. -/
def word? (t : Text) : Option (Json × Text) :=
  (after? "null".toList t).map (null, ·)
    <|> (after? "true".toList t).map (flag true, ·)
    <|> (after? "false".toList t).map (flag false, ·)
    <|> number? t

/-! ## Values -/

/-- The key of an entry, with the colon after it. -/
def key? (t : Text) : Option (Text × Text) :=
  match skip t with
  | '"' :: r => (string? r).bind fun x => (after? [':'] (skip x.2)).map fun s => (x.1, s)
  | _ => none

mutual

/-- A value. -/
def value? : (bound : Nat) → Text → Option (Json × Text)
  | 0, _ => none
  | n + 1, t =>
    match skip t with
    | '"' :: r => (string? r).map fun x => (text x.1, x.2)
    | '[' :: r =>
      match skip r with
      | ']' :: s => some (list [], s)
      | _ => (items? n r).map fun x => (list x.1, x.2)
    | '\x7b' :: r =>
      match skip r with
      | '\x7d' :: s => some (record [], s)
      | _ => (entries? n r).map fun x => (record x.1, x.2)
    | s => word? s

/-- The items of a list, and what follows its closing bracket. -/
def items? : (bound : Nat) → Text → Option (List Json × Text)
  | 0, _ => none
  | n + 1, t =>
    match value? n t with
    | none => none
    | some (v, r) =>
      match skip r with
      | ',' :: s => (items? n s).map fun x => (v :: x.1, x.2)
      | ']' :: s => some ([v], s)
      | _ => none

/-- The entries of a record, and what follows its closing brace. -/
def entries? : (bound : Nat) → Text → Option (List (Text × Json) × Text)
  | 0, _ => none
  | n + 1, t =>
    match key? t with
    | none => none
    | some (key, r) =>
      match value? n r with
      | none => none
      | some (v, r) =>
        match skip r with
        | ',' :: s => (entries? n s).map fun x => ((key, v) :: x.1, x.2)
        | '\x7d' :: s => some ([(key, v)], s)
        | _ => none

end

/-- The value that a text is. Of two calls, one inside the other, the inner one has less to read, so
the bound is never met. -/
def parse (t : Text) : Option Json :=
  match value? (2 * t.length + 1) t with
  | some (v, r) => if skip r = [] then some v else none
  | none => none

end Json

end Showcase.Text
