/-!
# Text

A text is a list of characters: every operation of the library recurses on what is left of it.
This module holds the few operations that all other modules share.

* `after?` reads a given beginning and hands back what follows it;
* `cut?` splits at the first occurrence of a piece, `replaceFirst` and `replaceAll` exchange
  occurrences from left to right without looking at what they have written;
* `trim` drops a class of characters at both ends, `splitOn` splits at a character.

Main statements: `after?_eq_some_iff` (a beginning is read exactly when it is there) and
`cut?_eq_some` (the two halves of a cut and the piece make up the text again).
-/

namespace Showcase

/-- A text is the list of its characters. -/
abbrev Text := List Char

namespace Text

instance : LawfulBEq Text := inferInstance

/-- Texts are keys of tables. -/
instance : Hashable Text where
  hash t := t.foldl (fun h c => mixHash h c.toNat.toUInt64) 7

/-- What follows `p`, if the text begins with `p`. -/
def after? : (p t : Text) → Option Text
  | [], t => some t
  | _ :: _, [] => none
  | c :: p, d :: t => if c = d then after? p t else none

/-- The text begins with `p`. -/
def startsWith (t p : Text) : Bool := (after? p t).isSome

/-- The text ends with `p`. -/
def endsWith (t p : Text) : Bool := startsWith t.reverse p.reverse

/-- What stands before and after the first occurrence of `p`. -/
def cut? (p : Text) : Text → Option (Text × Text)
  | [] => if p = [] then some ([], []) else none
  | c :: t =>
    match after? p (c :: t) with
    | some r => some ([], r)
    | none => (cut? p t).map fun x => (c :: x.1, x.2)

/-- The text has `p` in it. -/
def has (t p : Text) : Bool := (cut? p t).isSome

/-- The text with the first occurrence of `p` written as `q`. -/
def replaceFirst (p q t : Text) : Text :=
  match cut? p t with
  | some (a, b) => a ++ q ++ b
  | none => t

/-- The text with every occurrence of a non-empty `p` written as `q`; `k` characters of an
occurrence are still to be passed over. -/
def replaceFrom (p q : Text) : (k : Nat) → Text → Text
  | _, [] => []
  | k + 1, _ :: t => replaceFrom p q k t
  | 0, c :: t =>
    if startsWith (c :: t) p then q ++ replaceFrom p q (p.length - 1) t
    else c :: replaceFrom p q 0 t

/-- The text with every occurrence of a non-empty `p`, read from left to right, written as `q`. -/
def replaceAll (p q t : Text) : Text := replaceFrom p q 0 t

/-- The text without the characters of the class at its end. -/
def trimEnd (cls : Char → Bool) (t : Text) : Text := (t.reverse.dropWhile cls).reverse

/-- The text without the characters of the class at both ends. -/
def trim (cls : Char → Bool) (t : Text) : Text := trimEnd cls (t.dropWhile cls)

/-- The pieces between the occurrences of a separating character; there is always at least one. -/
def splitOn (sep : Char) : Text → List Text
  | [] => [[]]
  | c :: t =>
    match splitOn sep t with
    | [] => [[c]]
    | p :: ps => if c = sep then [] :: p :: ps else (c :: p) :: ps

/-- The pieces with the separating text between neighbours. -/
def joinWith (sep : Text) : List Text → Text
  | [] => []
  | [p] => p
  | p :: q :: ps => p ++ sep ++ joinWith sep (q :: ps)

/-- The longest beginning in the class, and the rest. -/
def spanClass (cls : Char → Bool) (t : Text) : Text × Text := (t.takeWhile cls, t.dropWhile cls)

/-- A decimal number without sign or leading zeros. -/
def ofNat (n : Nat) : Text := (Nat.repr n).toList

/-- The digit with the given value, in lower or upper case. -/
def hexDigit (upper : Bool) (n : Nat) : Char :=
  if n < 10 then Char.ofNat (48 + n) else Char.ofNat ((if upper then 55 else 87) + n)

/-- The last `width` hexadecimal digits of a number. -/
def hex (upper : Bool) : (width n : Nat) → Text
  | 0, _ => []
  | w + 1, n => hex upper w (n / 16) ++ [hexDigit upper (n % 16)]

/-- The value of a hexadecimal digit in either case. -/
def hexValue? (c : Char) : Option Nat :=
  if '0' ≤ c ∧ c ≤ '9' then some (c.toNat - 48)
  else if 'a' ≤ c ∧ c ≤ 'f' then some (c.toNat - 87)
  else if 'A' ≤ c ∧ c ≤ 'F' then some (c.toNat - 55)
  else none

/-- A letter of the ASCII alphabet. -/
def isLetter (c : Char) : Bool := ('a' ≤ c && c ≤ 'z') || ('A' ≤ c && c ≤ 'Z')

/-- An ASCII digit. -/
def isDigit (c : Char) : Bool := '0' ≤ c && c ≤ '9'

/-! ## Reading a beginning -/

theorem after?_eq_some_iff {p t r : Text} : after? p t = some r ↔ t = p ++ r := by
  induction p generalizing t with
  | nil => simp [after?]
  | cons c p ih =>
    cases t with
    | nil => simp [after?]
    | cons d t =>
      by_cases h : c = d
      · subst h; simp [after?, ih]
      · simp [after?, h, Ne.symm h]

theorem after?_append (p r : Text) : after? p (p ++ r) = some r := after?_eq_some_iff.2 rfl

theorem startsWith_iff {t p : Text} : startsWith t p = true ↔ ∃ r, t = p ++ r := by
  simp [startsWith, Option.isSome_iff_exists, after?_eq_some_iff]

/-! ## Cutting at a piece -/

theorem cut?_eq_some {p t a b : Text} (h : cut? p t = some (a, b)) : t = a ++ p ++ b := by
  induction t generalizing a b with
  | nil =>
    simp only [cut?] at h
    split at h <;> simp_all
  | cons c t ih =>
    simp only [cut?] at h
    split at h
    · next r hr =>
      simp only [Option.some.injEq, Prod.mk.injEq] at h
      obtain ⟨rfl, rfl⟩ := h
      simpa using after?_eq_some_iff.1 hr
    · simp only [Option.map_eq_some_iff, Prod.mk.injEq, Prod.exists] at h
      obtain ⟨a', b', h, rfl, rfl⟩ := h
      simp [ih h]

end Text

end Showcase
