import Showcase.Text.Reference
import Showcase.Text.Punctuation

/-!
# Escapes and references

A backslash takes an ASCII mark out of its special role, and a character reference stands for one or
two characters. Both can occur in running text, in destinations, in titles and in the info of a
fence. Outside of running text they are simply undone (`unescape`).

A numeric reference never makes a control, a non-character or a half of a surrogate pair.
-/

namespace Showcase.Unescape

/-- The character with a code point that a reference may make. -/
def char? (n : Nat) : Option Char :=
  if (0xFDD0 ≤ n ∧ n ≤ 0xFDEF) ∨ 0xFFFE ≤ n % 0x10000 ∨ n ≤ 8 ∨ n = 11 ∨ (14 ≤ n ∧ n ≤ 31)
      ∨ (127 ≤ n ∧ n ≤ 159) then none
  else if h : n.isValidChar then some (Char.ofNatAux n h)
  else none

/-- The character for a number that makes none. -/
def replacement : Char := Char.ofNat 0xFFFD

/-- The text before a semicolon, all of it in a class and its length in the bounds; and the rest. -/
def untilSemicolon? (cls : Char → Bool) (least most : Nat) (t : Text) : Option (Text × Text) :=
  let (name, r) := Text.spanClass cls t
  match r with
  | ';' :: r => if least ≤ name.length ∧ name.length ≤ most then some (name, r) else none
  | _ => none

/-- A hexadecimal digit. -/
def isHexDigit (c : Char) : Bool := (Text.hexValue? c).isSome

/-- A letter or digit of the ASCII alphabet. -/
def isAlphanumeric (c : Char) : Bool := Text.isLetter c || Text.isDigit c

/-- The code point of a numeric reference after its ampersand, and the rest. The bounds are the most
digits in each notation. -/
def codePoint? (mostDecimal mostHex : Nat) : Text → Option (Nat × Text)
  | '#' :: c :: t =>
    if c = 'x' ∨ c = 'X' then
      (untilSemicolon? isHexDigit 1 mostHex t).map fun x => (Text.hexNumber x.1, x.2)
    else
      (untilSemicolon? Text.isDigit 1 mostDecimal (c :: t)).map fun x =>
        (Text.decimalNumber x.1, x.2)
  | _ => none

/-- What a named reference stands for, after its ampersand, and the rest. -/
def named? : Text → Option (Text × Text)
  | [] => none
  | c :: t =>
    if Text.isLetter c then do
      let (name, r) ← untilSemicolon? isAlphanumeric 2 32 (c :: t)
      return (← Text.named? name, r)
    else none

/-- What a reference in running text stands for, after its ampersand, and the rest. -/
def reference? (t : Text) : Option (Text × Text) :=
  match codePoint? 7 6 t with
  | some (n, r) => some ([(char? n).getD replacement], r)
  | none => named? t

/-- What a reference outside of running text stands for, after its ampersand, and the rest. A number
that makes no character is no reference here. -/
def quietReference? (t : Text) : Option (Text × Text) :=
  match codePoint? 8 8 t with
  | some (n, r) => (char? n).map fun c => ([c], r)
  | none => named? t

/-- The text with escapes and references undone; the next `k` characters are already read. -/
def unescapeFrom : (k : Nat) → Text → Text
  | _, [] => []
  | k + 1, _ :: t => unescapeFrom k t
  | 0, '\\' :: c :: t =>
    if Text.isAsciiMark c then c :: unescapeFrom 1 (c :: t) else '\\' :: unescapeFrom 0 (c :: t)
  | 0, c :: t =>
    if c = '&' then
      match quietReference? t with
      | some (value, r) => value ++ unescapeFrom (t.length - r.length) t
      | none => c :: unescapeFrom 0 t
    else c :: unescapeFrom 0 t

/-- The text with escapes and references undone. -/
def unescape (t : Text) : Text := unescapeFrom 0 t

end Showcase.Unescape
