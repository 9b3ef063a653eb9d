import Showcase.Text.Reference

/-!
# References in documents

A document may write a character by its number or by its name. Two places read references with
different rules:

* in an attribute value (`expandAll`), a reference needs no semicolon, a name may be the beginning
  of a longer word, and a number that stands for no character stands for nothing;
* in running text, where a reference begins and ends is for the reader of tokens to say; here is
  only what a number (`ofNumber`) or a name (`ofName`) stands for.

In both, the numbers from 128 to 159 mean the characters that the code page of western typewriters
has there, since that is what the authors of such references meant.
-/

namespace Showcase.Document.Reference

/-- What the western code page has at the places from 128 to 159. -/
def westernTable : List Nat :=
  [0x20AC, 0x81, 0x201A, 0x192, 0x201E, 0x2026, 0x2020, 0x2021,
    0x2C6, 0x2030, 0x160, 0x2039, 0x152, 0x8D, 0x17D, 0x8F,
    0x90, 0x2018, 0x2019, 0x201C, 0x201D, 0x2022, 0x2013, 0x2014,
    0x2DC, 0x2122, 0x161, 0x203A, 0x153, 0x9D, 0x17E, 0x178]

/-- The number of the character that is meant by a number. -/
def western (n : Nat) : Nat :=
  if 0x80 ≤ n then (westernTable[n - 0x80]?).getD n else n

/-- The character that stands where no character can. -/
def replacement : Char := Char.ofNat 0xFFFD

/-- The character with the given number. -/
def ofNumber (n : Nat) : Char :=
  if n.isValidChar then Char.ofNat (western n) else replacement

/-- What a name stands for in running text; an unknown name stands for itself, without the semicolon
after it. -/
def ofName (name : Text) : Text := (Text.named? name).getD ('&' :: name)

/-! ## Attribute values -/

/-- The number is kept free for controls or set apart as no character. -/
def isNothing (n : Nat) : Bool :=
  (1 ≤ n && n ≤ 8) || n == 11 || (14 ≤ n && n ≤ 31) || n == 127 || (0xFDD0 ≤ n && n ≤ 0xFDEF)
    || 0xFFFE ≤ n % 0x10000

/-- What a number stands for in a value. -/
def number (n : Nat) : Text :=
  if n = 0 ∨ ¬ n.isValidChar then [replacement] else if isNothing n then [] else [ofNumber n]

/-- The text without a semicolon at its beginning. -/
def dropSemicolon : Text → Text
  | ';' :: t => t
  | t => t

/-- A character that may stand in the name of a reference. -/
def isNameChar (c : Char) : Bool :=
  !(c == '\t' || c == '\n' || c == '\x0c' || c == ' '
    || c == '<' || c == '&' || c == '#' || c == ';')

/-- The longest beginning of a word that names a character without a semicolon, expanded, and the
rest of the word. -/
def expandBeginning? (word : Text) : Option Text :=
  (List.range word.length).reverse.findSome? fun n =>
    if n < 2 then none else (Text.bare? (word.take n)).map (· ++ word.drop n)

/-- A word that follows an ampersand, expanded; `closed` tells that a semicolon follows it. -/
def expandWord (closed : Bool) (word : Text) : Text :=
  let written := if closed then word ++ [';'] else word
  match if closed then Text.named? word else Text.bare? word with
  | some value => value
  | none => (expandBeginning? written).getD ('&' :: written)

/-- The text after an ampersand, with the reference that begins there expanded. -/
def expand : Text → Text
  | '#' :: t =>
    let hexadecimal := match t with
      | 'x' :: r | 'X' :: r => Text.spanClass (fun c => (Text.hexValue? c).isSome) r
      | _ => ([], t)
    let decimal := Text.spanClass Text.isDigit t
    if hexadecimal.1 ≠ [] then
      number (Text.hexNumber hexadecimal.1) ++ dropSemicolon hexadecimal.2
    else if decimal.1 ≠ [] then number (Text.decimalNumber decimal.1) ++ dropSemicolon decimal.2
    else '&' :: '#' :: t
  | t =>
    let word := (t.takeWhile isNameChar).take 32
    let rest := t.drop word.length
    if word = [] then '&' :: t
    else expandWord (rest.head? == some ';') word ++ dropSemicolon rest

/-- A value with its references expanded. No reference has an ampersand in it, so the pieces between
the ampersands are read one by one. -/
def expandAll (t : Text) : Text :=
  match Text.splitOn '&' t with
  | [] => []
  | piece :: pieces => piece ++ pieces.flatMap expand

end Showcase.Document.Reference
