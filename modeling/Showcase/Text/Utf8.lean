import Showcase.Text.Basic

/-!
# UTF-8

Files hold bytes, and texts are written to them and read from them as UTF-8: each character as its
one to four bytes.

* `encode` writes code points. A half of a surrogate pair is a code point, but it is no character
  and has no bytes. Code points with a half among them are not written at all, and the error tells
  where the first halves are.
* `decode` reads bytes one by one: between characters, or inside one whose first byte announced how
  many follow and, for the first of these, in which range it is. Bytes that are no text are an
  error, which tells where it is: a byte that begins no character, a character that is not continued
  as it should be, or one that the end cuts short.

`charOf?` refuses what the encoding refuses: numbers written longer than needed, halves of surrogate
pairs, and numbers beyond the last code point.

Main statement: `encode_points` (a text can always be written).
-/

namespace Showcase.Text

/-- The bytes of a character. -/
def utf8Char (c : Char) : List Nat :=
  let n := c.toNat
  if n < 0x80 then [n]
  else if n < 0x800 then [0xC0 + n / 64, 0x80 + n % 64]
  else if n < 0x10000 then [0xE0 + n / 4096, 0x80 + n / 64 % 64, 0x80 + n % 64]
  else [0xF0 + n / 262144, 0x80 + n / 4096 % 64, 0x80 + n / 64 % 64, 0x80 + n % 64]

/-- The bytes of a text. -/
def utf8 (t : Text) : List Nat := t.flatMap utf8Char

/-- A byte that continues a character. -/
def isContinuation (b : Nat) : Bool := 0x80 ≤ b && b < 0xC0

/-- The number of bytes that a first byte announces; zero if it is no first byte. -/
def announced (b : Nat) : Nat :=
  if b < 0x80 then 1
  else if 0xC0 ≤ b ∧ b < 0xE0 then 2
  else if 0xE0 ≤ b ∧ b < 0xF0 then 3
  else if 0xF0 ≤ b ∧ b < 0xF8 then 4
  else 0

/-- The character with the given number, if it is a character of at least `width` bytes. -/
def charOf? (width n : Nat) : Option Char :=
  if h : n.isValidChar then
    let c := Char.ofNatAux n h
    if (utf8Char c).length = width then some c else none
  else none

/-! ## Encoding -/

/-- Where code points have no bytes. -/
structure EncodingError where
  /-- the position of the first half of a surrogate pair -/
  first : Nat
  /-- the position of the last of the halves that follow each other from there -/
  last : Nat
  /-- the first half -/
  point : Nat
  deriving DecidableEq

/-- The wording of an error. A single half is named. -/
def EncodingError.message (e : EncodingError) : Text :=
  "'utf-8' codec can't encode ".toList ++
    (if e.first = e.last then
      "character '\\u".toList ++ hex false 4 e.point ++ "' in position ".toList ++ ofNat e.first
    else "characters in position ".toList ++ ofNat e.first ++ '-' :: ofNat e.last) ++
    ": surrogates not allowed".toList

/-- The code point is no character. -/
def isNoCharacter (n : Nat) : Bool := !decide n.isValidChar

/-- The bytes of code points, from a position on. -/
def encodeFrom (position : Nat) : List Nat → Except EncodingError (List Nat)
  | [] => .ok []
  | n :: ns =>
    if isNoCharacter n then
      .error ⟨position, position + (ns.takeWhile isNoCharacter).length, n⟩
    else (encodeFrom (position + 1) ns).map (utf8Char (Char.ofNat n) ++ ·)

/-- The bytes of code points. -/
def encode (points : List Nat) : Except EncodingError (List Nat) := encodeFrom 0 points

theorem isNoCharacter_toNat (c : Char) : isNoCharacter c.toNat = false := by
  have : c.toNat.isValidChar := c.valid
  simp [isNoCharacter, this]

theorem encodeFrom_toNat (position : Nat) (c : Char) (ps : List Nat) :
    encodeFrom position (c.toNat :: ps) =
      (encodeFrom (position + 1) ps).map (utf8Char c ++ ·) := by
  rw [encodeFrom, isNoCharacter_toNat, if_neg Bool.false_ne_true, Char.ofNat_toNat]

/-- The positions are counted on while characters are written. -/
theorem encodeFrom_append (position : Nat) (t : Text) (ps : List Nat) :
    encodeFrom position (t.map Char.toNat ++ ps) =
      (encodeFrom (position + t.length) ps).map (utf8 t ++ ·) := by
  induction t generalizing position with
  | nil => cases h : encodeFrom position ps <;> simp [h, Except.map, utf8]
  | cons c t ih =>
    rw [List.map_cons, List.cons_append, encodeFrom_toNat, ih, List.length_cons,
      Nat.add_right_comm, Nat.add_assoc]
    cases encodeFrom (position + (t.length + 1)) ps <;> simp [Except.map, utf8]

/-- **A text can be written**: all of its code points are characters. -/
theorem encode_points (t : Text) : encode (t.map Char.toNat) = .ok (utf8 t) := by
  have happend := encodeFrom_append 0 t []
  rw [List.append_nil] at happend
  rw [encode, happend, encodeFrom, Except.map, List.append_nil]

/-! ## Decoding -/

/-- What is wrong with bytes that are no text. -/
inductive Malformation
  /-- a byte begins no character -/
  | start
  /-- a character is not continued -/
  | continuation
  /-- the end cuts a character short -/
  | cutShort
  deriving DecidableEq

/-- Where bytes are no text, and why. -/
structure DecodingError where
  /-- the position of the first byte of the character -/
  first : Nat
  /-- the position of the last byte that was read as part of it -/
  last : Nat
  /-- the first byte -/
  byte : Nat
  /-- what is wrong -/
  malformation : Malformation
  deriving DecidableEq

namespace DecodingError

/-- The wording of what is wrong. -/
def reason : Malformation → String
  | .start => "invalid start byte"
  | .continuation => "invalid continuation byte"
  | .cutShort => "unexpected end of data"

/-- The wording of an error. -/
def message (e : DecodingError) : Text :=
  "'utf-8' codec can't decode ".toList ++
    (if e.first = e.last then
      "byte 0x".toList ++ hex false 2 e.byte ++ " in position ".toList ++ ofNat e.first
    else "bytes in position ".toList ++ ofNat e.first ++ '-' :: ofNat e.last) ++
    ':' :: ' ' :: (reason e.malformation).toList

end DecodingError

/-- A character that is being read. -/
structure Unfinished where
  /-- the position of its first byte -/
  first : Nat
  /-- its first byte -/
  byte : Nat
  /-- the number that its bytes so far write -/
  value : Nat
  /-- how many bytes are still to come after the next one -/
  further : Nat
  /-- the least next byte -/
  low : Nat
  /-- the greatest next byte -/
  high : Nat

/-- The character that a byte begins, if it begins one of several bytes. -/
def begin? (position b : Nat) : Option Unfinished :=
  if 0xC2 ≤ b ∧ b ≤ 0xDF then some ⟨position, b, b - 0xC0, 0, 0x80, 0xBF⟩
  else if 0xE0 ≤ b ∧ b ≤ 0xEF then
    some ⟨position, b, b - 0xE0, 1, if b = 0xE0 then 0xA0 else 0x80,
      if b = 0xED then 0x9F else 0xBF⟩
  else if 0xF0 ≤ b ∧ b ≤ 0xF4 then
    some ⟨position, b, b - 0xF0, 2, if b = 0xF0 then 0x90 else 0x80,
      if b = 0xF4 then 0x8F else 0xBF⟩
  else none

/-- The text of bytes, from a position on and maybe inside a character. -/
def decodeFrom (position : Nat) : Option Unfinished → List Nat → Except DecodingError Text
  | none, [] => .ok []
  | some u, [] => .error ⟨u.first, position - 1, u.byte, .cutShort⟩
  | none, b :: bs =>
    if b < 0x80 then (decodeFrom (position + 1) none bs).map (Char.ofNat b :: ·)
    else
      match begin? position b with
      | some u => decodeFrom (position + 1) (some u) bs
      | none => .error ⟨position, position, b, .start⟩
  | some u, b :: bs =>
    if u.low ≤ b ∧ b ≤ u.high then
      let value := u.value * 64 + (b - 0x80)
      match u.further with
      | 0 => (decodeFrom (position + 1) none bs).map (Char.ofNat value :: ·)
      | n + 1 => decodeFrom (position + 1) (some ⟨u.first, u.byte, value, n, 0x80, 0xBF⟩) bs
    else .error ⟨u.first, position - 1, u.byte, .continuation⟩

/-- The text of bytes. -/
def decode (bytes : List Nat) : Except DecodingError Text := decodeFrom 0 none bytes

/-- What may go wrong between texts and bytes. -/
inductive CodecError
  /-- bytes are no text -/
  | decoding (e : DecodingError)
  /-- code points have no bytes -/
  | encoding (e : EncodingError)
  deriving DecidableEq

/-- The wording of an error. -/
def CodecError.message : CodecError → Text
  | decoding e => e.message
  | encoding e => e.message

end Showcase.Text
