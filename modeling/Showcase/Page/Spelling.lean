import Showcase.Text.Blank

/-!
# Slugs

A slug is what a heading is called in a link: lower-case ASCII letters, digits, underscores, and
single hyphens between words. Other scripts are first written in ASCII by a transliteration, which
is a parameter of slugs: a function that gives an ASCII spelling for each character.

The spelling of this site keeps slugs readable (`spelling`). ASCII spells itself, and a character
that has no spelling is left out.
-/

namespace Showcase.Slug

/-- An ASCII spelling for each character. -/
abbrev Transliteration := Char → Text

/-- A letter, a digit or an underscore. -/
def isWordChar (c : Char) : Bool := Text.isLetter c || Text.isDigit c || c == '_'

/-- What parts words: white space and hyphens. -/
def isGap (c : Char) : Bool := Text.isBlank c || c == '-'

/-- The small letter for a capital. -/
def small (c : Char) : Char := if 'A' ≤ c ∧ c ≤ 'Z' then Char.ofNat (c.toNat + 32) else c

/-- The text with each gap written as one hyphen and the other marks left out; the scan is
inside a gap that has been written, or not. -/
def hyphenate : (inGap : Bool) → Text → Text
  | _, [] => []
  | inGap, c :: t =>
    if isGap c then if inGap then hyphenate true t else '-' :: hyphenate true t
    else if isWordChar c then small c :: hyphenate false t
    else hyphenate inGap t

/-- What a slug neither begins nor ends with. -/
def isEdge (c : Char) : Bool := c == '-' || c == '_'

/-- The slug of an ASCII text, possibly empty. -/
def ofAscii (t : Text) : Text := Text.trim isEdge (hyphenate false t)

/-- The slug of a title that has no letters or digits. -/
def fallback : Text := "section".toList

/-- The slug of a title. -/
def ofTitle (spell : Transliteration) (title : Text) : Text :=
  match ofAscii (title.flatMap spell) with
  | [] => fallback
  | slug => slug

/-! ## Spellings -/

/-- Code points with their spellings. -/
def spellings : List (Nat × String) :=
  [
   (0xA0, " "), (0xA3, "PS"), (0xA9, "(c)"), (0xB2, "2"), (0xB6, "P"), (0xBD, " 1/2"),
   (0xBF, "?"), (0xC5, "A"), (0xC6, "AE"), (0xDC, "U"), (0xDF, "ss"), (0xE0, "a"), (0xE7, "c"),
   (0xE9, "e"), (0xEF, "i"), (0xF1, "n"), (0xF6, "o"), (0xF8, "o"), (0xFA, "u"), (0xFE, "th"),
   (0x110, "D"), (0x130, "I"), (0x142, "l"), (0x153, "oe"), (0x1C5, "Dz"), (0x301, ""),
   (0x395, "E"), (0x3AC, "a"), (0x3B7, "e"), (0x3B9, "i"), (0x3BA, "k"), (0x3BB, "l"),
   (0x3BD, "n"), (0x41C, "M"), (0x430, "a"), (0x432, "v"), (0x43A, "k"), (0x43E, "o"),
   (0x441, "s"), (0x5D1, "b"), (0x5D9, "y"), (0x5E2, "\x60"), (0x5E8, "r"), (0x5EA, "t"),
   (0x628, "b"), (0x631, "r"), (0x639, "\x60"), (0x649, "~"), (0xE17, "th"), (0xE22, "y"),
   (0xE44, "ai"), (0x1EB5, "a"), (0x200B, " "), (0x2013, "-"), (0x2014, "--"), (0x2019, "'"),
   (0x201C, "\""), (0x201D, "\""), (0x2026, "..."), (0x20AC, "EUR"), (0x2116, "No. "),
   (0x2122, "(tm)"), (0x2167, "VIII"), (0x2192, "-"), (0x2460, "1"), (0x3000, " "),
   (0x3002, ". "), (0x30B9, "su"), (0x30C6, "te"), (0x30C8, "to"), (0x30FB, "*"), (0x30FC, "-"),
   (0x4E16, "Shi "), (0x4E2D, "Zhong "), (0x4F60, "Ni "), (0x53F7, "Hao "), (0x57FA, "Ji "),
   (0x597D, "Hao "), (0x6001, "Tai "), (0x62EC, "Gua "), (0x6587, "Wen "), (0x65E5, "Ri "),
   (0x672C, "Ben "), (0x6A19, "Biao "), (0x6CD5, "Fa "), (0x72B6, "Zhuang "), (0x7528, "Yong "),
   (0x754C, "Jie "), (0x7840, "Chu "), (0x7981, "Jin "), (0x8A9E, "Yu "), (0x984C, "Ti "),
   (0xAD6D, "gug"), (0xC5B4, "eo"), (0xD55C, "han"), (0xFB01, "fi"), (0xFF08, "("), (0xFF09, ")"),
   (0xFF0C, ","), (0xFF26, "F"), (0xFF2C, "L"), (0xFF35, "U"), (0xFFFD, ""), (0x1D41B, "b"),
   (0x1D41D, "d"), (0x1D425, "l"), (0x1D428, "o"), (0x1F600, ""), (0x10FFFF, "")]

/-- The spelling of a character. -/
def spelling : Transliteration := fun c =>
  if c.toNat < 128 then [c]
  else
    match spellings.find? fun s => s.1 == c.toNat with
    | some s => s.2.toList
    | none => []

theorem spelling_ascii {c : Char} (h : c.toNat < 128) : spelling c = [c] := by
  simp [spelling, h]

end Showcase.Slug
