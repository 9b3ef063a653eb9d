import Showcase.Text.Basic

/-!
# Blanks

Two classes of blank characters occur in pages.

* `isBlank`: the white space of all scripts, that is the space separators, the ASCII and Latin
  controls that move the print position, and the four information separators. It decides what is
  trimmed from a marker, a title or a table cell. The zero-width space is not in it.
* `isSpaceOrTab`: what may indent a line of markup.
-/

namespace Showcase.Text

/-- White space of any script. -/
def isBlank (c : Char) : Bool :=
  let n := c.toNat
  (9 ≤ n && n ≤ 13) || (28 ≤ n && n ≤ 32) || n == 0x85 || n == 0xA0 || n == 0x1680
    || (0x2000 ≤ n && n ≤ 0x200A) || n == 0x2028 || n == 0x2029 || n == 0x202F || n == 0x205F
    || n == 0x3000

/-- A space or a tab. -/
def isSpaceOrTab (c : Char) : Bool := c == ' ' || c == '\t'

/-- The text without white space at its ends. -/
def strip (t : Text) : Text := trim isBlank t

/-- The text has nothing but white space. -/
def isBlankText (t : Text) : Bool := t.all isBlank

/-- The words of the text: the runs of characters that are no white space; `word` is the one being
read, backwards. -/
def wordsFrom (word : Text) : Text → List Text
  | [] => if word = [] then [] else [word.reverse]
  | c :: t =>
    if isBlank c then
      if word = [] then wordsFrom [] t else word.reverse :: wordsFrom [] t
    else wordsFrom (c :: word) t

/-- The words of the text, that is what white space parts. -/
def words (t : Text) : List Text := wordsFrom [] t

end Showcase.Text
