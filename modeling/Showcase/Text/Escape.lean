import Showcase.Text.Blank

/-!
# Escaped and quoted text

Four ways to write a text so that it can stand inside something else:

* `escape`: text in HTML, with references for the four characters that markup needs;
* `escapeQuotes`: the same and a reference for the single quote, for text that a template puts
  between quotes of either kind;
* `jsonString`: a JSON string. Only what JSON demands is escaped, so that all scripts stay readable;
* `quoted`: a name or a key in a message. It stands between single quotes, or between double quotes
  if it has single quotes only; the backslash, the enclosing quote and what does not print are
  escaped.
-/

namespace Showcase.Text

/-- A character as HTML text. -/
def escapeChar (c : Char) : Text :=
  if c = '&' then "&amp;".toList
  else if c = '<' then "&lt;".toList
  else if c = '>' then "&gt;".toList
  else if c = '"' then "&quot;".toList
  else [c]

/-- A text as HTML text. -/
def escape (t : Text) : Text := t.flatMap escapeChar

/-- A character as HTML text between quotes of either kind. -/
def escapeQuotesChar (c : Char) : Text := if c = '\'' then "&#x27;".toList else escapeChar c

/-- A text as HTML text between quotes of either kind. -/
def escapeQuotes (t : Text) : Text := t.flatMap escapeQuotesChar

/-- A character inside a JSON string. -/
def jsonChar (c : Char) : Text :=
  if c = '"' then ['\\', '"']
  else if c = '\\' then ['\\', '\\']
  else if c = '\n' then ['\\', 'n']
  else if c = '\r' then ['\\', 'r']
  else if c = '\t' then ['\\', 't']
  else if c = '\x0c' then ['\\', 'f']
  else if c = '\x08' then ['\\', 'b']
  else if c.toNat < 32 then '\\' :: 'u' :: hex false 4 c.toNat
  else [c]

/-- A text as a JSON string. -/
def jsonString (t : Text) : Text := '"' :: (t.flatMap jsonChar ++ ['"'])

/-! ## Quotes -/

/-- A character that leaves no mark of its own: a control, a soft hyphen, a mark of direction or
order, or white space other than the space. -/
def isUnprinted (c : Char) : Bool :=
  let n := c.toNat
  n < 32 || (127 ≤ n && n < 160) || n == 0xAD || (isBlank c && c ≠ ' ')
    || (0x200B ≤ n && n ≤ 0x200F) || (0x202A ≤ n && n ≤ 0x202E) || (0x2060 ≤ n && n ≤ 0x206F)
    || (0xE000 ≤ n && n ≤ 0xF8FF) || n == 0xFEFF || 0xE0000 ≤ n

/-- A character between quotes. -/
def quotedChar (quote c : Char) : Text :=
  if c = quote ∨ c = '\\' then ['\\', c]
  else if c = '\n' then ['\\', 'n']
  else if c = '\r' then ['\\', 'r']
  else if c = '\t' then ['\\', 't']
  else if isUnprinted c then
    if c.toNat < 0x100 then '\\' :: 'x' :: hex false 2 c.toNat
    else if c.toNat < 0x10000 then '\\' :: 'u' :: hex false 4 c.toNat
    else '\\' :: 'U' :: hex false 8 c.toNat
  else [c]

/-- The quote that encloses a text. -/
def quoteFor (t : Text) : Char := if '\'' ∈ t ∧ '"' ∉ t then '"' else '\''

/-- The text in quotes. -/
def quoted (t : Text) : Text := quoteFor t :: (t.flatMap (quotedChar (quoteFor t)) ++ [quoteFor t])

end Showcase.Text
