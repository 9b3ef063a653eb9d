import Showcase.Markup.Dialect
import Showcase.Markup.Content
import Showcase.Markup.RawHtml

/-!
# Atoms

The inline constructs that have no inline content of their own: escapes, code spans, links in angle
brackets, raw HTML and character references. `atom?` reads the one at the beginning of a text.
-/

namespace Showcase.Inline

/-! ## Code spans -/

/-- The number of backquotes at the beginning of the text. -/
def backquotes (t : Text) : Nat := (t.takeWhile (· == '\x60')).length

/-- The text before the first run of exactly `n` backquotes, and what follows it; the next `k`
characters belong to a run that has been looked at. -/
def untilBackquotes? (n : Nat) : (k : Nat) → Text → Option (Text × Text)
  | _, [] => none
  | k + 1, c :: t => (untilBackquotes? n k t).map fun x => (c :: x.1, x.2)
  | 0, c :: t =>
    let m := backquotes (c :: t)
    if m = n then some ([], (c :: t).drop n)
    else (untilBackquotes? n (m - 1) t).map fun x => (c :: x.1, x.2)

/-- The code of a span: line feeds are spaces, and one space at either side sets off code that
begins or ends with a backquote. -/
def codeText (t : Text) : Text :=
  let t := t.map fun c => if c = '\n' then ' ' else c
  if t.head? = some ' ' ∧ t.getLast? = some ' ' ∧ !Text.isBlankText t then (t.drop 1).dropLast
  else t

/-- The code span at the beginning of the text, and what follows it. -/
def codeSpan? (t : Text) : Option (Inline × Text) :=
  let n := backquotes t
  (untilBackquotes? n 0 (t.drop n)).map fun x => (.code (codeText x.1), x.2)

/-! ## Links in angle brackets -/

/-- The text without a line feed at its end. -/
def withoutLineFeed (t : Text) : Text :=
  match t.reverse with
  | '\n' :: r => r.reverse
  | _ => t

/-- The text is a URL with a scheme of two to thirty-two characters. -/
def isAbsolute (t : Text) : Bool :=
  let (scheme, r) := Text.spanClass Url.isSchemeChar t
  match scheme, r with
  | c :: s, ':' :: r =>
    Text.isLetter c && 1 ≤ s.length && s.length ≤ 31
      && (withoutLineFeed r).all fun c => 32 < c.toNat && c != '<' && c != '>'
  | _, _ => false

/-- A character of the local part of a mail address. -/
def isMailChar (c : Char) : Bool :=
  Unescape.isAlphanumeric c || ".!#$%&'*+/=?^_\x60\x7b|\x7d~-".toList.contains c

/-- A label of a mail address's domain. -/
def isMailLabel (t : Text) : Bool :=
  match t with
  | [] => false
  | c :: _ =>
    t.length ≤ 63 && Unescape.isAlphanumeric c
      && (t.getLast?.map Unescape.isAlphanumeric).getD false
      && t.all fun c => Unescape.isAlphanumeric c || c == '-'

/-- The text is a mail address. -/
def isMail (t : Text) : Bool :=
  let (name, r) := Text.spanClass isMailChar (withoutLineFeed t)
  match r with
  | '@' :: domain => !name.isEmpty && (Text.splitOn '.' domain).all isMailLabel
  | _ => false

/-- The scheme of mail addresses. -/
def mailScheme : Text := "mailto:".toList

/-- The link that shows its own URL. -/
def bareLink? (standIn : Nat → Char) (destination shown : Text) : Option Inline :=
  (Link.href? destination).map fun url => .link ⟨url, []⟩ [.text (Url.shown standIn shown)]

/-- The link in angle brackets after the opening one, and what follows it. -/
def autolink? (standIn : Nat → Char) (t : Text) : Option (Inline × Text) :=
  let (url, r) := Text.spanClass (fun c => c != '<' && c != '>') t
  match r with
  | '>' :: r =>
    if isAbsolute url then (bareLink? standIn url url).map fun i => (i, r)
    else if isMail url then (bareLink? standIn (mailScheme ++ url) url).map fun i => (i, r)
    else none
  | _ => none

/-! ## All atoms -/

/-- The raw HTML at the beginning of the text, and what follows it. -/
def rawHtml? (d : Dialect) (t : Text) : Option (Inline × Text) :=
  if d.html then (RawHtml.after? t).map fun r => (.html (t.take (t.length - r.length)), r)
  else none

/-- The atom at the beginning of the text, and what follows it. A backslash before a character that
needs no escape stays. -/
def atom? (d : Dialect) (standIn : Nat → Char) : Text → Option (Inline × Text)
  | '\\' :: '\n' :: t => some (.hardBreak, t.dropWhile Text.isSpaceOrTab)
  | '\\' :: c :: t => some (.special (if Text.isAsciiMark c then [c] else ['\\', c]), t)
  | '\x60' :: t => codeSpan? ('\x60' :: t)
  | '<' :: t => autolink? standIn t <|> rawHtml? d ('<' :: t)
  | '&' :: t => (Unescape.reference? t).map fun x => (.special x.1, x.2)
  | _ => none

end Showcase.Inline
