import Showcase.Markup.Url.Percent
import Showcase.Markup.Url.Punycode
import Showcase.Text.Blank
import Showcase.Text.Case

/-!
# URLs

A link's destination is taken apart into scheme, user information, host, port number and the rest,
its host is written in ASCII, and the whole is put together again with everything escaped that a URL
may not hold (`Url.normalize`). What a reader sees in place of a bare link is made the other way
round (`Url.shown`). `Url.isSafe` refuses the schemes that run code or read local files.

Nothing is refused for being malformed: a host ends where the first character stands that a host may
not have, and what follows belongs to the rest.
-/

namespace Showcase

/-- The pieces of a URL, in the order in which they are written. -/
structure Url where
  /-- the scheme with its colon, or nothing -/
  scheme : Text
  /-- two slashes follow -/
  slashes : Bool
  /-- the user information -/
  user : Text
  /-- the host, without the brackets of a numeric one -/
  host : Text
  /-- the digits of the port number -/
  portNumber : Text
  /-- path, query and fragment -/
  rest : Text

namespace Url

/-! ## Taking apart -/

/-- A character of a scheme. -/
def isSchemeChar (c : Char) : Bool :=
  Text.isLetter c || Text.isDigit c || c == '.' || c == '+' || c == '-'

/-- The scheme with its colon, and what follows. The long s and the Kelvin sign count as the
letters that they are variants of. -/
def cutScheme (t : Text) : Text × Text :=
  let (name, r) := Text.spanClass (fun c => isSchemeChar (Text.fold c)) t
  match name, r with
  | [], _ => ([], t)
  | _, ':' :: r => (name ++ [':'], r)
  | _, _ => ([], t)

/-- Schemes without a host. -/
def hostless : List Text := ["javascript:".toList]

/-- Schemes whose host follows two slashes only. -/
def slashed : List Text :=
  ["http:".toList, "https:".toList, "ftp:".toList, "gopher:".toList, "file:".toList]

/-- What ends the part of a URL that may hold user information. -/
def endsAuthority (c : Char) : Bool := c == '/' || c == '?' || c == '#'

/-- What ends a host. -/
def endsHost (c : Char) : Bool := "%/?;#'\x7b\x7d|\\^\x60<>\" \r\n\t".toList.contains c

/-- The user information before the last at sign of the authority, and what follows. -/
def cutUser (t : Text) : Text × Text :=
  let (authority, _) := Text.spanClass (fun c => !endsAuthority c) t
  if '@' ∈ authority then
    let before := (authority.reverse.dropWhile (· != '@')).drop 1
    (before.reverse, t.drop (before.length + 1))
  else ([], t)

/-- The host with its port number, and what follows. A colon at its end belongs to what follows. -/
def cutHost (t : Text) : Text × Text :=
  let (host, r) := Text.spanClass (fun c => !endsHost c) t
  match host.reverse with
  | ':' :: h => (h.reverse, ':' :: r)
  | _ => (host, r)

/-- The host and the digits of its port number. -/
def cutPort (t : Text) : Text × Text :=
  let (digits, r) := Text.spanClass Text.isDigit t.reverse
  match r with
  | ':' :: h => (h.reverse, digits.reverse)
  | _ => (t, [])

/-- A character of a host label. -/
def isLabelChar (c : Char) : Bool :=
  Text.isLetter c || Text.isDigit c || c == '+' || c == '_' || c == '-'

/-- A label that a host may have, in any script. -/
def isLabel (t : Text) : Bool := t.length ≤ 63 && t.all fun c => isLabelChar c || 127 < c.toNat

/-- The labels up to the first one that is none, of which the good beginning is kept; and the text
that is left over. -/
def cutLabels : List Text → List Text × Text
  | [] => ([], [])
  | l :: ls =>
    if isLabel l then (l :: (cutLabels ls).1, (cutLabels ls).2)
    else
      let good := (l.takeWhile isLabelChar).take 63
      ([good], Text.joinWith ['.'] (l.drop good.length :: ls))

/-- The host is a numeric one in brackets. -/
def isBracketed (host : Text) : Bool := Text.startsWith host ['['] && Text.endsWith host [']']

/-- The longest host. -/
def hostLimit : Nat := 255

/-- A URL without a host. -/
def withoutHost (scheme : Text) (slashes : Bool) (rest : Text) : Url :=
  ⟨scheme, slashes, [], [], [], rest⟩

/-- Takes the text after the scheme and the slashes apart. -/
def withHost (scheme : Text) (slashes : Bool) (t : Text) : Url :=
  let (user, t) := cutUser t
  let (hostPort, rest) := cutHost t
  let (host, portNumber) := cutPort hostPort
  if isBracketed host then
    let host := if hostLimit < host.length then [] else host
    ⟨scheme, slashes, user, (host.drop 1).dropLast, portNumber, rest⟩
  else
    let (labels, beyond) := cutLabels (Text.splitOn '.' host)
    let good := Text.joinWith ['.'] labels
    ⟨scheme, slashes, user, if hostLimit < good.length then [] else good, portNumber,
      beyond ++ rest⟩

/-- Takes a URL apart. -/
def parse (t : Text) : Url :=
  let (scheme, t) := cutScheme (Text.strip t)
  if hostless.contains scheme then withoutHost scheme false t
  else
    match Text.after? ['/', '/'] t with
    | some r => withHost scheme true r
    | none =>
      if scheme = [] ∨ slashed.contains scheme then withoutHost scheme false t
      else withHost scheme false t

/-! ## Putting together -/

/-- The text of a URL. -/
def format (u : Url) : Text :=
  u.scheme ++ (if u.slashes then ['/', '/'] else [])
    ++ (if u.user.isEmpty then [] else u.user ++ ['@'])
    ++ (if ':' ∈ u.host then '[' :: (u.host ++ [']']) else u.host)
    ++ (if u.portNumber.isEmpty then [] else ':' :: u.portNumber)
    ++ u.rest

/-! ## Hosts in other scripts -/

/-- Schemes whose hosts are names. -/
def named : List Text := [[], "http:".toList, "https:".toList, "mailto:".toList]

/-- What separates labels: the full stop and its wide, ideographic and halfwidth forms. -/
def isLabelEnd (c : Char) : Bool :=
  c == '.' || c.toNat == 0x3002 || c.toNat == 0xFF0E || c.toNat == 0xFF61

/-- The labels of a host. -/
def labels (host : Text) : List Text :=
  Text.splitOn '.' (host.map fun c => if isLabelEnd c then '.' else c)

/-- What an ASCII label for one in another script begins with. -/
def asciiMark : Text := "xn--".toList

/-- A label in ASCII. -/
def asciiLabel (l : Text) : Text :=
  if l.all fun c => c.toNat < 127 then l else asciiMark ++ Punycode.encode l

/-- A label in its own script. -/
def nativeLabel? (standIn : Nat → Char) (l : Text) : Option Text :=
  match Text.after? asciiMark l with
  | some r => Punycode.decode? standIn (Text.lower r)
  | none => some l

/-- The URL with its host in ASCII. -/
def toAscii (u : Url) : Url :=
  if u.host ≠ [] ∧ named.contains u.scheme then
    { u with host := Text.joinWith ['.'] ((labels u.host).map asciiLabel) }
  else u

/-- The URL with its host in its own script, if all of its labels can be read. -/
def toNative (standIn : Nat → Char) (u : Url) : Url :=
  if u.host ≠ [] ∧ named.contains u.scheme then
    match (labels u.host).mapM (nativeLabel? standIn) with
    | some ls => { u with host := Text.joinWith ['.'] ls }
    | none => u
  else u

/-- A destination as a URL. -/
def normalize (t : Text) : Text := Percent.encode (parse t).toAscii.format

/-- A URL as it is shown to readers. -/
def shown (standIn : Nat → Char) (t : Text) : Text :=
  Percent.decode ((parse t).toNative standIn).format

/-! ## Safety -/

/-- Schemes that links may not have. -/
def unsafeSchemes : List Text :=
  ["vbscript:".toList, "javascript:".toList, "file:".toList, "data:".toList]

/-- Data that may be linked: pictures. -/
def safeData : List Text :=
  ["data:image/gif;".toList, "data:image/png;".toList, "data:image/jpeg;".toList,
   "data:image/webp;".toList]

/-- The URL runs no code and reads no local files. -/
def isSafe (t : Text) : Bool :=
  let t := Text.lower (Text.strip t)
  !(unsafeSchemes.any (Text.startsWith t)) || safeData.any (Text.startsWith t)

end Url

end Showcase
