import Showcase.Text.Utf8

/-!
# Percent encoding

`encode` writes what a URL may not hold as bytes in hexadecimal and leaves existing escapes alone.
`decode` is for showing a URL to readers: it undoes the escapes, save for characters whose escape
carries meaning. Bytes that are no UTF-8 show as the replacement character.
-/

namespace Showcase.Percent

/-- A byte as an escape. -/
def escape (b : Nat) : Text := '%' :: Text.hex true 2 b

/-- The marks that stand for themselves in a URL. -/
def plainMarks : Text := ";/?:@&=+$,-_.!~*'()#".toList

/-- A character that stands for itself in a URL. -/
def isPlain (c : Char) : Bool := Text.isLetter c || Text.isDigit c || plainMarks.contains c

/-- The text as part of a URL; the next `k` characters belong to an escape. -/
def encodeFrom : (k : Nat) → Text → Text
  | _, [] => []
  | k + 1, c :: t => c :: encodeFrom k t
  | 0, c :: t =>
    match c, t with
    | '%', a :: b :: _ =>
      if (Text.hexValue? a).isSome && (Text.hexValue? b).isSome then '%' :: encodeFrom 2 t
      else escape 37 ++ encodeFrom 0 t
    | _, _ => (if isPlain c then [c] else (Text.utf8Char c).flatMap escape) ++ encodeFrom 0 t

/-- The text as part of a URL. -/
def encode (t : Text) : Text := encodeFrom 0 t

/-- The ASCII characters whose escapes stay. -/
def keptMarks : Text := ";/?:@&=+$,#%".toList

/-- What a decoded ASCII byte shows as. -/
def shown (b : Nat) : Text :=
  let c := Char.ofNat b
  if keptMarks.contains c then escape b else [c]

/-- The character shown in place of bytes that make none. -/
def replacement : Char := Char.ofNat 0xFFFD

/-- The character of a first byte and its continuation, or as many replacements as there are
bytes. -/
def assemble (first : Nat) (more : List Nat) : Text :=
  let width := more.length + 1
  let lead := first % Nat.pow 2 (7 - width)
  let n := more.foldl (fun n b => n * 64 + b % 64) lead
  match Text.charOf? width n with
  | some c => [c]
  | none => List.replicate width replacement

/-- What a run of escaped bytes shows as; the first `k` bytes are already shown. -/
def shownRun : (k : Nat) → List Nat → Text
  | _, [] => []
  | k + 1, _ :: bs => shownRun k bs
  | 0, b :: bs =>
    if b < 0x80 then shown b ++ shownRun 0 bs
    else
      let more := bs.take (Text.announced b - 1)
      if 2 ≤ Text.announced b ∧ more.length = Text.announced b - 1
          ∧ more.all Text.isContinuation then
        assemble b more ++ shownRun more.length bs
      else replacement :: shownRun 0 bs

/-- The value of an escape at the beginning of the text. -/
def byte? : Text → Option Nat
  | '%' :: a :: b :: _ => do return (← Text.hexValue? a) * 16 + (← Text.hexValue? b)
  | _ => none

/-- The text with its runs of escapes decoded. The bytes of the current run are held backwards, and
the next `k` characters belong to an escape that has been read. -/
def decodeFrom : (k : Nat) → (run : List Nat) → Text → Text
  | _, run, [] => shownRun 0 run.reverse
  | k + 1, run, _ :: t => decodeFrom k run t
  | 0, run, c :: t =>
    match byte? (c :: t) with
    | some b => decodeFrom 2 (b :: run) t
    | none => shownRun 0 run.reverse ++ c :: decodeFrom 0 [] t

/-- The text with its escapes decoded. -/
def decode (t : Text) : Text := decodeFrom 0 [] t

end Showcase.Percent
