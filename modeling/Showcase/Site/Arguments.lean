import Showcase.Text.Blank
import Showcase.Text.Escape

/-!
# Arguments

The arguments of the command are a source directory and options, in any order.

* The name of a long option may be shortened as long as only one option is meant.
* An option that takes a value takes the next argument, or what follows an equals sign. A short
  option may have its value right behind it.
* After an argument of two hyphens there are no more options.

Reading is in two steps, since an option takes the next argument only if that one is no option:
`Argument.ofText` tells what each argument is, and `Arguments.read` goes over them from left to
right.
-/

namespace Showcase

/-- What an option is for. -/
inductive OptionKind
  | help
  | version
  | verbosity
  | output
  | outline
  | dryRun
  | queued
  | verbose
  | traceback
  | plain
  | coloured
  /-- An option without effect on pages; `valued` tells that it takes a value. -/
  | other (valued : Bool)
  deriving DecidableEq

namespace OptionKind

/-- The option takes a value. -/
def takesValue : OptionKind → Bool
  | verbosity | output => true
  | other valued => valued
  | _ => false

end OptionKind

/-- An option of the command. -/
structure CommandOption where
  /-- its names, the first of them maybe short -/
  names : List String
  /-- what it is for -/
  kind : OptionKind
  deriving DecidableEq

/-- The options of the command, in the order in which they are looked through. -/
def commandOptions : List CommandOption :=
  [⟨["-h", "--help"], .help⟩,
   ⟨["--version"], .version⟩,
   ⟨["-v", "--verbosity"], .verbosity⟩,
   ⟨["--settings"], .other true⟩,
   ⟨["--pythonpath"], .other true⟩,
   ⟨["--traceback"], .traceback⟩,
   ⟨["--no-color"], .plain⟩,
   ⟨["--force-color"], .coloured⟩,
   ⟨["--skip-checks"], .other false⟩,
   ⟨["--output"], .output⟩,
   ⟨["--toc"], .outline⟩,
   ⟨["--dry-run"], .dryRun⟩,
   ⟨["--async"], .queued⟩,
   ⟨["--verbose"], .verbose⟩]

/-- Every name of an option with its option. -/
def optionNames : List (Text × CommandOption) :=
  commandOptions.flatMap fun o => o.names.map fun name => (name.toList, o)

/-- The option with the given name. -/
def optionNamed? (name : Text) : Option CommandOption :=
  (optionNames.find? fun e => e.1 == name).map (·.2)

/-- What is wrong with the arguments. -/
inductive UsageError
  | ambiguous (written : Text) (names : List Text)
  | missingValue (o : CommandOption)
  | unwantedValue (o : CommandOption) (value : Text)
  | notNumber (o : CommandOption) (value : Text)
  | notChoice (o : CommandOption) (value : Int)
  | unrecognized (arguments : List Text)

/-- The wording for an option. -/
def CommandOption.text (o : CommandOption) : Text :=
  "argument ".toList ++ Text.joinWith ['/'] (o.names.map String.toList) ++ ": ".toList

/-- The wording of what is wrong. -/
def UsageError.message : UsageError → Text
  | ambiguous written names =>
    "ambiguous option: ".toList ++ written ++ " could match ".toList
      ++ Text.joinWith [',', ' '] names
  | missingValue o => o.text ++ "expected one argument".toList
  | unwantedValue o value => o.text ++ "ignored explicit argument ".toList ++ Text.quoted value
  | notNumber o value => o.text ++ "invalid int value: ".toList ++ Text.quoted value
  | notChoice o value =>
    o.text ++ "invalid choice: ".toList ++ (toString value).toList ++
      " (choose from 0, 1, 2, 3)".toList
  | unrecognized arguments =>
    "unrecognized arguments: ".toList ++ Text.joinWith [' '] arguments

/-! ## What an argument is -/

/-- An argument, seen by itself. -/
inductive Argument
  /-- A directory or a value. -/
  | word (t : Text)
  /-- What ends the options. -/
  | separator
  /-- An option with the value that is written with it. -/
  | option (o : CommandOption) (value : Option Text)
  /-- It looks like an option but is none. -/
  | unknown (t : Text)

namespace Argument

/-- A text without its part from the first equals sign on, and the part after that sign. -/
def splitAtEquals (t : Text) : Text × Option Text :=
  match Text.cut? ['='] t with
  | some (name, value) => (name, some value)
  | none => (t, none)

/-- The text is a number with a minus sign. -/
def isNegativeNumber : Text → Bool
  | '-' :: t =>
    let whole := t.takeWhile Text.isDigit
    match t.dropWhile Text.isDigit with
    | [] => whole ≠ []
    | '.' :: fraction => fraction ≠ [] && fraction.all Text.isDigit
    | _ => false
  | _ => false

/-- The options that a shortened name with two hyphens may mean, and the value written with it. -/
def longCandidates (t : Text) : List (Text × Argument) :=
  let (name, value) := splitAtEquals t
  (optionNames.filter fun e => Text.startsWith e.1 name).map fun e =>
    (e.1, .option e.2 value)

/-- An option with a text right behind its one letter. The text is its value; where an option takes
none, the text may only be further letters, which do not count. -/
def ofCluster (o : CommandOption) (t : Text) : Argument :=
  if o.kind.takesValue || t.head? == some '-' then .option o (some t) else .option o none

/-- The options that a name with one hyphen may mean. -/
def shortCandidates (t : Text) : List (Text × Argument) :=
  optionNames.filterMap fun e =>
    if e.1 = t.take 2 then some (e.1, ofCluster e.2 (t.drop 2))
    else if Text.startsWith e.1 t then some (e.1, .option e.2 none)
    else none

/-- What an argument with a hyphen is that is no name of an option. -/
def ofCandidates (t : Text) : List (Text × Argument) → Except UsageError Argument
  | [(_, a)] => .ok a
  | [] => .ok (if isNegativeNumber t || ' ' ∈ t then .word t else .unknown t)
  | several => .error (.ambiguous t (several.map (·.1)))

/-- What an argument is. -/
def ofText (t : Text) : Except UsageError Argument :=
  match t with
  | '-' :: c :: _ =>
    match optionNamed? t with
    | some o => .ok (.option o none)
    | none =>
      match (splitAtEquals t).2, optionNamed? (splitAtEquals t).1 with
      | some value, some o => .ok (.option o (some value))
      | _, _ => ofCandidates t (if c = '-' then longCandidates t else shortCandidates t)
  | _ => .ok (.word t)

/-- What each of several arguments is. -/
def ofTexts : List Text → Except UsageError (List Argument)
  | [] => .ok []
  | t :: ts =>
    if t = ['-', '-'] then .ok (.separator :: ts.map .word)
    else do
      let a ← ofText t
      return a :: (← ofTexts ts)

end Argument

/-! ## Reading -/

/-- The arguments of the command. -/
structure Arguments where
  /-- the source directory, if one is given -/
  source : Option Text
  /-- the output directory, if one is given -/
  output : Option Text
  /-- the switches that are on -/
  on : List OptionKind

/-- What the arguments ask for. -/
inductive Asked
  | run (a : Arguments)
  | help
  | version

namespace Arguments

/-- A switch is on. -/
def isOn (a : Arguments) (k : OptionKind) : Bool := k ∈ a.on

/-- A number without a sign, where single underscores may part the digits. -/
def digits? (t : Text) : Option Nat :=
  let groups := Text.splitOn '_' t
  if groups.all fun g => g ≠ [] && g.all Text.isDigit then
    some (groups.flatten.foldl (fun n c => n * 10 + (c.toNat - 48)) 0)
  else none

/-- The whole number that a text writes. -/
def number? (t : Text) : Option Int :=
  match Text.strip t with
  | '-' :: r => (digits? r).map fun n => -(n : Int)
  | '+' :: r => (digits? r).map Int.ofNat
  | r => (digits? r).map Int.ofNat

/-- The arguments with a value for an option. -/
def withValue (a : Arguments) (o : CommandOption) (value : Text) : Except UsageError Arguments :=
  match o.kind with
  | .output => .ok { a with output := some value }
  | .verbosity =>
    match number? value with
    | none => .error (.notNumber o value)
    | some n => if 0 ≤ n ∧ n ≤ 3 then .ok a else .error (.notChoice o n)
  | _ => .ok a

/-- The arguments with a switch on. -/
def withSwitch (a : Arguments) (k : OptionKind) : Arguments := { a with on := k :: a.on }

/-- Reads arguments from left to right. `wanted` tells that a source directory may still come, and
`extra` has what nothing could be made of, the last first. -/
def readFrom (a : Arguments) (wanted : Bool) (extra : List Text) :
    List Argument → Except UsageError Asked
  | [] =>
    if extra = [] then .ok (.run a) else .error (.unrecognized extra.reverse)
  | .unknown t :: rest => readFrom a wanted (t :: extra) rest
  | .separator :: .word t :: rest =>
    if wanted then readFrom { a with source := some t } false extra rest
    else readFrom a false (t :: ['-', '-'] :: extra) rest
  | .separator :: rest => readFrom a false (if wanted then extra else ['-', '-'] :: extra) rest
  | .word t :: .separator :: rest =>
    if wanted then readFrom { a with source := some t } false extra rest
    else readFrom a false (['-', '-'] :: t :: extra) rest
  | .word t :: rest =>
    if wanted then readFrom { a with source := some t } false extra rest
    else readFrom a false (t :: extra) rest
  | .option o (some value) :: rest =>
    if o.kind.takesValue then do
      readFrom (← a.withValue o value) wanted extra rest
    else .error (.unwantedValue o value)
  | .option o none :: rest =>
    if o.kind.takesValue then
      match rest with
      | .word value :: rest => do readFrom (← a.withValue o value) wanted extra rest
      | _ => .error (.missingValue o)
    else
      match o.kind with
      | .help => .ok .help
      | .version => .ok .version
      | k => readFrom (a.withSwitch k) wanted extra rest

/-- Reads the arguments of the command. -/
def read (ts : List Text) : Except UsageError Asked := do
  readFrom ⟨none, none, []⟩ true [] (← Argument.ofTexts ts)

end Arguments

end Showcase
