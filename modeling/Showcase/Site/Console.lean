import Showcase.Site.Command

/-!
# The console

The program is started with the name of a command and its arguments. It prints to its output and
complains elsewhere, and it ends with a code: 0 if all went well, 1 if the command did not, and 2 if
the arguments make no sense.
-/

namespace Showcase.Console

/-- The program's name. -/
def programName : Text := "manage.py".toList

/-- The name of the command. -/
def commandName : Text := "build_docs".toList

/-- The version that the program tells. -/
def version : Text := "5.2.19".toList

/-- How a run of the program ended. -/
structure Ending where
  /-- the tree after it -/
  tree : FileTree
  /-- the code -/
  code : Nat
  /-- what it printed -/
  output : Text
  /-- what it complained of -/
  complaint : Text
  /-- what it wrote into the log -/
  log : List Text
  /-- what the program was not made for and ended by, if anything -/
  failure : Option Stop

/-- An ending that leaves the tree as it is. -/
def quiet (t : FileTree) (code : Nat) (output complaint : Text) : Ending :=
  ⟨t, code, output, complaint, [], none⟩

/-- The complaint about arguments. -/
def usageComplaint (e : UsageError) : Text :=
  programName ++ ' ' :: (commandName ++ ": error: ".toList ++ e.message)

/-- The ending of a run of the command. With `traced`, errors of the command are not handled. -/
def ending (traced : Bool) (o : Outcome) : Ending :=
  match o.stop with
  | none => ⟨o.tree, 0, o.output, [], o.log, none⟩
  | some (.command e) =>
    ⟨o.tree, 1, o.output, "CommandError: ".toList ++ e.message, o.log,
      if traced then some (.command e) else none⟩
  | some (.build e) => ⟨o.tree, 1, o.output, e.message, o.log, some (.build e)⟩

/-- Runs the command with the given arguments. -/
def runCommand (w : Workshop) (settings : Setting.Record) (t : FileTree) (ts : List Text) :
    Ending :=
  match Arguments.read ts with
  | .error e => quiet t 2 [] (usageComplaint e)
  | .ok .help => quiet t 0 [] []
  | .ok .version => quiet t 0 (outputLine version) []
  | .ok (.run a) => ending (a.isOn .traceback) (Command.run w settings t a)

/-- Runs the program. -/
def run (w : Workshop) (settings : Setting.Record) (t : FileTree) (ts : List Text) : Ending :=
  match ts with
  | [] => quiet t 0 [] []
  | name :: rest =>
    if name = commandName then runCommand w settings t rest
    else if name = "version".toList ∨ ts = ["--version".toList] then
      quiet t 0 (outputLine version) []
    else if name = "help".toList ∨ ts = ["--help".toList] ∨ ts = ["-h".toList] then quiet t 0 [] []
    else
      quiet t 1 [] ("Unknown command: ".toList ++ Text.quoted name ++ "\nType '".toList
        ++ programName ++ " help' for usage.".toList)

end Showcase.Console
