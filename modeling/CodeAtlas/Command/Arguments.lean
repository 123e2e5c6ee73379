/-
# Arguments of the command line

A command line names a command and has options before and after its name. The options for the path, the
settings file and the form of the output go with every command; those after the name count before those
before it. An option stands at most once on each side. Everything after two dashes is text.

Key definitions: `Command`, `Invocation`, `Arguments.Given`, `Arguments.scan`, `Invocation.ofArgs`.
-/
import CodeAtlas.Config.Settings

namespace CodeAtlas

/-- What to do. -/
inductive Command where
  | check
  | sync (full : Bool)
  | clean
  | reset
  | stats
  | query (text : String) (limit : Option Nat)
  deriving DecidableEq

/-- What a command line asks for. -/
structure Invocation where
  path : String
  config : Option String
  json : Bool
  command : Command
  deriving DecidableEq

/-- Why a command line asks for nothing: it is wrong, or asks for help. -/
inductive UsageIssue where
  | wrong
  | help
  deriving DecidableEq

namespace Arguments

/-- The names of the commands. -/
inductive Verb where
  | check
  | sync
  | clean
  | reset
  | stats
  | query
  deriving DecidableEq

/-- The command of a name. -/
def verb? (name : String) : Option Verb :=
  [("check", Verb.check), ("sync", .sync), ("clean", .clean), ("reset", .reset), ("stats", .stats),
   ("query", .query)].lookup name

/-- An option. -/
inductive Flag where
  | path
  | config
  | json
  | full
  | limit
  | help
  deriving DecidableEq

namespace Flag

/-- The option of a long name. -/
def ofLong? (name : String) : Option Flag :=
  [("path", Flag.path), ("config", .config), ("json", .json), ("full", .full), ("limit", .limit),
   ("help", .help)].lookup name

/-- The option of a letter. -/
def ofLetter? (c : Char) : Option Flag :=
  [('p', Flag.path), ('c', .config), ('l', .limit), ('h', .help)].lookup c

/-- Whether the option takes a value. -/
def takesValue : Flag → Bool
  | .path | .config | .limit => true
  | .json | .full | .help => false

/-- Whether the option goes with a command, or stands before any. -/
def isKnown : Flag → Option Verb → Bool
  | .full, verb => verb = some .sync
  | .limit, verb => verb = some .query
  | _, _ => true

end Flag

/-- What is given on one side of the name of the command. -/
structure Given where
  path : Option String := none
  config : Option String := none
  json : Bool := false
  full : Bool := false
  limit : Option Nat := none
  texts : List String := []

namespace Given

/-- The option set to a value, if it was not set yet and the value is one. -/
def set? (g : Given) (flag : Flag) (value : String) : Except UsageIssue Given :=
  match flag with
  | .path =>
    if g.path.isSome || value == "" then .error .wrong else .ok { g with path := some value }
  | .config =>
    if g.config.isSome || value == "" then .error .wrong else .ok { g with config := some value }
  | .limit =>
    match g.limit, Yaml.decimal? 64 value with
    | none, some n => .ok { g with limit := some n }
    | _, _ => .error .wrong
  | _ => .error .wrong

/-- The option switched on, if it was not yet. -/
def switch? (g : Given) : Flag → Except UsageIssue Given
  | .json => if g.json then .error .wrong else .ok { g with json := true }
  | .full => if g.full then .error .wrong else .ok { g with full := true }
  | .help => .error .help
  | _ => .error .wrong

end Given

/-- An argument, by its form. -/
inductive Form where
  | separator
  | long (name : String) (value : Option String)
  | short (letter : Char) (rest : List Char)
  | word (text : String)

/-- The form of an argument. A single dash is a word. -/
def formOf (arg : String) : Form :=
  match arg.toList with
  | ['-', '-'] => .separator
  | '-' :: '-' :: rest =>
    let value := rest.dropWhile (· != '=')
    .long (String.ofList (rest.takeWhile (· != '=')))
      (if value.isEmpty then none else some (String.ofList (value.drop 1)))
  | '-' :: letter :: rest => .short letter rest
  | _ => .word arg

/-- Whether an argument can be the value of the option before it. -/
def isValue (arg : String) : Bool :=
  match formOf arg with
  | .word _ => true
  | _ => false

/-- An option with the value that is written with it, if any. -/
def option? (verb : Option Verb) : Form → Option (Flag × Option String)
  | .long name value =>
    ((Flag.ofLong? name).filter (·.isKnown verb)).map fun flag => (flag, value)
  | .short letter rest =>
    ((Flag.ofLetter? letter).filter (·.isKnown verb)).map fun flag =>
      (flag, match rest with
        | [] => none
        | '=' :: value => some (String.ofList value)
        | value => some (String.ofList value))
  | _ => none

/-- The options and texts of arguments up to the name of a command, and what follows them. With a
command given, words are its texts. -/
def scan (verb : Option Verb) (g : Given) :
    List String → Except UsageIssue (Given × Option (String × List String))
  | [] => .ok (g, none)
  | arg :: rest =>
    match formOf arg with
    | .separator =>
      if rest.isEmpty then .ok (g, none)
      else if verb = some .query then .ok ({ g with texts := g.texts ++ rest }, none)
      else .error .wrong
    | .word text =>
      match verb with
      | none => .ok (g, some (text, rest))
      | some .query => scan verb { g with texts := g.texts ++ [text] } rest
      | some _ => .error .wrong
    | form =>
      match option? verb form with
      | none => .error .wrong
      | some (flag, value) =>
        if flag.takesValue then
          match value, rest with
          | some value, rest =>
            match g.set? flag value with
            | .ok g => scan verb g rest
            | .error issue => .error issue
          | none, value :: rest =>
            if isValue value then
              match g.set? flag value with
              | .ok g => scan verb g rest
              | .error issue => .error issue
            else .error .wrong
          | none, [] => .error .wrong
        else if value.isSome && flag != .help then .error .wrong
        else
          match g.switch? flag with
          | .ok g => scan verb g rest
          | .error issue => .error issue

/-- The variable that names a settings file. -/
def configVariable : String := "CODEGRAPH_CONFIG"

/-- The settings file of one side, which the environment names where the side does not. -/
def configOf (env : Environment) (g : Given) : Except UsageIssue (Option String) :=
  match g.config, env.get? configVariable with
  | none, some "" => .error .wrong
  | given, _ => .ok given

/-- The command of a name with what was given for it. -/
def commandOf (g : Given) : Verb → Command
  | .check => .check
  | .sync => .sync g.full
  | .clean => .clean
  | .reset => .reset
  | .stats => .stats
  | .query => .query (Text.join " " g.texts) g.limit

/-- What help is asked for by the words after `help`. -/
def helpIssue : List String → UsageIssue
  | [] => .help
  | name :: _ => if (verb? name).isSome || name == "help" then .help else .wrong

end Arguments

namespace Invocation

open Arguments

/-- What the arguments of a command line ask for. -/
def ofArgs (env : Environment) (args : List String) : Except UsageIssue Invocation := do
  let (before, named) ← scan none {} args
  match named with
  | none => .error .wrong
  | some (name, rest) =>
    match verb? name with
    | none => .error (if name == "help" then helpIssue rest else .wrong)
    | some verb =>
      let (after, _) ← scan (some verb) {} rest
      let configAfter ← configOf env after
      let configBefore ← configOf env before
      return {
        path := (after.path.or before.path).getD "."
        config := (configAfter.or configBefore).or (env.get? configVariable)
        json := before.json || after.json
        command := commandOf after verb }

end Invocation

end CodeAtlas
