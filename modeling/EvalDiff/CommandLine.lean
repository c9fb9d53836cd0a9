import EvalDiff.Settings.Basic

/-!
# The command line

Arguments are taken one by one, from left to right, and the first one that settles the matter
decides: a fault, or a request for the version or for help.  Options may stand anywhere around
the two log files.
-/

namespace EvalDiff
namespace CommandLine

/-- Options that take a value. -/
inductive Key where
  | metric
  | aggregate
  | format
  | config
  | saveConfig
deriving DecidableEq, Repr

/-- Options that take none. -/
inductive Switch where
  | strict
  | noStrict
  | failOnWorse
  | help
  | version
deriving DecidableEq, Repr

namespace Key

def name : Key → String
  | .metric => "metric"
  | .aggregate => "aggregate"
  | .format => "format"
  | .config => "config"
  | .saveConfig => "save-config"

def ofName? (name : String) : Option Key :=
  [metric, aggregate, format, config, saveConfig].find? (·.name == name)

def ofLetter? : Char → Option Key
  | 'm' => some .metric
  | 'f' => some .format
  | 'c' => some .config
  | _ => none

end Key

namespace Switch

def name : Switch → String
  | .strict => "strict"
  | .noStrict => "no-strict"
  | .failOnWorse => "fail-on-worse"
  | .help => "help"
  | .version => "version"

def ofName? (name : String) : Option Switch :=
  [strict, noStrict, failOnWorse, help, version].find? (·.name == name)

def ofLetter? : Char → Option Switch
  | 'h' => some .help
  | 'V' => some .version
  | _ => none

end Switch

inductive UsageFault where
  | unknownOption (argument : String)
  | missingValue (key : Key)
  | unexpectedValue (switch : Switch)
  | invalidValue (key : Key) (value : String)
  | repeatedKey (key : Key)
  | repeatedSwitch (switch : Switch)
  | emptyPath
  | unexpectedArgument (argument : String)
  | missingPath
deriving DecidableEq, Repr

def UsageFault.message : UsageFault → String
  | .unknownOption argument => "unexpected argument '" ++ argument ++ "' found"
  | .missingValue key => "a value is required for '--" ++ key.name ++ "' but none was supplied"
  | .unexpectedValue switch => "unexpected value for '--" ++ switch.name ++ "' found"
  | .invalidValue key value => "invalid value '" ++ value ++ "' for '--" ++ key.name ++ "'"
  | .repeatedKey key => "the argument '--" ++ key.name ++ "' cannot be used multiple times"
  | .repeatedSwitch switch =>
    "the argument '--" ++ switch.name ++ "' cannot be used multiple times"
  | .emptyPath => "a log path must not be empty"
  | .unexpectedArgument argument => "unexpected argument '" ++ argument ++ "' found"
  | .missingPath => "the paths of two logs are required"

/-- What a run is asked to do.  `none` leaves a setting as it is. -/
structure Invocation where
  baseline : String
  comparison : String
  metric : Option String
  aggregate : Option String
  strict : Option Bool
  format : Option Report.Format
  config : Option String
  saveConfig : Option String
  failOnWorse : Bool
deriving DecidableEq, Repr

inductive Request where
  | help
  | version
  | run (invocation : Invocation)
deriving DecidableEq, Repr

/-- What the arguments taken so far have set.  `paths` are the log files in order. -/
structure Draft where
  paths : List String := []
  metric : Option String := none
  aggregate : Option String := none
  strict : Option Bool := none
  format : Option Report.Format := none
  config : Option String := none
  saveConfig : Option String := none
  failOnWorse : Bool := false
deriving DecidableEq, Repr

namespace Draft

/-- Stores the value of an option that has none yet. -/
def once {α : Type} (key : Key) (old : Option α) (new : α) : Except UsageFault (Option α) :=
  match old with
  | none => .ok (some new)
  | some _ => .error (.repeatedKey key)

def path (key : Key) (value : String) : Except UsageFault String :=
  if value.isEmpty then .error (.invalidValue key value) else .ok value

def setKey (d : Draft) (key : Key) (value : String) : Except UsageFault Draft :=
  match key with
  | .metric => do return { d with metric := ← once key d.metric value }
  | .aggregate => do return { d with aggregate := ← once key d.aggregate value }
  | .format =>
    match Report.Format.ofName? value with
    | none => .error (.invalidValue key value)
    | some format => do return { d with format := ← once key d.format format }
  | .config => do return { d with config := ← once key d.config (← path key value) }
  | .saveConfig => do
    return { d with saveConfig := ← once key d.saveConfig (← path key value) }

/-- Turns strict mode on or off.  The opposite switch is overridden, the same one is a
repetition. -/
def setStrict (d : Draft) (switch : Switch) (value : Bool) : Except UsageFault Draft :=
  if d.strict = some value then .error (.repeatedSwitch switch)
  else .ok { d with strict := some value }

def addPath (d : Draft) (argument : String) : Except UsageFault Draft :=
  if d.paths.length = 2 then .error (.unexpectedArgument argument)
  else if argument.isEmpty then .error .emptyPath
  else .ok { d with paths := d.paths ++ [argument] }

/-- What the arguments ask for if no more follow. -/
def finish (d : Draft) : Except UsageFault Request :=
  match d.paths with
  | [baseline, comparison] =>
    .ok <| .run
      { baseline, comparison, metric := d.metric, aggregate := d.aggregate, strict := d.strict
        format := d.format, config := d.config, saveConfig := d.saveConfig
        failOnWorse := d.failOnWorse }
  | _ => .error .missingPath

end Draft

/-- The next state after an argument: the matter is settled, or more arguments are taken, the
first of them as the value of an option that is waiting for one. -/
inductive Progress where
  | settled (request : Request)
  | more (draft : Draft) (waiting : Option Key)
deriving DecidableEq, Repr

def takeSwitch (d : Draft) (switch : Switch) : Except UsageFault Progress :=
  match switch with
  | .help => .ok (.settled .help)
  | .version => .ok (.settled .version)
  | .strict => do return .more (← d.setStrict switch true) none
  | .noStrict => do return .more (← d.setStrict switch false) none
  | .failOnWorse =>
    if d.failOnWorse then .error (.repeatedSwitch switch)
    else .ok (.more { d with failOnWorse := true } none)

/-- What follows two dashes: a name, and perhaps an equals sign and a value. -/
def takeLong (d : Draft) (argument : String) (cs : List Char) : Except UsageFault Progress :=
  let name := String.ofList (cs.takeWhile (· != '='))
  let value? := (cs.dropWhile (· != '=')).tail?.map String.ofList
  match Key.ofName? name, Switch.ofName? name, value? with
  | some key, _, some value => do return .more (← d.setKey key value) none
  | some key, _, none => .ok (.more d (some key))
  | none, some switch, none => takeSwitch d switch
  | none, some switch, some _ => .error (.unexpectedValue switch)
  | none, none, _ => .error (.unknownOption argument)

/-- What follows one dash: switches, each a letter, and perhaps at the end an option with its
value behind it. -/
def takeShort (d : Draft) (argument : String) : List Char → Except UsageFault Progress
  | [] => .ok (.more d none)
  | c :: cs =>
    match Key.ofLetter? c, Switch.ofLetter? c with
    | some key, _ =>
      match cs with
      | [] => .ok (.more d (some key))
      | '=' :: value => do return .more (← d.setKey key (String.ofList value)) none
      | value => do return .more (← d.setKey key (String.ofList value)) none
    | none, some switch => do
      match ← takeSwitch d switch with
      | .settled request => return .settled request
      | .more d _ => takeShort d argument cs
    | none, none => .error (.unknownOption argument)

/-- An argument when no option waits for a value.  A dash alone is a path. -/
def take (d : Draft) (argument : String) : Except UsageFault Progress :=
  match argument.toList with
  | '-' :: '-' :: cs => takeLong d argument cs
  | '-' :: c :: cs => takeShort d argument (c :: cs)
  | _ => do return .more (← d.addPath argument) none

def isValue (argument : String) : Bool :=
  argument = "-" || argument.toList.head? != some '-'

/-- Takes the arguments from a state on.  After two dashes alone all arguments are paths. -/
def takeAll : Draft → Option Key → List String → Except UsageFault Request
  | d, none, [] => d.finish
  | _, some key, [] => .error (.missingValue key)
  | d, some key, argument :: rest =>
    if isValue argument then do
      takeAll (← d.setKey key argument) none rest
    else .error (.missingValue key)
  | d, none, argument :: rest =>
    if argument = "--" then do
      (← rest.foldlM Draft.addPath d).finish
    else do
      match ← take d argument with
      | .settled request => return request
      | .more d waiting => takeAll d waiting rest

def parse (arguments : List String) : Except UsageFault Request :=
  takeAll {} none arguments

/-- The settings of a run: what the command line sets, over what was set before. -/
def Invocation.apply (i : Invocation) (s : Settings) : Settings :=
  { marker := i.metric.getD s.marker
    aggregate := i.aggregate.getD s.aggregate
    strict := i.strict.getD s.strict
    format := i.format.getD s.format }

def versionText : String := "map-compare 0.1.0\n"

def helpText : String :=
  "Compare per-query metric rows of two trec_eval result logs\n\n" ++
  "Usage: map-compare [OPTIONS] <BASELINE> <COMPARISON>\n\n" ++
  "Arguments:\n" ++
  "  <BASELINE>    Result log of the reference run\n" ++
  "  <COMPARISON>  Result log of the candidate run\n\n" ++
  "Options:\n" ++
  "  -m, --metric <METRIC>            Leading-field prefix of the rows to compare " ++
  "(e.g. map, P_10, ndcg)\n" ++
  "      --aggregate <AGGREGATE>      Category label of the aggregate row to exclude\n" ++
  "      --strict                     Require comparison rows to carry the same marker " ++
  "and category\n" ++
  "      --no-strict                  Trust positional alignment even if the config file " ++
  "enables strict mode\n" ++
  "  -f, --format <FORMAT>            Output format " ++
  "[possible values: text, summary, json, json-pretty]\n" ++
  "  -c, --config <CONFIG>            Path to a TOML configuration file\n" ++
  "      --save-config <SAVE_CONFIG>  Write the effective configuration to this path\n" ++
  "      --fail-on-worse              Fail with exit code 1 if any category got worse\n" ++
  "  -h, --help                       Print help\n" ++
  "  -V, --version                    Print version\n"

end CommandLine
end EvalDiff
