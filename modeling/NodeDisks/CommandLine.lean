import NodeDisks.Daemon.Start
import NodeDisks.Event
import NodeDisks.Text

/-!
The command line: options with a long name, each of which may also come from an environment variable.

Arguments are taken from left to right. The value of an option is the text after an equals sign or the
next argument, unless that looks like an option. A value is read when the next option comes, so a
faulty value in front of an unknown argument is not the fault that is reported.
-/

namespace NodeDisks.CommandLine

structure Options where
  nodeName : String := ""
  mode : Daemon.Mode := .discover
  volumeSetFile : Option Path := none
  nodeLabels : String := ""
  minAgeSeconds : UInt64 := 60
  intervalSeconds : UInt64 := 60
  claimDir : Option Path := none
  outputFile : Option Path := none
  standalone : Bool := false
  resultNamespace : String := "default"
  healthAddress : String := "0.0.0.0:8081"
  logLevel : String := "info"
  logJson : Bool := false

/-- What is wrong with a value. -/
inductive ValueFault where
  /-- Empty where it must not be; the possible values, if there is a list of them. -/
  | empty (values : List String)
  /-- None of the possible values. -/
  | notAmong (values : List String)
  | notNumber (reason : String)
  deriving DecidableEq, Repr

/-- One option. -/
structure Opt where
  name : String
  /-- The environment variable. -/
  variableName : String
  about : String
  isFlag : Bool := false
  /-- The possible values, if there is a list of them. -/
  values : List String := []
  /-- The default as it is shown. -/
  shownDefault : Option String := none
  set : String → Options → Except ValueFault Options

namespace Opt

/-- How the value is called. -/
def placeholder (o : Opt) : String :=
  String.ofList (o.name.toList.map fun c => if c = '-' then '_' else c.toUpper)

/-- The option as messages show it. -/
def shown (o : Opt) : String :=
  "--" ++ o.name ++ (if o.isFlag then "" else " <" ++ o.placeholder ++ ">")

end Opt

/-! ### Values -/

/-- An unsigned number of 64 bits. -/
def number (s : String) : Except ValueFault UInt64 :=
  let digits := match s.toList with
    | '+' :: cs => cs
    | cs => cs
  if s.isEmpty then .error (.notNumber "cannot parse integer from empty string")
  else
    match Text.natural? digits with
    | none => .error (.notNumber "invalid digit found in string")
    | some n =>
      if n < UInt64.size then .ok (UInt64.ofNat n)
      else .error (.notNumber "number too large to fit in target type")

/-- One of the named values. -/
def oneOf {α : Type} (values : List (String × α)) (s : String) : Except ValueFault α :=
  match values.lookup s with
  | some x => .ok x
  | none =>
    let names := values.map (·.1)
    .error (if s.isEmpty then .empty names else .notAmong names)

def path (s : String) : Except ValueFault Path := if s.isEmpty then .error (.empty []) else .ok ⟨s⟩

def flag : String → Except ValueFault Bool := oneOf [("true", true), ("false", false)]

def modes : List (String × Daemon.Mode) := Daemon.Mode.all.map fun m => (m.name, m)

def nodeNameOption : Opt :=
  { name := "node-name", variableName := "NODE_NAME"
    about := "Name of the node this daemon runs on"
    set := fun s o => .ok { o with nodeName := s } }

/-- All options, in the order in which help shows them and the environment is read. -/
def all : List Opt := [
  nodeNameOption,
  { name := "mode", variableName := "DISKMAKER_MODE", about := "What to reconcile"
    values := modes.map (·.1), shownDefault := some "discover"
    set := fun s o => (oneOf modes s).map fun m => { o with mode := m } },
  { name := "volume-set-file", variableName := "VOLUME_SET_FILE"
    about := "LocalVolumeSet spec (YAML) for volume-set mode"
    set := fun s o => (path s).map fun p => { o with volumeSetFile := some p } },
  { name := "node-labels", variableName := "NODE_LABELS"
    about := "Node labels as k=v,k2=v2 (standalone mode)", shownDefault := some ""
    set := fun s o => .ok { o with nodeLabels := s } },
  { name := "device-min-age-secs", variableName := "DEVICE_MIN_AGE"
    about := "Minimum age in seconds before a new device may be claimed", shownDefault := some "60"
    set := fun s o => (number s).map fun n => { o with minAgeSeconds := n } },
  { name := "discovery-interval-secs", variableName := "DISCOVERY_INTERVAL"
    about := "Discovery interval in seconds", shownDefault := some "60"
    set := fun s o => (number s).map fun n => { o with intervalSeconds := n } },
  { name := "claim-dir", variableName := "CLAIM_DIR"
    about := "Directory of claim symlinks used to evaluate claims"
    set := fun s o => (path s).map fun p => { o with claimDir := some p } },
  { name := "output-file", variableName := "OUTPUT_FILE"
    about := "Write discovery results to this file (standalone mode)"
    set := fun s o => (path s).map fun p => { o with outputFile := some p } },
  { name := "standalone", variableName := "STANDALONE"
    about := "Run in standalone mode (no Kubernetes)", isFlag := true
    set := fun s o => (flag s).map fun b => { o with standalone := b } },
  { name := "namespace", variableName := "WATCH_NAMESPACE"
    about := "Namespace for discovery results", shownDefault := some "default"
    set := fun s o => .ok { o with resultNamespace := s } },
  { name := "health-addr", variableName := "HEALTH_ADDR"
    about := "Health server bind address", shownDefault := some "0.0.0.0:8081"
    set := fun s o => .ok { o with healthAddress := s } },
  { name := "log-level", variableName := "LOG_LEVEL"
    about := "Log level (trace, debug, info, warn, error)", shownDefault := some "info"
    set := fun s o => .ok { o with logLevel := s } },
  { name := "log-json", variableName := "LOG_JSON"
    about := "Output logs as JSON", isFlag := true
    set := fun s o => (flag s).map fun b => { o with logJson := b } }]

/-! ### Faults -/

inductive UsageError where
  | unexpectedArgument (argument : String)
  /-- An option that does not exist, with the one most like it and the options that were given. -/
  | unknownOption (name : String) (similar : Option String) (given : List String)
  | missingValue (option : String) (values : List String)
  | repeated (option : String)
  /-- A value for an option that takes none. -/
  | unexpectedValue (value option : String)
  | badValue (value option : String) (fault : ValueFault)
  /-- No node name at all among the options that were given. -/
  | missingNodeName (given : List String)
  deriving DecidableEq, Repr

namespace UsageError

/-- The first line of the report. -/
def message : UsageError → String
  | unexpectedArgument argument | unknownOption argument .. =>
    "unexpected argument '" ++ argument ++ "' found"
  | missingValue option _ | badValue _ option (.empty _) =>
    "a value is required for '" ++ option ++ "' but none was supplied"
  | repeated option => "the argument '" ++ option ++ "' cannot be used multiple times"
  | unexpectedValue value option =>
    "unexpected value '" ++ value ++ "' for '" ++ option ++ "' found; no more were expected"
  | badValue value option (.notAmong _) => "invalid value '" ++ value ++ "' for '" ++ option ++ "'"
  | badValue value option (.notNumber reason) =>
    "invalid value '" ++ value ++ "' for '" ++ option ++ "': " ++ reason
  | missingNodeName _ => "the following required arguments were not provided:"

/-- What follows the first line at once. -/
def detail : UsageError → String
  | missingNodeName _ => "\n  " ++ nodeNameOption.shown
  | missingValue _ values | badValue _ _ (.empty values) | badValue _ _ (.notAmong values) =>
    if values.isEmpty then "" else "\n  [possible values: " ++ ", ".intercalate values ++ "]"
  | _ => ""

/-- What may have been meant. -/
def tip? : UsageError → Option String
  | unknownOption _ similar _ =>
    similar.map fun s => "a similar argument exists: '" ++ s ++ "'"
  | badValue value _ (.notAmong values) =>
    (Text.mostSimilar? value values).map fun s => "a similar value exists: '" ++ s ++ "'"
  | _ => none

/-- The usage when these options have been given; the node name has to be among them. -/
def usage (given : List String) : String :=
  programName ++ " "
    ++ if given.isEmpty then "[OPTIONS] " ++ nodeNameOption.shown
      else " ".intercalate (nodeNameOption.shown :: given.filter (· != nodeNameOption.shown))

/-- The usage that the report shows, if any. -/
def usage? : UsageError → Option String
  | badValue .. | missingValue .. => none
  | unknownOption _ _ given => some (usage given)
  | missingNodeName given => some (usage (given ++ [nodeNameOption.shown]))
  | _ => some (usage [])

/-- The whole report. -/
def report (e : UsageError) : String :=
  let part (title : String) : Option String → String
    | some s => "\n\n" ++ title ++ s
    | none => ""
  "error: " ++ e.message ++ e.detail ++ part "  tip: " e.tip? ++ part "Usage: " e.usage?
    ++ "\n\nFor more information, try '--help'."

end UsageError

/-! ### Reading -/

/-- What the program is called for. -/
inductive Invocation where
  | help (long : Bool)
  | version
  | run (o : Options)

/-- What the arguments so far gave. -/
structure Reading where
  options : Options := {}
  /-- The options that were given, the last one first. -/
  given : List Opt := []
  /-- An option whose value has not been read, with that value once it is there. -/
  pending : Option (Opt × Option String) := none

namespace Reading

def gave (r : Reading) (o : Opt) : Bool := r.given.any (·.name == o.name)

/-- The options that were given, a pending one among them, as messages show them. -/
def shown (r : Reading) : List String :=
  let given := match r.pending with
    | some (o, some _) =>
      if r.gave o then r.given.filter fun (p : Opt) => p.name != o.name else o :: r.given
    | _ => r.given
  given.reverse.map Opt.shown

def store (r : Reading) (o : Opt) (value : String) : Except UsageError Reading :=
  match o.set value r.options with
  | .ok options => .ok { r with options, given := o :: r.given }
  | .error fault => .error (.badValue value o.shown fault)

/-- An option on the command line comes once. -/
def take (r : Reading) (o : Opt) (value : String) : Except UsageError Reading :=
  if r.gave o then .error (.repeated o.shown) else r.store o value

/-- Reads the value that is pending. -/
def settle (r : Reading) : Except UsageError Reading :=
  match r.pending with
  | none => .ok r
  | some (o, none) => .error (.missingValue o.shown o.values)
  | some (o, some value) => { r with pending := none }.take o value

/-- The fault of an option that does not exist. -/
def unknown (r : Reading) (name : String) : UsageError :=
  let similar := (Text.mostSimilar? name (all.map (·.name) ++ ["help", "version"])).map fun s =>
    (all.find? (·.name == s), "--" ++ s)
  let more := match similar with
    | some (o, s) => [(o.map Opt.shown).getD s].filter fun s => !r.shown.contains s
    | none => []
  .unknownOption ("--" ++ name) (similar.map (·.2)) (r.shown ++ more)

/-- An option by its long name, with the text after an equals sign. -/
def longOption (r : Reading) (name : String) (value : Option String) :
    Except UsageError (Reading ⊕ Invocation) :=
  let special? : Option Invocation :=
    if name = "help" then some (.help true) else if name = "version" then some .version else none
  match special?, all.find? (·.name == name), value with
  | some _, _, some v => .error (.unexpectedValue v ("--" ++ name))
  | some i, _, none => r.settle.map fun _ => .inr i
  | none, none, _ => .error (r.unknown name)
  | none, some o, some v =>
    if o.isFlag then .error (.unexpectedValue v o.shown)
    else (r.settle.bind (·.take o v)).map .inl
  | none, some o, none =>
    if o.isFlag then (r.settle.bind (·.take o "true")).map .inl
    else r.settle.map fun r => .inl { r with pending := some (o, none) }

/-- Takes arguments in order. After two dashes nothing is an option, and nothing else is known. -/
def arguments (r : Reading) : List String → Except UsageError (Reading ⊕ Invocation)
  | [] => r.settle.map .inl
  | a :: as =>
    match a.toList with
    | ['-', '-'] =>
      match as with
      | [] => r.settle.map .inl
      | b :: _ => .error (.unexpectedArgument b)
    | '-' :: '-' :: body =>
      let (name, value) := match Text.splitOnce '=' body with
        | some (name, value) => (name, some (String.ofList value))
        | none => (body, none)
      match r.longOption (String.ofList name) value with
      | .ok (.inl r) => arguments r as
      | done => done
    | '-' :: 'h' :: _ => r.settle.map fun _ => .inr (.help false)
    | '-' :: 'V' :: _ => r.settle.map fun _ => .inr .version
    | '-' :: c :: _ => .error (.unexpectedArgument (String.ofList ['-', c]))
    | _ =>
      match r.pending with
      | some (o, none) => arguments { r with pending := some (o, some a) } as
      | _ => .error (.unexpectedArgument a)

/-- Takes what was not given from the environment. -/
def environment (env : String → Option String) : List Opt → Reading → Except UsageError Reading
  | [], r => .ok r
  | o :: os, r =>
    match if r.gave o then none else env o.variableName with
    | none => environment env os r
    | some value =>
      match r.store o value with
      | .ok r => environment env os r
      | .error e => .error e

end Reading

/-- Reads a command line. -/
def parse (env : String → Option String) (args : List String) : Except UsageError Invocation :=
  match ({} : Reading).arguments args with
  | .error e => .error e
  | .ok (.inr i) => .ok i
  | .ok (.inl r) =>
    match r.environment env all with
    | .error e => .error e
    | .ok r =>
      if r.gave nodeNameOption then .ok (.run r.options) else .error (.missingNodeName r.shown)

/-- What the daemon is told by the options. -/
def Options.config (o : Options) : Daemon.Config :=
  { nodeName := o.nodeName
    mode := o.mode
    discoveryInterval := Duration.ofSeconds o.intervalSeconds.toNat
    volumeSet := { minAge := Duration.ofSeconds o.minAgeSeconds.toNat, claimDir := o.claimDir }
    volumeSetFile := o.volumeSetFile
    resultNamespace := o.resultNamespace
    standalone := o.standalone
    outputFile := o.outputFile
    healthAddress := o.healthAddress }

/-- The log lines that are written. -/
def Options.logs (o : Options) (l : LogLine) : Bool :=
  (LogLevel.ofName o.logLevel).rank ≤ l.level.rank

/-! ### Help -/

def versionText : String := programName ++ " " ++ programVersion

/-- What each mode does. -/
def modeHelp : Daemon.Mode → String
  | .discover => "discover:   Publish the node's discovery result"
  | .volumeSet => "volume-set: Reconcile a LocalVolumeSet on this node"

/-- Where a value may come from instead of the command line; `env` is the current environment. -/
def origins (env : String → Option String) (o : Opt) : List String :=
  ("[env: " ++ o.variableName ++ "=" ++ (env o.variableName).getD "" ++ "]")
    :: o.shownDefault.toList.map fun d => "[default: " ++ d ++ "]"

def margin : String := "          "

/-- The lines of the summary on an option. -/
def optionSummary (env : String → Option String) (o : Opt) : List String :=
  let values := if o.values.isEmpty then []
    else ["[possible values: " ++ ", ".intercalate o.values ++ "]"]
  ["      " ++ o.shown, margin ++ " ".intercalate (o.about :: origins env o ++ values)]

/-- The lines of the full help on an option. -/
def optionHelp (env : String → Option String) (o : Opt) : List String :=
  let values := if o.values.isEmpty then []
    else ["", margin ++ "Possible values:"] ++ Daemon.Mode.all.map fun m => margin ++ "- " ++ modeHelp m
  ["      " ++ o.shown, margin ++ o.about, margin] ++ (origins env o).map (margin ++ ·) ++ values

/-- The lines of help, a summary or in full. -/
def help (long : Bool) (env : String → Option String) : List String :=
  let apart (lines : List String) := if long then lines ++ [""] else lines
  let other := if long then "(see a summary with '-h')" else "(see more with '--help')"
  ["Node-local block device discovery, filtering and claim engine for local persistent volumes", "",
    "Usage: " ++ programName ++ " [OPTIONS] " ++ nodeNameOption.shown, "", "Options:"]
    ++ all.flatMap (fun o => apart (if long then optionHelp env o else optionSummary env o))
    ++ apart ["  -h, --help", margin ++ "Print help " ++ other]
    ++ ["  -V, --version", margin ++ "Print version"]

end NodeDisks.CommandLine
