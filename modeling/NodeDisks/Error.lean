import NodeDisks.Json.Record

/-!
What can go wrong, as causes; the wording of each in `Error.message`, and what a control loop does
about it in `Error.action`.
-/

namespace NodeDisks

/-- A span of time in nanoseconds. -/
abbrev Duration := Nat

def Duration.ofSeconds (n : Nat) : Duration := n * 1000000000

def Duration.ofMillis (n : Nat) : Duration := n * 1000000

def Duration.seconds (d : Duration) : Nat := d / 1000000000

inductive IoKind where
  | notFound
  | permissionDenied
  | interrupted
  | other
  deriving DecidableEq, Repr

/-- A failed operation on the host: its kind, and the host's own words. -/
structure IoError where
  kind : IoKind
  text : String
  deriving DecidableEq, Repr

/-- A fault in what the operator configured. -/
inductive ConfigurationFault where
  | general (text : String)
  /-- A bound needs exactly one value. -/
  | boundCount (operator key : String) (count : Nat)
  /-- A bound has to be an integer of 64 bits. -/
  | boundText (key value : String)
  /-- A label without `=`. -/
  | labelForm (part : String)
  | labelKey (part : String)
  deriving DecidableEq, Repr

/-- A refused request to the cluster. -/
inductive ApiFailure where
  | status (code : Nat) (reason : String)
  | unreadableAnswer
  deriving DecidableEq, Repr

inductive EnumerationFault where
  | general (text : String)
  /-- The listing is not a JSON document of the expected shape. -/
  | unreadable (output : String)
  deriving DecidableEq, Repr

inductive Error where
  | internal (text : String)
  | configuration (fault : ConfigurationFault)
  | api (failure : ApiFailure)
  | commandFailed (command : String) (code : Option Int) (output : String)
  | enumeration (fault : EnumerationFault)
  | noParsableRows (rows : Nat)
  | symlinkEval (path reason : String)
  | glob (pattern reason : String)
  | filterEvaluation (filter device reason : String)
  | emptyKernelName (name : String)
  | deviceBusy (device : String)
  | jsonParse (cause : DecodeError)
  | yamlParse
  | io (error : IoError)

def ConfigurationFault.message : ConfigurationFault → String
  | general text => text
  | boundCount operator key count =>
    "node selector operator " ++ operator ++ " on " ++ key ++ " needs exactly one value, got "
      ++ Text.decimal count
  | boundText key value =>
    "node selector value for " ++ key ++ " must be an integer, got " ++ Text.quoted value
  | labelForm part => "invalid label " ++ Text.quoted part ++ ", expected key=value"
  | labelKey part => "empty label key in " ++ Text.quoted part

def ApiFailure.message : ApiFailure → String
  | status code reason => reason ++ " (" ++ Text.decimal code ++ ")"
  | unreadableAnswer => "unreadable answer"

/-- Stands for the reader's own account of a fault in JSON text. -/
def jsonFault : String := "<json error>"

def EnumerationFault.message : EnumerationFault → String
  | general text => text
  | unreadable output =>
    "failed to unmarshal lsblk JSON " ++ Text.quoted output ++ ": " ++ jsonFault

/-- An exit code as messages show it; a process that a signal ended has none. -/
def exitCodeText : Option Int → String
  | some code => "Some(" ++ Text.integer code ++ ")"
  | none => "None"

def Error.message : Error → String
  | internal text => "Internal error: " ++ text
  | configuration fault => "Configuration error: " ++ fault.message
  | api failure => "Kubernetes API error: " ++ failure.message
  | commandFailed command code output =>
    "Command " ++ command ++ " failed (exit code " ++ exitCodeText code ++ "): " ++ output
  | enumeration fault => "Block device enumeration failed: " ++ fault.message
  | noParsableRows rows =>
    "Could not parse any of the " ++ Text.decimal rows ++ " lsblk entries"
  | symlinkEval path reason => "Could not evaluate symlink " ++ path ++ ": " ++ reason
  | glob pattern reason => "Error listing files matching " ++ pattern ++ ": " ++ reason
  | filterEvaluation filter device reason =>
    "Filter " ++ filter ++ " failed for device " ++ device ++ ": " ++ reason
  | emptyKernelName name => "Device has no kernel name: " ++ name
  | deviceBusy device => "Device busy: " ++ device
  | jsonParse cause => "JSON parse error: " ++ cause.message
  | yamlParse => "YAML parse error"
  | io error => "IO error: " ++ error.text

/-- What a control loop does after a failed pass. -/
inductive Action where
  | requeueWithBackoff
  | requeueAfter (delay : Duration)
  | noRequeue
  deriving DecidableEq, Repr

namespace Error

/-- How long to wait for a busy device. -/
def busyDelay : Duration := Duration.ofSeconds 5

/-- A busy device is tried again soon, a wrong configuration never, and all else with growing
delays. -/
def action : Error → Action
  | deviceBusy _ => .requeueAfter busyDelay
  | configuration _ | yamlParse => .noRequeue
  | _ => .requeueWithBackoff

def retryable (e : Error) : Bool := e.action != .noRequeue

/-- The fault may well be gone at the next try. -/
def transient : Error → Bool
  | commandFailed .. | api _ | deviceBusy _ => true
  | _ => false

end Error

end NodeDisks
