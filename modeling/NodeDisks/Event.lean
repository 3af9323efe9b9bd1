import NodeDisks.Json.Record
import NodeDisks.Resource

/-!
## Notifications

Notifications about devices: what is reported, how urgent it is, and its JSON form, an object with
the reason as its only key.
-/

namespace NodeDisks

inductive Event where
  /-- A device passed every filter and waits for its minimum age. -/
  | discoveredNewDevice (kname : String) (minAgeSeconds : UInt64)
  /-- The devices could not be listed, or some rows of the listing were dropped. -/
  | errorRunningBlockList (message : String)
  /-- No persistent link leads to the device. -/
  | deviceIdNotFound (kname : String)
  deriving DecidableEq, Repr

inductive Severity where
  | normal
  | warning
  deriving DecidableEq, Repr

def Severity.name : Severity → String
  | normal => "Normal"
  | warning => "Warning"

namespace Event

def reason : Event → String
  | discoveredNewDevice .. => "DiscoveredNewDevice"
  | errorRunningBlockList _ => "ErrorRunningBlockList"
  | deviceIdNotFound _ => "DeviceIdNotFound"

def severity : Event → Severity
  | discoveredNewDevice .. => .normal
  | errorRunningBlockList _ | deviceIdNotFound _ => .warning

def message : Event → String
  | discoveredNewDevice _ seconds =>
    "found possible matching disk, waiting " ++ Text.decimal seconds.toNat ++ "s to claim"
  | errorRunningBlockList message => message
  | deviceIdNotFound kname => "no persistent by-id symlink found for " ++ kname

/-- The kernel name of the device in question. -/
def device? : Event → Option String
  | discoveredNewDevice kname _ | deviceIdNotFound kname => some kname
  | errorRunningBlockList _ => none

def payload : Event → Json
  | discoveredNewDevice kname seconds =>
    .object [("kname", .text kname), ("min_age_secs", .natural seconds)]
  | errorRunningBlockList message => .object [("message", .text message)]
  | deviceIdNotFound kname => .object [("kname", .text kname)]

def toJson (e : Event) : Json := .object [(e.reason, e.payload)]

/-- A required field of an event. -/
def field {α ρ : Type} (key : String) (read : Json → Except DecodeError α) (set : α → ρ → ρ) :
    Field Json ρ :=
  { key, aliases := [], required := true, read := fun j x => (read j).map fun a => set a x }

def newDeviceFields : List (Field Json (String × UInt64)) := [
  field "kname" Json.toText fun s x => (s, x.2),
  field "min_age_secs" Json.toWord fun n x => (x.1, n)]

/-- The entries of a variant that carries fields. -/
def fieldsOf : Option Json → Except DecodeError (List (String × Json))
  | some (.object entries) => .ok entries
  | some j => j.mismatch "struct variant"
  | none => .error (.invalidType .unitVariant "struct variant")

def reasons : List String :=
  ["DiscoveredNewDevice", "ErrorRunningBlockList", "DeviceIdNotFound"]

def ofJson (j : Json) : Except DecodeError Event := do
  let (reason, payload) ← j.toVariant
  if reason = "DiscoveredNewDevice" then
    let r : Record Json (String × UInt64) := ⟨reason, newDeviceFields, ("", 0)⟩
    let (kname, seconds) ← r.ofEntries (← fieldsOf payload)
    return discoveredNewDevice kname seconds
  else if reason = "ErrorRunningBlockList" then
    let r : Record Json String := ⟨reason, [field "message" Json.toText fun s _ => s], ""⟩
    return errorRunningBlockList (← r.ofEntries (← fieldsOf payload))
  else if reason = "DeviceIdNotFound" then
    let r : Record Json String := ⟨reason, [field "kname" Json.toText fun s _ => s], ""⟩
    return deviceIdNotFound (← r.ofEntries (← fieldsOf payload))
  else throw (.unknownVariant reason reasons)

end Event

/-!
## Log lines

Log lines: a level, a message and named fields. Events and published results can go to the log.
-/

inductive LogLevel where
  | trace
  | debug
  | info
  | warn
  | error
  deriving DecidableEq, Repr

namespace LogLevel

def name : LogLevel → String
  | trace => "TRACE"
  | debug => "DEBUG"
  | info => "INFO"
  | warn => "WARN"
  | error => "ERROR"

/-- How grave a line of this level is. -/
def rank : LogLevel → Nat
  | trace => 0
  | debug => 1
  | info => 2
  | warn => 3
  | error => 4

/-- The level of that name in any case; every other name stands for `info`. -/
def ofName (s : String) : LogLevel :=
  let named := [trace, debug, info, warn, error].find? fun l => l.name == s.toUpper
  named.getD info

end LogLevel

structure LogLine where
  level : LogLevel
  message : String
  /-- Texts and natural numbers. -/
  fields : List (String × Json)

namespace LogLine

/-- The message among the fields. -/
def toJson (l : LogLine) : Json := Json.ofEntries (("message", .text l.message) :: l.fields)

end LogLine

/-- Stands for a text that is not known. -/
def unknownText : String := "-"

def count {α : Type} (xs : List α) : Json := .natural (UInt64.ofNat xs.length)

/-- The line for an event, which concerns the object of that name. -/
def Event.logLine (object : Option String) (e : Event) : LogLine :=
  { level := match e.severity with
      | .normal => .info
      | .warning => .warn
    message := e.message
    fields := [("reason", .text e.reason), ("object", .text (object.getD unknownText)),
      ("device", .text (e.device?.getD unknownText))] }

def DeviceRecord.logLine (d : DeviceRecord) : LogLine :=
  { level := .debug
    message := "Discovered device"
    fields := [("device_id", .text d.deviceId), ("path", .text d.path),
      ("state", .text d.state.name)] }

/-- A summary of a result, and a line for each of its devices. -/
def DiscoveryStatus.logLines (s : DiscoveryStatus) : List LogLine :=
  { level := .info
    message := "Discovered devices"
    fields := [("devices", count s.devices),
      ("discovered_at", .text (s.timestamp.getD unknownText))] }
    :: s.devices.map DeviceRecord.logLine

end NodeDisks
