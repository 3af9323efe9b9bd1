import NodeDisks.Device
import NodeDisks.Host.Basic
import NodeDisks.Json.Reader

/-!
The inventory of a node: its block devices with their file system signatures.
-/

/-!
## The listing

The listing of block devices: a JSON document with one row for each device at the top, and the
devices stacked on it inside the row.

A row is usable when it reads as a device with a name that is not blank. Rows that are not usable are
set aside with the reason; only when there are rows and none is usable does the listing fail.
-/

namespace NodeDisks

/-- A row set aside. -/
structure BadRow where
  raw : Json
  reason : String

/-- The devices of a node, and the rows that could not be used. -/
structure Inventory where
  devices : List Device
  badRows : List BadRow

namespace Inventory

/-- The device of a usable row, or why the row is not usable. -/
def readRow (raw : Json) : Except BadRow Device :=
  match Device.ofJson raw with
  | .error e => .error ⟨raw, e.message⟩
  | .ok d => if Text.blank d.name then .error ⟨raw, "empty name"⟩ else .ok d

/-- Sorts rows into devices and bad rows, each in their order. -/
def ofRows : List Json → Inventory
  | [] => ⟨[], []⟩
  | raw :: rows =>
    let inv := ofRows rows
    match readRow raw with
    | .ok d => { inv with devices := d :: inv.devices }
    | .error bad => { inv with badRows := bad :: inv.badRows }

/-- The rows of a listing. -/
def rows? (output : String) : Option (List Json) :=
  Json.arrayField? "blockdevices" (Text.trim output)

/-- Reads a listing. -/
def ofListing (output : String) : Except Error Inventory :=
  match rows? output with
  | none => .error (.enumeration (.unreadable output))
  | some rows =>
    let inv := ofRows rows
    if !rows.isEmpty && inv.devices.isEmpty then .error (.noParsableRows rows.length)
    else .ok inv

end Inventory

/-!
## Signatures

File system signatures by device node, read from lines such as `/dev/sdc: TYPE="ext4"`.
-/

/-- Signatures by device node; of two entries for a node the first counts. -/
abbrev Signatures := List (String × String)

namespace Signatures

/-- The node and the signature in one line: the node ends at the first colon, and between it and the
first equals sign after it stands the word `TYPE`. -/
def ofLine? (line : List Char) : Option (String × String) :=
  match Text.splitOnce ':' line with
  | none => none
  | some (node, rest) =>
    match Text.splitOnce '=' rest with
    | none => none
    | some (key, value) =>
      if Text.strip key = "TYPE".toList then
        some (String.ofList (Text.strip node),
          String.ofList (Text.stripChar '"' (Text.strip value)))
      else none

/-- Reads every line that has the form of an entry. The last entry of a node counts, so it comes
first. -/
def ofOutput (output : String) : Signatures :=
  ((Text.lines output.toList).filterMap ofLine?).reverse

/-- The signature of a device: under its name, its kernel name, or its name as a mapped device. -/
def find? (s : Signatures) (d : Device) : Option String :=
  ["/dev/" ++ d.name, "/dev/" ++ d.kname, "/dev/mapper/" ++ d.name].findSome?
    fun node => s.lookup node

mutual

/-- Writes the signatures into a device and everything stacked on it. -/
def mergeInto (s : Signatures) : Device → Device
  | d@{ children, .. } =>
    { d with fsType := (s.find? d).getD d.fsType, children := mergeIntoAll s children }

def mergeIntoAll (s : Signatures) : List Device → List Device
  | [] => []
  | d :: ds => mergeInto s d :: mergeIntoAll s ds

end

end Signatures

end NodeDisks

/-!
## The survey

A survey of a node's devices: the signature tool is run first, the listing tool second; the
signatures are merged into the listed trees, and the trees are flattened so that each device is
followed by everything stacked on it.
-/

namespace NodeDisks.Inventory

mutual

/-- A device and everything stacked on it, each before what is stacked on it. -/
def flattened : Device → List Device
  | d@{ children, .. } => d :: flattenedAll children

def flattenedAll : List Device → List Device
  | [] => []
  | d :: ds => flattened d ++ flattenedAll ds

end

/-- The columns asked of the listing tool. -/
def columns : String := "NAME,ROTA,TYPE,SIZE,MODEL,VENDOR,RO,RM,STATE,KNAME,SERIAL,PARTLABEL,WWN"

/-- Lists the devices as JSON with sizes in bytes; all of them when `only` is empty. -/
def listCommand (only : List String) : Command :=
  ⟨"lsblk", ["--json", "-b", "-o", columns] ++ only⟩

/-- Shows the signatures alone. -/
def signatureCommand (only : List String) : Command :=
  ⟨"blkid", ["-s", "TYPE"] ++ only⟩

/-- The exit code of the signature tool when it found nothing. -/
def nothingFound : Int := 2

/-- Reads the signatures of the node's devices. -/
def signatures (h : Host) (only : List String) : Traced (Except Error Signatures) := do
  match ← h.execute (signatureCommand only) with
  | .error e => return .error (.io e)
  | .ok o =>
    if o.code = some 0 then return .ok (Signatures.ofOutput o.output)
    else if o.code = some nothingFound then return .ok []
    else return .error (.commandFailed "blkid" o.code o.output)

/-- Lists the devices of the node with their signatures, restricted to `only` unless it is empty. -/
def survey (h : Host) (only : List String) : Traced (Except Error Inventory) := do
  match ← signatures h only with
  | .error e => return .error e
  | .ok found =>
    match ← h.execute (listCommand only) with
    | .error e => return .error (.io e)
    | .ok o =>
      if !o.success then return .error (.commandFailed "lsblk" o.code o.output)
      else match ofListing o.output with
        | .error e => return .error e
        | .ok inv =>
          return .ok { inv with devices := flattenedAll (found.mergeIntoAll inv.devices) }

end NodeDisks.Inventory
