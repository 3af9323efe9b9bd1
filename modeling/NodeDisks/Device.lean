import NodeDisks.Error
import NodeDisks.Json.Record
import NodeDisks.Text

/-!
Block devices and what is read about them: the rows of the listing and the mount table.
-/

/-!
## Columns

Block devices of a node, as the kernel's listing shows them: the columns of one row, what was merged
into it later (the file system signature and the persistent path), and the devices stacked on it.
-/

namespace NodeDisks

structure Device where
  name : String
  /-- The kernel's own name for the device. -/
  kname : String
  type : String
  /-- Size in bytes. -/
  size : UInt64
  model : String
  vendor : String
  serial : String
  rotational : Bool
  readOnly : Bool
  removable : Bool
  state : String
  partLabel : String
  wwn : String
  /-- File system signature, empty if there is none. -/
  fsType : String
  /-- A persistent path found earlier, empty if there is none. -/
  pathById : String
  children : List Device
  deriving Repr, Inhabited

namespace Device

/-- The device of a row without any column. -/
def blank : Device :=
  { name := "", kname := "", type := "", size := 0, model := "", vendor := "", serial := ""
    rotational := false, readOnly := false, removable := false, state := "", partLabel := ""
    wwn := "", fsType := "", pathById := "", children := [] }

/-- The device node, for a device that has a kernel name. -/
def node? (d : Device) : Except Error String :=
  if d.kname.isEmpty then .error (.emptyKernelName d.name) else .ok ("/dev/" ++ d.kname)

def isMultipath (d : Device) : Bool := d.type == "mpath"

def isSuspended (d : Device) : Bool := d.state == "suspended"

/-- The partition label names a BIOS or boot partition, in any mix of case. No letter outside ASCII
has one of the letters of these words as its lower case. -/
def hasBootLabel (d : Device) : Bool :=
  let label := d.partLabel.toList.map Char.toLower
  Text.occursIn "bios".toList label || Text.occursIn "boot".toList label

def hasFilesystem (d : Device) : Bool := !d.fsType.isEmpty

end Device

/-- The device types that volumes can be made of. -/
inductive DeviceType where
  | disk
  | part
  | lvm
  | mpath
  deriving DecidableEq, Repr

inductive MechanicalProperty where
  | rotational
  | nonRotational
  deriving DecidableEq, Repr

/-- What a discovery says about the use of a device. -/
inductive Availability where
  | available
  /-- A file system signature or a boot label was found. -/
  | notAvailable
  /-- The device is one path of several, and its identity is not settled. -/
  | unknown
  deriving DecidableEq, Repr

/-- The names of the device types, in the order in which messages list them. -/
def DeviceType.names : List (String × DeviceType) :=
  [("disk", .disk), ("part", .part), ("lvm", .lvm), ("mpath", .mpath)]

def DeviceType.name : DeviceType → String
  | disk => "disk"
  | part => "part"
  | lvm => "lvm"
  | mpath => "mpath"

def MechanicalProperty.names : List (String × MechanicalProperty) :=
  [("Rotational", .rotational), ("NonRotational", .nonRotational)]

def MechanicalProperty.name : MechanicalProperty → String
  | rotational => "Rotational"
  | nonRotational => "NonRotational"

def Availability.names : List (String × Availability) :=
  [("Available", .available), ("NotAvailable", .notAvailable), ("Unknown", .unknown)]

def Availability.name : Availability → String
  | available => "Available"
  | notAvailable => "NotAvailable"
  | unknown => "Unknown"

namespace Device

/-- The type of the device, when it is a supported one. -/
def type? (d : Device) : Option DeviceType := DeviceType.names.lookup d.type

def mechanicalProperty (d : Device) : MechanicalProperty :=
  if d.rotational then .rotational else .nonRotational

/-- A signature or a boot label makes a device unavailable. -/
def availability (d : Device) : Availability :=
  if d.hasFilesystem || d.hasBootLabel then .notAvailable else .available

end Device

end NodeDisks

/-!
## Rows

Devices as JSON rows. Reading allows for the dialects of the listing tool: keys in lower or upper
case, flags as booleans, numbers or digits in text, sizes as numbers or text, and `null` in an empty
column. Writing uses lower-case keys, booleans and numbers, with every column present.
-/

namespace NodeDisks.Device

/-! ### Columns -/

/-- Text without blanks around it; `null` counts as no text. -/
def textColumn (j : Json) : Except DecodeError String :=
  match j with
  | .null => .ok ""
  | j => j.toText.map Text.trim

def flagColumn : Json → Except DecodeError Bool
  | .null => .ok false
  | .bool b => .ok b
  | .number (.natural n) => .ok (n != 0)
  | .number _ => .ok false
  | .text s =>
    let t := Text.trim s
    if t = "" || t = "0" then .ok false
    else if t = "1" then .ok true
    else .error (.flagText t)
  | j => .error (.flagShape j)

def sizeColumn : Json → Except DecodeError UInt64
  | .null => .ok 0
  | .number (.natural n) => .ok n
  | .number n => .error (.sizeNumber n)
  | .text s =>
    let t := Text.strip s.toList
    if t.isEmpty then .ok 0
    else match Text.word? t with
      | some n => .ok n
      | none => .error (.sizeText s)
  | j => .error (.sizeShape j)

/-- A value in a row, with the devices that it lists in case it is the column of children. -/
structure Cell where
  json : Json
  listed : Except DecodeError (List Device)

/-- A column that one function reads. -/
def column {α : Type} (key : String) (aliases : List String) (read : Json → Except DecodeError α)
    (set : α → Device → Device) : Field Cell Device :=
  { key, aliases, required := false
    read := fun cell d => (read cell.json).map fun x => set x d }

def columns : List (Field Cell Device) := [
  column "name" ["NAME"] textColumn fun s d => { d with name := s },
  column "kname" ["KNAME"] textColumn fun s d => { d with kname := s },
  column "type" ["TYPE"] textColumn fun s d => { d with type := s },
  column "size" ["SIZE"] sizeColumn fun n d => { d with size := n },
  column "model" ["MODEL"] textColumn fun s d => { d with model := s },
  column "vendor" ["VENDOR"] textColumn fun s d => { d with vendor := s },
  column "serial" ["SERIAL"] textColumn fun s d => { d with serial := s },
  column "rota" ["ROTA"] flagColumn fun b d => { d with rotational := b },
  column "ro" ["RO"] flagColumn fun b d => { d with readOnly := b },
  column "rm" ["RM"] flagColumn fun b d => { d with removable := b },
  column "state" ["STATE"] textColumn fun s d => { d with state := s },
  column "partlabel" ["PARTLABEL"] textColumn fun s d => { d with partLabel := s },
  column "wwn" ["WWN"] textColumn fun s d => { d with wwn := s },
  column "fsType" [] Json.toText fun s d => { d with fsType := s },
  column "pathByID" [] Json.toText fun s d => { d with pathById := s },
  { key := "children", aliases := [], required := false
    read := fun cell d => cell.listed.map fun ds => { d with children := ds } }]

def row : Record Cell Device := ⟨"BlockDevice", columns, blank⟩

mutual

/-- Reads a row and, below it, the rows of its children. -/
def ofJson : Json → Except DecodeError Device
  | .object entries => row.ofEntries (cellsOfEntries entries)
  | .array elements => row.ofElements (cellsOfElements elements)
  | j => j.mismatch row.expected

/-- The devices in a column of children. -/
def listed : Json → Except DecodeError (List Device)
  | .null => .ok []
  | .array elements => ofElements elements
  | j => j.mismatch "a sequence"

def ofElements : List Json → Except DecodeError (List Device)
  | [] => .ok []
  | j :: js =>
    match ofJson j with
    | .error e => .error e
    | .ok d => (ofElements js).map (d :: ·)

def cellsOfEntries : List (String × Json) → List (String × Cell)
  | [] => []
  | (k, j) :: rest => (k, ⟨j, listed j⟩) :: cellsOfEntries rest

def cellsOfElements : List Json → List Cell
  | [] => []
  | j :: rest => ⟨j, listed j⟩ :: cellsOfElements rest

end

mutual

def toJson : Device → Json
  | d@{ children, .. } =>
    .object <| [
      ("name", .text d.name), ("kname", .text d.kname), ("type", .text d.type),
      ("size", Json.natural d.size), ("model", .text d.model), ("vendor", .text d.vendor),
      ("serial", .text d.serial), ("rota", .bool d.rotational), ("ro", .bool d.readOnly),
      ("rm", .bool d.removable), ("state", .text d.state), ("partlabel", .text d.partLabel),
      ("wwn", .text d.wwn), ("fsType", .text d.fsType)]
      ++ (if d.pathById.isEmpty then [] else [("pathByID", .text d.pathById)])
      ++ [("children", .array (childrenJson children))]

def childrenJson : List Device → List Json
  | [] => []
  | d :: ds => toJson d :: childrenJson ds

end

end NodeDisks.Device

/-!
## The mount table

The mount table: one record a line, with the root of the mount and the mount point at fixed places
and the source two places behind a lone `-`, which ends a varying number of optional fields.
-/

namespace NodeDisks

/-- A mount that uses a device. -/
structure MountReference where
  mountPoint : String
  source : String
  deriving DecidableEq, Repr

namespace MountReference

/-- The source field of a record, empty if there is none. -/
def sourceOf (fields : List (List Char)) : List Char :=
  match fields.findIdx? (· == ['-']) with
  | some i => fields[i + 2]?.getD []
  | none => []

/-- The reference in one record, when the record is a mount of `kname`: its root is the device node
by itself (a bind mount out of the device file system), or its source is the device node. -/
def ofLine? (kname : String) (line : List Char) : Option MountReference :=
  match Text.words line with
  | f₀ :: f₁ :: f₂ :: root :: point :: rest =>
    let source := sourceOf (f₀ :: f₁ :: f₂ :: root :: point :: rest)
    if root = '/' :: kname.toList || source = "/dev/".toList ++ kname.toList then
      some ⟨String.ofList point, String.ofList source⟩
    else none
  | _ => none

/-- The first mount of `kname` in a mount table. -/
def find? (table kname : String) : Option MountReference :=
  if kname.isEmpty then none
  else
    ((Text.lines table.toList).filter (Text.occursIn kname.toList)).findSome? (ofLine? kname)

end MountReference

end NodeDisks
