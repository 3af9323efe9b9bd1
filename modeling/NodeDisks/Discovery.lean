import NodeDisks.Host.Basic
import NodeDisks.Identity
import NodeDisks.Inventory
import NodeDisks.Text

/-!
## Partitions

Partitions as the kernel's device tree shows them: entries in the directory of a device that start
with its kernel name.
-/

namespace NodeDisks

/-- Where the kernel lists the block devices. -/
def blockDirectory : Path := ⟨"/sys/block"⟩

/-- The directory of a device lists an entry that starts with its kernel name. -/
def hasPartitions (files : FileView) (dir : Path) (kname : String) : Except Error Bool :=
  match files.glob ((dir.join kname).join "*").text with
  | .error e => .error e
  | .ok entries =>
    .ok (entries.any fun p =>
      match p.fileName? with
      | some name => Text.startsWith name kname
      | none => false)

/-!
## Passes

Discovery: the devices of a node that are worth showing, published with their identity and
availability.

A pass surveys the node, leaves out what is read-only, suspended, of another type or divided into
partitions, makes a record of each remaining device, keeps the first record of each identity and
publishes them. A device without a persistent link is reported once in the life of the process.
-/

/-- The names that are not known yet, each once, in their order. -/
def unheard (known : List String) : List String → List String
  | [] => []
  | k :: ks => if known.contains k then unheard known ks else k :: unheard (k :: known) ks

namespace Inventory

/-- The events that a survey gives rise to. -/
def surveyEvents : Except Error Inventory → List Event
  | .error e => [.errorRunningBlockList ("failed to list block devices: " ++ e.message)]
  | .ok inv =>
    if inv.badRows.isEmpty then []
    else [.errorRunningBlockList ("error parsing " ++ Text.decimal inv.badRows.length ++ " lsblk rows")]

/-- Surveys all devices and reports what went wrong. -/
def reportedSurvey (h : Host) : Traced (Except Error Inventory) := do
  let result ← survey h []
  Traced.report (surveyEvents result)
  return result

end Inventory

namespace Discovery

structure Config where
  nodeName : String
  blockDir : Path := blockDirectory
  links : LinkDirs := {}

/-- What a process remembers between passes. -/
structure State where
  /-- Kernel names reported as having no persistent link. -/
  missing : List String
  deriving DecidableEq, Repr

def State.initial : State := ⟨[]⟩

/-- A device that is not shown. A device whose partitions cannot be told counts as divided. -/
def ignores (files : FileView) (c : Config) (d : Device) : Bool :=
  d.readOnly || d.isSuspended || d.type?.isNone || !d.children.isEmpty
    || (match hasPartitions files c.blockDir d.kname with
      | .ok divided => divided
      | .error _ => true)

/-- A device that is one of several paths is not settled. -/
def state (d : Device) : Availability :=
  if d.isMultipath then .unknown else d.availability

def record (d : Device) (deviceId path : String) : DeviceRecord :=
  { deviceId, path, model := d.model, type := d.type?, vendor := d.vendor, serial := d.serial
    size := d.size, property := d.mechanicalProperty, fsType := d.fsType, state := state d
    wwn := d.wwn }

/-- The identity that a device is shown with. -/
def identity (node : String) : Except Error Resolution → String
  | .ok r => r.path
  | .error _ => node

/-- The record of a device, and whether it has no persistent link. A device without a kernel name has
no record. -/
def recordOf? (files : FileView) (c : Config) (d : Device) : Option (DeviceRecord × Bool) :=
  match d.node? with
  | .error _ => none
  | .ok node =>
    let resolved := (Identity.resolve files c.links none d).1
    let missing := match resolved with
      | .ok r => !r.isFound
      | .error _ => false
    some (record d (identity node resolved) node, missing)

/-- The kernel names of the devices without a persistent link. -/
def missingNames (files : FileView) (c : Config) (ds : List Device) : List String :=
  (ds.filter fun d => match recordOf? files c d with
    | some (_, missing) => missing
    | none => false).map (·.kname)

/-- The records of devices; what has no persistent link is reported unless it was before. -/
def records (c : Config) (s : State) (h : Host) (ds : List Device) :
    Traced (List DeviceRecord × State) := do
  let news := unheard s.missing (missingNames h.files c ds)
  Traced.report (news.map .deviceIdNotFound)
  return (ds.filterMap fun d => (recordOf? h.files c d).map (·.1), ⟨s.missing ++ news⟩)

/-- One pass. -/
def discover (c : Config) (s : State) (h : Host) :
    Traced (Except Error DiscoveryStatus × State) := do
  match ← Inventory.reportedSurvey h with
  | .error e => return (.error e, s)
  | .ok inv =>
    let shown := inv.devices.filter fun d => !ignores h.files c d
    let (found, s) ← records c s h shown
    let status : DiscoveryStatus := ⟨some h.now.text, DeviceRecord.unique found⟩
    match ← h.publishResult status with
    | .error e => return (.error e, s)
    | .ok () => return (.ok status, s)

end Discovery

end NodeDisks
