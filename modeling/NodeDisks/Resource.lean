import NodeDisks.Device
import NodeDisks.Json.Record

/-!
Resources of the cluster: volume sets, discovery results, and the objects that hold them.
-/

/-!
## Fields

Fields of resource records. A field is required, or falls back on what the draft of the record holds.
-/

namespace NodeDisks.Resource

/-- A field that may be absent. -/
def optional {V α ρ : Type} (key : String) (read : V → Except DecodeError α) (set : α → ρ → ρ) :
    Field V ρ :=
  { key, aliases := [], required := false, read := fun v x => (read v).map fun a => set a x }

/-- A field that has to be present. -/
def required {V α ρ : Type} (key : String) (read : V → Except DecodeError α) (set : α → ρ → ρ) :
    Field V ρ :=
  { key, aliases := [], required := true, read := fun v x => (read v).map fun a => set a x }

end NodeDisks.Resource

/-!
## Discovery results

Discovery results: the record of each device of a node that is worth showing, with its identity and
availability.
-/

namespace NodeDisks

/-- What is published about one device. -/
structure DeviceRecord where
  /-- The persistent identity, normally a link that does not change. -/
  deviceId : String
  path : String
  model : String
  type : Option DeviceType
  vendor : String
  serial : String
  size : UInt64
  property : MechanicalProperty
  fsType : String
  state : Availability
  wwn : String
  deriving DecidableEq, Repr

structure DiscoveryStatus where
  /-- The time of the discovery, in the form of RFC 3339. -/
  timestamp : Option String
  devices : List DeviceRecord
  deriving DecidableEq, Repr

/-- The node that a discovery result belongs to. -/
structure DiscoverySpec where
  nodeName : String
  deriving DecidableEq, Repr

namespace DeviceRecord

def toJson (d : DeviceRecord) : Json :=
  .object <| [("deviceID", .text d.deviceId), ("path", .text d.path), ("model", .text d.model)]
    ++ (match d.type with
      | none => []
      | some t => [("type", .text t.name)])
    ++ [("vendor", .text d.vendor), ("serial", .text d.serial), ("size", .natural d.size),
      ("property", .text d.property.name), ("fsType", .text d.fsType),
      ("status", .object [("state", .text d.state.name)]), ("WWN", .text d.wwn)]

def stateRecord : Record Json Availability :=
  { name := "DeviceStatus"
    fields := [Resource.required "state" (Json.toNamed Availability.names) fun s _ => s]
    draft := .unknown }

def record : Record Json DeviceRecord :=
  { name := "DiscoveredDevice"
    fields := [
      Resource.required "deviceID" Json.toText fun s x => { x with deviceId := s },
      Resource.required "path" Json.toText fun s x => { x with path := s },
      Resource.optional "model" Json.toText fun s x => { x with model := s },
      Resource.optional "type" (Json.toOption (Json.toNamed DeviceType.names))
        fun t x => { x with type := t },
      Resource.optional "vendor" Json.toText fun s x => { x with vendor := s },
      Resource.optional "serial" Json.toText fun s x => { x with serial := s },
      Resource.optional "size" Json.toWord fun n x => { x with size := n },
      Resource.required "property" (Json.toNamed MechanicalProperty.names)
        fun p x => { x with property := p },
      Resource.optional "fsType" Json.toText fun s x => { x with fsType := s },
      Resource.required "status" stateRecord.ofJson fun s x => { x with state := s },
      Resource.optional "WWN" Json.toText fun s x => { x with wwn := s }]
    draft := ⟨"", "", "", none, "", "", 0, .nonRotational, "", .unknown, ""⟩ }

def ofJson : Json → Except DecodeError DeviceRecord := record.ofJson

/-- Keeps the first record of each identity; `seen` are the identities that came before. -/
def uniqueFrom (seen : List String) : List DeviceRecord → List DeviceRecord
  | [] => []
  | d :: ds =>
    if seen.contains d.deviceId then uniqueFrom seen ds
    else d :: uniqueFrom (d.deviceId :: seen) ds

/-- Keeps the first record of each identity. -/
def unique (ds : List DeviceRecord) : List DeviceRecord := uniqueFrom [] ds

end DeviceRecord

namespace DiscoveryStatus

def toJson (s : DiscoveryStatus) : Json :=
  .object [("discoveredTimeStamp", Json.ofText? s.timestamp),
    ("discoveredDevices", .array (s.devices.map DeviceRecord.toJson))]

def record : Record Json DiscoveryStatus :=
  { name := "LocalVolumeDiscoveryResultStatus"
    fields := [
      Resource.optional "discoveredTimeStamp" (Json.toOption Json.toText)
        fun t x => { x with timestamp := t },
      Resource.optional "discoveredDevices" (Json.toList DeviceRecord.ofJson)
        fun ds x => { x with devices := ds }]
    draft := ⟨none, []⟩ }

def ofJson : Json → Except DecodeError DiscoveryStatus := record.ofJson

end DiscoveryStatus

namespace DiscoverySpec

def toJson (s : DiscoverySpec) : Json := .object [("nodeName", .text s.nodeName)]

def record : Record Json DiscoverySpec :=
  { name := "LocalVolumeDiscoveryResultSpec"
    fields := [Resource.required "nodeName" Json.toText fun s _ => ⟨s⟩]
    draft := ⟨""⟩ }

def ofJson : Json → Except DecodeError DiscoverySpec := record.ofJson

end DiscoverySpec

/-!
## Volume sets

Volume sets: which devices on which nodes may be claimed.

The records are described once, over any tree that can be read as text, numbers, lists and named
values (`Reader`), so the same description serves JSON and YAML.
-/

inductive SelectorOperator where
  | isIn
  | notIn
  | present
  | absent
  | greater
  | less
  deriving DecidableEq, Repr

def SelectorOperator.names : List (String × SelectorOperator) :=
  [("In", .isIn), ("NotIn", .notIn), ("Exists", .present), ("DoesNotExist", .absent),
    ("Gt", .greater), ("Lt", .less)]

def SelectorOperator.name : SelectorOperator → String
  | isIn => "In"
  | notIn => "NotIn"
  | present => "Exists"
  | absent => "DoesNotExist"
  | greater => "Gt"
  | less => "Lt"

/-- A requirement on one label. -/
structure Requirement where
  key : String
  operator : SelectorOperator
  values : List String
  deriving DecidableEq, Repr

/-- Requirements that have to hold together. -/
structure SelectorTerm where
  requirements : List Requirement
  deriving DecidableEq, Repr

/-- Terms of which one has to hold. -/
structure NodeSelector where
  terms : List SelectorTerm
  deriving DecidableEq, Repr

/-- Rules that a device has to meet. Empty lists and absent bounds stand for the defaults below. -/
structure InclusionSpec where
  deviceTypes : List DeviceType
  properties : List MechanicalProperty
  minSize : Option UInt64
  maxSize : Option UInt64
  models : List String
  vendors : List String
  deriving DecidableEq, Repr

structure VolumeSetSpec where
  storageClass : String
  nodeSelector : Option NodeSelector
  inclusion : InclusionSpec
  deriving DecidableEq, Repr

structure VolumeSetStatus where
  provisioned : Option UInt32
  deriving DecidableEq, Repr

namespace InclusionSpec

def unrestricted : InclusionSpec := ⟨[], [], none, none, [], []⟩

/-- Whole disks and multipath devices, unless types are listed. -/
def effectiveTypes (s : InclusionSpec) : List DeviceType :=
  if s.deviceTypes.isEmpty then [.disk, .mpath] else s.deviceTypes

/-- One binary gigabyte. -/
def defaultMinSize : UInt64 := 1073741824

def effectiveMinSize (s : InclusionSpec) : UInt64 := s.minSize.getD defaultMinSize

end InclusionSpec

def VolumeSetSpec.unrestricted : VolumeSetSpec := ⟨"", none, .unrestricted⟩

namespace Resource

/-- How to read the values that occur in a spec from the nodes of a tree. -/
structure Reader (V : Type) where
  text : V → Except DecodeError String
  word : V → Except DecodeError UInt64
  /-- One of the named values. -/
  named : {α : Type} → List (String × α) → V → Except DecodeError α
  optional : {α : Type} → (V → Except DecodeError α) → V → Except DecodeError (Option α)
  list : {α : Type} → (V → Except DecodeError α) → V → Except DecodeError (List α)
  record : {ρ : Type} → Record V ρ → V → Except DecodeError ρ

def Reader.json : Reader Json :=
  { text := Json.toText, word := Json.toWord, named := Json.toNamed, optional := Json.toOption
    list := Json.toList, record := Record.ofJson }

variable {V : Type} (r : Reader V)

def requirementRecord : Record V Requirement :=
  { name := "NodeSelectorRequirement"
    fields := [
      required "key" r.text fun s x => { x with key := s },
      required "operator" (r.named SelectorOperator.names) fun o x => { x with operator := o },
      optional "values" (r.list r.text) fun vs x => { x with values := vs }]
    draft := ⟨"", .isIn, []⟩ }

def termRecord : Record V SelectorTerm :=
  { name := "NodeSelectorTerm"
    fields := [
      optional "matchExpressions" (r.list (r.record (requirementRecord r)))
        fun es x => { x with requirements := es }]
    draft := ⟨[]⟩ }

def selectorRecord : Record V NodeSelector :=
  { name := "NodeSelector"
    fields := [
      optional "nodeSelectorTerms" (r.list (r.record (termRecord r)))
        fun ts x => { x with terms := ts }]
    draft := ⟨[]⟩ }

def inclusionRecord : Record V InclusionSpec :=
  { name := "DeviceInclusionSpec"
    fields := [
      optional "deviceTypes" (r.list (r.named DeviceType.names))
        fun ts x => { x with deviceTypes := ts },
      optional "deviceMechanicalProperties" (r.list (r.named MechanicalProperty.names))
        fun ps x => { x with properties := ps },
      optional "minSize" (r.optional r.word) fun n x => { x with minSize := n },
      optional "maxSize" (r.optional r.word) fun n x => { x with maxSize := n },
      optional "models" (r.list r.text) fun ms x => { x with models := ms },
      optional "vendors" (r.list r.text) fun vs x => { x with vendors := vs }]
    draft := .unrestricted }

def specRecord : Record V VolumeSetSpec :=
  { name := "LocalVolumeSetSpec"
    fields := [
      optional "storageClassName" r.text fun s x => { x with storageClass := s },
      optional "nodeSelector" (r.optional (r.record (selectorRecord r)))
        fun s x => { x with nodeSelector := s },
      optional "deviceInclusionSpec" (r.record (inclusionRecord r))
        fun i x => { x with inclusion := i }]
    draft := .unrestricted }

def statusRecord : Record Json VolumeSetStatus :=
  { name := "LocalVolumeSetStatus"
    fields := [
      optional "totalProvisionedDeviceCount" (Json.toOption Json.toHalfWord)
        fun n _ => ⟨n⟩]
    draft := ⟨none⟩ }

end Resource

def Requirement.toJson (r : Requirement) : Json :=
  .object [("key", .text r.key), ("operator", .text r.operator.name),
    ("values", Json.texts r.values)]

def SelectorTerm.toJson (t : SelectorTerm) : Json :=
  .object [("matchExpressions", .array (t.requirements.map Requirement.toJson))]

def NodeSelector.toJson (s : NodeSelector) : Json :=
  .object [("nodeSelectorTerms", .array (s.terms.map SelectorTerm.toJson))]

def NodeSelector.ofJson : Json → Except DecodeError NodeSelector :=
  (Resource.selectorRecord .json).ofJson

def InclusionSpec.toJson (s : InclusionSpec) : Json :=
  .object [("deviceTypes", Json.texts (s.deviceTypes.map (·.name))),
    ("deviceMechanicalProperties", Json.texts (s.properties.map (·.name))),
    ("minSize", Json.ofNatural? s.minSize), ("maxSize", Json.ofNatural? s.maxSize),
    ("models", Json.texts s.models), ("vendors", Json.texts s.vendors)]

def InclusionSpec.ofJson : Json → Except DecodeError InclusionSpec :=
  (Resource.inclusionRecord .json).ofJson

def VolumeSetSpec.toJson (s : VolumeSetSpec) : Json :=
  .object [("storageClassName", .text s.storageClass),
    ("nodeSelector", match s.nodeSelector with
      | none => .null
      | some n => n.toJson),
    ("deviceInclusionSpec", s.inclusion.toJson)]

def VolumeSetSpec.ofJson : Json → Except DecodeError VolumeSetSpec :=
  (Resource.specRecord .json).ofJson

def VolumeSetStatus.toJson (s : VolumeSetStatus) : Json :=
  .object [("totalProvisionedDeviceCount",
    Json.ofNatural? (s.provisioned.map fun n => UInt64.ofNat n.toNat))]

def VolumeSetStatus.ofJson : Json → Except DecodeError VolumeSetStatus :=
  Resource.statusRecord.ofJson

end NodeDisks

/-!
## Objects

Resources as the cluster stores them: kind and version, the metadata, the spec and the status.
-/

namespace NodeDisks.Resource

/-- How the cluster calls a kind of resource. -/
structure Names where
  kind : String
  plural : String
  deriving DecidableEq, Repr

def group : String := "storage.billyronks.io"
def version : String := "v1alpha1"
def apiVersion : String := group ++ "/" ++ version

def discoveryNames : Names := ⟨"LocalVolumeDiscoveryResult", "localvolumediscoveryresults"⟩
def volumeSetNames : Names := ⟨"LocalVolumeSet", "localvolumesets"⟩

/-- The label that ties a discovery result to its node. -/
def nodeLabel : String := "discovery-result-node"

/-- The name of the discovery result of a node. -/
def discoveryResultName (node : String) : String := "discovery-result-" ++ node

/-- What the cluster keeps of a resource besides its content. -/
structure Metadata where
  name : String
  labels : List (String × String) := []
  deriving DecidableEq, Repr

/-- Labels are left out when there are none. -/
def Metadata.toJson (m : Metadata) : Json :=
  .object <| (if m.labels.isEmpty then [] else
      [("labels", .object (m.labels.map fun (k, v) => (k, .text v)))])
    ++ [("name", .text m.name)]

/-- A resource; an absent status is left out. -/
def object (names : Names) (metadata : Metadata) (spec : Json) (status : Option Json) : Json :=
  .object <| [("apiVersion", .text apiVersion), ("kind", .text names.kind),
    ("metadata", metadata.toJson), ("spec", spec)]
    ++ (match status with
      | none => []
      | some s => [("status", s)])

def discoveryResult (metadata : Metadata) (spec : DiscoverySpec) (status : Option DiscoveryStatus) :
    Json :=
  object discoveryNames metadata spec.toJson (status.map (·.toJson))

def volumeSet (metadata : Metadata) (spec : VolumeSetSpec) (status : Option VolumeSetStatus) : Json :=
  object volumeSetNames metadata spec.toJson (status.map (·.toJson))

/-- Texts, numbers and labels that the cluster adds to a resource; an object may leave out any. -/
def checkMetadata : Json → Except DecodeError Unit
  | .object entries =>
    let r : Record Json Unit := ⟨"ObjectMeta", fields, ()⟩
    r.ofEntries entries
  | j => j.mismatch "struct ObjectMeta"
where
  field {α : Type} (read : Json → Except DecodeError α) (key : String) : Field Json Unit :=
    optional key (Json.toOption read) fun _ x => x
  fields : List (Field Json Unit) :=
    ["name", "namespace", "generateName", "resourceVersion", "selfLink", "uid"].map (field Json.toText)
      ++ ["annotations", "labels"].map (field Json.toTextMap)
      ++ ["finalizers"].map (field (Json.toList Json.toText))

/-- The spec and the status of a discovery result. -/
def discoveryResultRecord : Record Json (DiscoverySpec × Option DiscoveryStatus) :=
  { name := discoveryNames.kind
    fields := [
      required "metadata" checkMetadata fun _ x => x,
      required "spec" DiscoverySpec.ofJson fun s x => (s, x.2),
      optional "status" (Json.toOption DiscoveryStatus.ofJson) fun s x => (x.1, s)]
    draft := (⟨""⟩, none) }

end NodeDisks.Resource
