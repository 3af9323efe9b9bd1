import NodeDisks.Device
import NodeDisks.Host.Basic
import NodeDisks.Resource

/-!
## Tests on a device and its node

Admission: named tests on one device, run in order up to the first that refuses it or cannot be
carried out. Either way the device is excluded, with the name of that test.

`standardFilters` are the tests on the device and its node. The test that opens the device comes last,
so a device that an earlier test refuses is never opened.
-/

namespace NodeDisks

structure Filter where
  name : String
  check : Device → Traced (Except Error Bool)

/-- The outcome of a sequence of tests. -/
inductive Verdict where
  | pass
  | rejected (filter : String)
  /-- The test could not be carried out. -/
  | failed (filter reason : String)
  deriving DecidableEq, Repr

namespace Verdict

def isPass (v : Verdict) : Bool := v == .pass

/-- The test that excluded the device. -/
def filter? : Verdict → Option String
  | pass => none
  | rejected filter | failed filter _ => some filter

end Verdict

namespace Filter

/-- A test that looks at nothing but the device. -/
def ofDevice (name : String) (test : Device → Except Error Bool) : Filter :=
  ⟨name, fun d => return test d⟩

/-- A test that can always be carried out. -/
def ofBool (name : String) (test : Device → Bool) : Filter := ofDevice name fun d => .ok (test d)

/-- Runs the tests up to the first that excludes the device. -/
def judge : List Filter → Device → Traced Verdict
  | [], _ => return .pass
  | f :: fs, d => do
    match ← f.check d with
    | .ok true => judge fs d
    | .ok false => return .rejected f.name
    | .error e => return .failed f.name e.message

/-- Devices sorted by verdict. -/
structure Partition where
  passed : List Device
  excluded : List (Device × Verdict)

/-- Sorts devices by their verdicts, each list in the order of the devices. -/
def partition (fs : List Filter) : List Device → Traced Partition
  | [] => return ⟨[], []⟩
  | d :: ds => do
    let verdict ← judge fs d
    let rest ← partition fs ds
    if verdict.isPass then return { rest with passed := d :: rest.passed }
    else return { rest with excluded := (d, verdict) :: rest.excluded }

/-! ### The tests on a device and its node -/

/-- The mount table of the first process. -/
def mountTablePath : Path := ⟨"/proc/1/mountinfo"⟩

/-- No mount uses the device. -/
def noBindMounts (h : Host) (mountTable : Path) : Filter :=
  ofDevice "noBindMounts" fun d =>
    match h.files.read mountTable with
    | .error e => .error (.filterEvaluation "noBindMounts" d.name
        ("failed to read " ++ mountTable.text ++ ": " ++ e.text))
    | .ok table => .ok (MountReference.find? table d.kname).isNone

/-- An exclusive open succeeds; the device is closed again. -/
def canOpenExclusively (h : Host) : Filter :=
  { name := "canOpenExclusively"
    check := fun d =>
      match d.node? with
      | .error e => return .error e
      | .ok node => do
        match ← h.openDevice ⟨node⟩ with
        | .acquired =>
          Host.closeDevice ⟨node⟩
          return .ok true
        | .busy => return .ok false
        | .failed e => return .error (.filterEvaluation "canOpenExclusively" node e.text) }

def standardFilters (h : Host) (mountTable : Path) : List Filter := [
  ofBool "notReadOnly" fun d => !d.readOnly,
  ofBool "notRemovable" fun d => !d.removable,
  ofBool "notSuspended" fun d => !d.isSuspended,
  ofBool "noBiosBootInPartLabel" fun d => !d.hasBootLabel,
  ofBool "noFilesystemSignature" fun d => !d.hasFilesystem,
  ofBool "noChildren" fun d => d.children.isEmpty,
  noBindMounts h mountTable,
  canOpenExclusively h]

end Filter

end NodeDisks

/-!
## Rules

The rules of a volume set as tests on a device: its type, size, mechanical property, vendor and model.
-/

namespace NodeDisks.InclusionSpec

/-- Some entry, without blanks around it, occurs in the text; an empty list allows every text. -/
def allowsText (allowed : List String) (s : String) : Bool :=
  allowed.isEmpty || allowed.any fun entry => Text.contains (Text.trim s) (Text.trim entry)

def allowsType (s : InclusionSpec) (d : Device) : Bool :=
  match d.type? with
  | some t => s.effectiveTypes.contains t
  | none => false

/-- The size lies within the bounds. Bounds that leave nothing between them are a fault. -/
def allowsSize (s : InclusionSpec) (d : Device) : Except Error Bool :=
  match s.maxSize with
  | none => .ok (s.effectiveMinSize ≤ d.size)
  | some maxSize =>
    if maxSize < s.effectiveMinSize then
      .error (.filterEvaluation "inSizeRange" d.name
        ("maxSize " ++ Text.decimal maxSize.toNat ++ " is smaller than minSize "
          ++ Text.decimal s.effectiveMinSize.toNat))
    else .ok (s.effectiveMinSize ≤ d.size && d.size ≤ maxSize)

def allowsProperty (s : InclusionSpec) (d : Device) : Bool :=
  s.properties.isEmpty || s.properties.contains d.mechanicalProperty

/-- The rules in the order in which they are tried. -/
def filters (s : InclusionSpec) : List Filter := [
  .ofBool "inTypeList" s.allowsType,
  .ofDevice "inSizeRange" s.allowsSize,
  .ofBool "inDeviceMechanicalProperty" s.allowsProperty,
  .ofBool "inVendorList" fun d => allowsText s.vendors d.vendor,
  .ofBool "inModelList" fun d => allowsText s.models d.model]

end NodeDisks.InclusionSpec
