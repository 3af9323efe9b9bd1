import NodeDisks.Admission
import NodeDisks.Claim
import NodeDisks.Discovery
import NodeDisks.NodeLabels

/-!
The share of a node in a volume set. A pass sorts the surveyed devices: a device that a filter refuses
is excluded, one that was first seen too recently is delayed, one that the rules of the set refuse is
excluded, and the rest is valid. With a claim directory, each valid device gets its identity and the
decision whether it can be claimed, and links to no valid device are reported as orphans.

Only a faulty selector or a failed survey fails the pass as a whole; it then leaves the state as it
was.
-/

namespace NodeDisks.VolumeSet

structure Config where
  minAge : Duration := defaultMinAge
  /-- The wait after a pass in which no device is delayed. -/
  requeueAfter : Duration := Duration.ofSeconds 60
  /-- Where the links to claimed devices are; without it nothing is claimed. -/
  claimDir : Option Path := none
  links : LinkDirs := {}
  mountTable : Path := Filter.mountTablePath

/-- What a process remembers between passes. -/
structure State where
  ages : AgeRecord
  /-- Kernel names announced as delayed. -/
  announced : List String
  deriving DecidableEq, Repr

def State.initial : State := ⟨.empty, []⟩

/-- A valid device with its identity and the decision about it. -/
structure Candidate where
  device : Device
  deviceId : String
  decision : Claim.Decision

structure Outcome where
  /-- The set does not apply to this node. -/
  skipped : Bool
  valid : List Device
  delayed : List Device
  excluded : List (Device × Verdict)
  claims : List Candidate
  orphaned : List Path
  requeueAfter : Duration

namespace Outcome

/-- The identities of the devices that can be claimed now. -/
def claimable (o : Outcome) : List String :=
  (o.claims.filter fun c => c.decision == .claimable).map (·.deviceId)

end Outcome

/-- The candidate for a valid device, unless it has no kernel name or cannot be decided. -/
def candidate? (c : Config) (x : Scene) (dir : Path) (d : Device) : Traced (Option Candidate) :=
  match d.node? with
  | .error _ => return none
  | .ok node => do
    let (resolved, device) := Identity.resolve x.files c.links none d
    match ← Claim.evaluate x [dir] node with
    | .error _ => return none
    | .ok decision => return some ⟨device, Discovery.identity node resolved, decision⟩

def candidates (c : Config) (x : Scene) (valid : List Device) : Traced (List Candidate) :=
  match c.claimDir with
  | none => return []
  | some dir => Traced.filterMap (candidate? c x dir) valid

/-- The orphans in the claim directory; none when it cannot be told. -/
def orphans (c : Config) (files : FileView) (valid : List Device) : List Path :=
  match c.claimDir with
  | none => []
  | some dir =>
    match Claim.orphans files dir (valid.map (·.kname)) with
    | .ok links => links
    | .error _ => []

/-- Devices sorted into valid, delayed and excluded ones. -/
structure Sorting where
  valid : List Device
  delayed : List Device
  excluded : List (Device × Verdict)

/-- Runs the filters, the age gate and the rules of the set. -/
def sort (c : Config) (spec : VolumeSetSpec) (ages : AgeRecord) (h : Host) (ds : List Device) :
    Traced Sorting := do
  let filtered ← Filter.partition (Filter.standardFilters h c.mountTable) ds
  let isOld (d : Device) : Bool := ages.isOld c.minAge h.now d.kname
  let ruled ← Filter.partition spec.inclusion.filters (filtered.passed.filter isOld)
  return {
    valid := ruled.passed
    delayed := filtered.passed.filter fun d => !isOld d
    excluded := filtered.excluded ++ ruled.excluded }

/-- The wait after a pass. -/
def wait (c : Config) (delayed : List Device) : Duration :=
  if delayed.isEmpty then c.requeueAfter else youngDelay c.minAge

/-- The announcement of a delayed device. -/
def announcement (c : Config) (kname : String) : Event :=
  .discoveredNewDevice kname (UInt64.ofNat c.minAge.seconds)

/-- The part of a pass after the survey. -/
def settle (c : Config) (spec : VolumeSetSpec) (s : State) (h : Host) (ds : List Device) :
    Traced (Outcome × State) := do
  let ages := s.ages.noteAll h.now (ds.map (·.kname))
  let sorted ← sort c spec ages h ds
  let news := unheard s.announced (sorted.delayed.map (·.kname))
  Traced.report (news.map (announcement c))
  let claims ← candidates c h.later sorted.valid
  return ({
    skipped := false
    valid := sorted.valid
    delayed := sorted.delayed
    excluded := sorted.excluded
    claims
    orphaned := orphans c h.later.files sorted.valid
    requeueAfter := wait c sorted.delayed }, ⟨ages, s.announced ++ news⟩)

/-- One pass. -/
def reconcile (c : Config) (spec : VolumeSetSpec) (labels : NodeLabels) (s : State) (h : Host) :
    Traced (Except Error Outcome × State) :=
  match NodeSelector.picks labels spec.nodeSelector with
  | .error e => return (.error e, s)
  | .ok false => return (.ok ⟨true, [], [], [], [], [], c.requeueAfter⟩, s)
  | .ok true => do
    match ← Inventory.reportedSurvey h with
    | .error e => return (.error e, s)
    | .ok inv =>
      let (outcome, s) ← settle c spec s h inv.devices
      return (.ok outcome, s)

end NodeDisks.VolumeSet
