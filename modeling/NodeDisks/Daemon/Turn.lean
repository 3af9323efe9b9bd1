import NodeDisks.Daemon.Loop
import NodeDisks.Daemon.Start
import NodeDisks.Event
import NodeDisks.VolumeSet

/-!
## Tasks

The two tasks of the daemon. A task has a name and a memory, and a pass of it ends with the time to
wait for the next one, or with an error.
-/

namespace NodeDisks.Discovery

def taskName : String := "discovery"

/-- One pass of discovery as a task: the wait is always the configured interval. -/
def pass (c : Config) (interval : Duration) (s : State) (h : Host) :
    Traced (Except Error Duration × State) := do
  let (result, s) ← discover c s h
  return (result.map fun _ => interval, s)

end NodeDisks.Discovery

namespace NodeDisks.VolumeSet

def taskName : String := "volume-set"

/-- One pass over a volume set as a task: the outcome says how long to wait. -/
def pass (c : Config) (spec : VolumeSetSpec) (labels : NodeLabels) (s : State) (h : Host) :
    Traced (Except Error Duration × State) := do
  let (result, s) ← reconcile c spec labels s h
  return (result.map (·.requeueAfter), s)

end NodeDisks.VolumeSet

/-!
## Turns

One turn of the daemon: a pass of its job, what the loop plans after it, and what is said about both in
the log.
-/

namespace NodeDisks.Daemon

/-! ### Log lines -/

/-- A published result. -/
def publishedLine (publisher : Publisher) (s : DiscoveryStatus) : LogLine :=
  { level := .info
    message := "Published discovery result"
    fields := [("devices", count s.devices), ("publisher", .text publisher.name)] }

/-- A device that can be claimed. -/
def claimableLine (c : VolumeSet.Candidate) : LogLine :=
  { level := .info
    message := "Device can be claimed"
    fields := [("device", .text c.device.name), ("device_id", .text c.deviceId)] }

/-- The outcome of a pass over a volume set that applies to the node. -/
def outcomeLine (o : VolumeSet.Outcome) : LogLine :=
  { level := .info
    message := "Reconciled volume set"
    fields := [("valid", count o.valid), ("delayed", count o.delayed),
      ("excluded", count o.excluded), ("claimable", count o.claimable),
      ("requeue_secs", .natural (UInt64.ofNat o.requeueAfter.seconds))] }

def outcomeLines (o : VolumeSet.Outcome) : List LogLine :=
  (if o.skipped then [] else [outcomeLine o])
    ++ (o.claims.filter fun c => c.decision == .claimable).map claimableLine

/-- What is said about a failed pass; `retryDelay` is the delay of the backoff. -/
def failureLine (task : String) (retryDelay : Duration) (e : Error) : LogLine :=
  let fields := [("task", Json.text task), ("error", .text e.message)]
  match e.action with
  | .noRequeue => ⟨.error, "Reconcile failed permanently", fields⟩
  | .requeueAfter time =>
    ⟨.warn, "Reconcile failed", fields ++ [("retry_secs", .natural (UInt64.ofNat time.seconds))]⟩
  | .requeueWithBackoff =>
    ⟨.warn, "Reconcile failed, backing off",
      fields ++ [("retry_ms", .natural (UInt64.ofNat (retryDelay / 1000000)))]⟩

/-! ### Turns -/

namespace Job

/-- What a job remembers between passes. -/
structure Memory where
  discovery : Discovery.State := .initial
  volumeSet : VolumeSet.State := .initial

def taskName : Job → String
  | discover .. => Discovery.taskName
  | volumeSet .. => VolumeSet.taskName

/-- One pass of a job with what it says about its outcome. -/
def pass (j : Job) (m : Memory) (h : Host) :
    Traced (Except Error Duration × List LogLine × Memory) := do
  match j with
  | .discover c interval publisher =>
    let (result, s) ← Discovery.discover c m.discovery h
    let lines := match result with
      | .ok status => [publishedLine publisher status]
      | .error _ => []
    return (result.map fun _ => interval, lines, { m with discovery := s })
  | .volumeSet c spec labels =>
    let (result, s) ← VolumeSet.reconcile c spec labels m.volumeSet h
    let lines := match result with
      | .ok outcome => outcomeLines outcome
      | .error _ => []
    return (result.map (·.requeueAfter), lines, { m with volumeSet := s })

/-- The object that the events of a job concern. -/
def eventObject (j : Job) (c : Config) : String :=
  match j with
  | .discover .. => "Node/" ++ c.nodeName
  | .volumeSet .. => "LocalVolumeSet/" ++ (c.volumeSetFile.map Path.text).getD ""

/-- The lines for what a pass did: its events, and its results when they go to the log. -/
def effectLines (j : Job) (object : String) (e : Effects) : List LogLine :=
  let results := match j with
    | .discover _ _ .log => e.publications.flatMap DiscoveryStatus.logLines
    | _ => []
  e.events.map (Event.logLine (some object)) ++ results

end Job

/-- A turn of the daemon. -/
structure Turn where
  plan : ReconcileLoop.Plan
  /-- What is said in the log. -/
  lines : List LogLine
  memory : Job.Memory
  effects : Effects

/-- A pass of a job under a configuration, when the next failure has to wait for `retryDelay`. -/
def Job.turn (j : Job) (c : Config) (retryDelay : Duration) (m : Job.Memory) (h : Host) : Turn :=
  let t := j.pass m h
  let (result, lines, memory) := t.value
  let failure := match result with
    | .ok _ => []
    | .error e => [failureLine j.taskName retryDelay e]
  { plan := ReconcileLoop.plan .standard retryDelay result
    lines := j.effectLines (j.eventObject c) t.effects ++ lines ++ failure
    memory
    effects := t.effects }

end NodeDisks.Daemon
