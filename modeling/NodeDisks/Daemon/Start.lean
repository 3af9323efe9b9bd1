import NodeDisks.VolumeSet
import NodeDisks.Yaml.Value

/-!
## Configuration

What the daemon is told to do.
-/

namespace NodeDisks

def programName : String := "diskmaker"
def programVersion : String := "0.2.0"

namespace Daemon

/-- What the daemon reconciles: the discovery result of its node, or its share in a volume set. -/
inductive Mode where
  | discover
  | volumeSet
  deriving DecidableEq, Repr

def Mode.name : Mode → String
  | discover => "discover"
  | volumeSet => "volume-set"

def Mode.all : List Mode := [.discover, .volumeSet]

structure Config where
  nodeName : String := ""
  mode : Mode := .discover
  /-- The wait between two passes of discovery. -/
  discoveryInterval : Duration := Duration.ofSeconds 60
  volumeSet : VolumeSet.Config := {}
  /-- Where the spec of the volume set is. -/
  volumeSetFile : Option Path := none
  /-- Where the cluster keeps discovery results. -/
  resultNamespace : String := "default"
  /-- Works without a cluster. -/
  standalone : Bool := false
  /-- Where discovery results are written without a cluster. -/
  outputFile : Option Path := none
  healthAddress : String := "0.0.0.0:8081"

end Daemon

end NodeDisks

/-!
## Jobs

From the configuration to a job that the loop repeats, and what can go wrong on the way.
-/

namespace NodeDisks.Daemon

/-- Where discovery results go. -/
inductive Publisher where
  | cluster
  | file (p : Path)
  | log
  deriving DecidableEq, Repr

def Publisher.name : Publisher → String
  | cluster => "kubernetes"
  | file _ => "file"
  | log => "logging"

/-- What the loop repeats. -/
inductive Job where
  | discover (c : Discovery.Config) (interval : Duration) (publisher : Publisher)
  | volumeSet (c : VolumeSet.Config) (spec : VolumeSetSpec) (labels : NodeLabels)

/-- Why the daemon ends by itself. -/
inductive Failure where
  | emptyNodeName
  /-- There is no way to reach a cluster. -/
  | noCluster
  | noVolumeSetFile
  | unreadableFile (p : Path) (e : IoError)
  /-- The spec or the labels of the node are faulty. -/
  | badSetup (e : Error)
  /-- A pass failed for good. -/
  | loopFailed (e : Error)

namespace Failure

def message : Failure → String
  | emptyNodeName => "node name must not be empty"
  | noCluster => "failed to create Kubernetes client"
  | noVolumeSetFile => "--volume-set-file is required in volume-set mode"
  | unreadableFile p _ => "failed to read " ++ p.text
  | badSetup e => e.message
  | loopFailed _ => "reconcile loop failed"

/-- What lies behind it. -/
def cause? : Failure → Option String
  | unreadableFile _ e => some e.text
  | loopFailed e => some e.message
  | _ => none

/-- The last words of the daemon. -/
def report (f : Failure) : String :=
  "Error: " ++ f.message ++ (match f.cause? with
    | some cause => "\n\nCaused by:\n    " ++ cause
    | none => "")

end Failure

/-- The job of a volume set: its file has to be there, and then spec and labels have to be right. -/
def volumeSetJob (c : Config) (labels : String) (read : Path → Except IoError String) :
    Except Failure Job :=
  match c.volumeSetFile with
  | none => .error .noVolumeSetFile
  | some p =>
    match read p with
    | .error e => .error (.unreadableFile p e)
    | .ok text =>
      match VolumeSetSpec.ofYaml text with
      | .error e => .error (.badSetup e)
      | .ok spec =>
        match NodeLabels.parse labels with
        | .error e => .error (.badSetup e)
        | .ok labels => .ok (.volumeSet c.volumeSet spec labels)

/-- The publisher without a cluster. -/
def localPublisher (c : Config) : Publisher :=
  match c.outputFile with
  | some p => .file p
  | none => .log

/-- The job of a daemon that works without a cluster; no other one can be set up from here. -/
def start (c : Config) (labels : String) (read : Path → Except IoError String) :
    Except Failure Job :=
  if c.nodeName.isEmpty then .error .emptyNodeName
  else if !c.standalone then .error .noCluster
  else
    match c.mode with
    | .discover =>
      .ok (.discover { nodeName := c.nodeName } c.discoveryInterval (localPublisher c))
    | .volumeSet => volumeSetJob c labels read

end NodeDisks.Daemon
