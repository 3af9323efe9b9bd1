import NodeDisks.Glob.Pattern
import NodeDisks.Host.Basic

/-!
A node held in memory: files and links in two tables, paths that cannot be evaluated, patterns that
cannot be listed, and scripts for the answers to opens and commands.

A chain of links is followed for at most 39 hops. Listing a pattern compares it with the spelling of
every path in the two tables.
-/

namespace NodeDisks

structure MemoryFiles where
  files : PathTable String
  links : PathTable Path
  /-- Patterns whose listing fails. -/
  brokenGlobs : List String
  /-- Paths whose evaluation is not permitted. -/
  sealedPaths : List Path
  deriving Inhabited

namespace MemoryFiles

def empty : MemoryFiles := ⟨.empty, .empty, [], []⟩

/-- The paths looked at before giving up, so one more than the links followed. -/
def maxStops : Nat := 40

def isSealed (m : MemoryFiles) (p : Path) : Bool := m.sealedPaths.any (·.same p)

def sealedError (p : Path) : IoError := ⟨.permissionDenied, "permission denied: " ++ p.text⟩

def loopError : IoError := ⟨.other, "too many levels of symbolic links"⟩

def missingError (p : Path) : IoError := ⟨.notFound, "no such file: " ++ p.text⟩

/-- Follows links, looking at no more than `stops` paths. -/
def follow (m : MemoryFiles) : (stops : Nat) → Path → Except IoError Path
  | 0, _ => .error loopError
  | stops + 1, p =>
    if m.isSealed p then .error (sealedError p)
    else match m.links.get? p with
      | some target => follow m stops target
      | none => .ok p

/-- Where the links that start at `p` lead. -/
def resolve (m : MemoryFiles) (p : Path) : Except IoError Path := m.follow maxStops p

/-- There is a file or a link at `p`. -/
def holds (m : MemoryFiles) (p : Path) : Bool := m.files.contains p || m.links.contains p

def evalLinks (m : MemoryFiles) (p : Path) : Except IoError Path :=
  if m.holds p then m.resolve p else .error (missingError p)

def read (m : MemoryFiles) (p : Path) : Except IoError String :=
  match m.resolve p with
  | .error e => .error e
  | .ok q =>
    match m.files.get? q with
    | some content => .ok content
    | none => .error (missingError p)

def sameFile (m : MemoryFiles) (a b : Path) : Except IoError Bool :=
  match m.resolve a with
  | .error e => .error e
  | .ok p =>
    match m.resolve b with
    | .error e => .error e
    | .ok q => .ok (p.same q)

/-- The stored paths that fit a pattern, in component order and each once. -/
def glob (m : MemoryFiles) (pattern : String) : Except Error (List Path) :=
  if m.brokenGlobs.contains pattern then .error (.glob pattern "injected glob failure")
  else match Glob.Pattern.compile pattern with
    | .error e => .error (.glob pattern e.message)
    | .ok p =>
      let fitting := (m.files.paths ++ m.links.paths).filter fun q => p.accepts q.text
      .ok (Path.keepLast (Path.sort fitting))

theorem glob_fault (m : MemoryFiles) {pattern : String} {e : Error}
    (h : m.glob pattern = .error e) : ∃ reason, e = .glob pattern reason := by
  unfold glob at h
  split at h
  · cases h; exact ⟨_, rfl⟩
  · split at h <;> cases h
    exact ⟨_, rfl⟩

def view (m : MemoryFiles) : FileView :=
  { glob := m.glob, evalLinks := m.evalLinks, read := m.read, sameFile := m.sameFile
    glob_fault := m.glob_fault }

def addFile (m : MemoryFiles) (p : Path) (content : String) : MemoryFiles :=
  { m with files := m.files.insert p content }

def addLink (m : MemoryFiles) (p target : Path) : MemoryFiles :=
  { m with links := m.links.insert p target }

def remove (m : MemoryFiles) (p : Path) : MemoryFiles :=
  { m with files := m.files.erase p, links := m.links.erase p }

end MemoryFiles

/-- What an exclusive open of a device meets. -/
inductive DeviceState where
  | free
  | busy
  | failing (kind : IoKind)
  deriving DecidableEq, Repr

/-- The states of devices; a device without an entry is free. -/
abbrev OpenTable := PathTable DeviceState

def OpenTable.answer (t : OpenTable) (p : Path) : OpenAnswer :=
  match t.get? p with
  | none | some .free => .acquired
  | some .busy => .busy
  | some (.failing kind) => .failed ⟨kind, "open " ++ p.text ++ " failed"⟩

/-- Answers to commands by program: the queued ones first, each once, and then the standing one. -/
structure CommandScript where
  standing : List (String × CommandOutput)
  queued : List (String × CommandOutput)
  deriving Inhabited

namespace CommandScript

def answer (s : CommandScript) (c : Command) : Except IoError CommandOutput :=
  match s.queued.lookup c.program with
  | some o => .ok o
  | none =>
    match s.standing.lookup c.program with
    | some o => .ok o
    | none => .error ⟨.notFound, c.program ++ ": command not found"⟩

/-- Takes the first queued answer of a program away. -/
def dequeue (program : String) : List (String × CommandOutput) → List (String × CommandOutput)
  | [] => []
  | (p, o) :: rest => if p = program then rest else (p, o) :: dequeue program rest

/-- The script after a command was answered. -/
def after (s : CommandScript) (c : Command) : CommandScript :=
  { s with queued := dequeue c.program s.queued }

/-- Gives a program another standing answer. -/
def respond (s : CommandScript) (program : String) (o : CommandOutput) : CommandScript :=
  { s with standing := (program, o) :: s.standing.filter fun e => e.1 != program }

end CommandScript

/-- A node in memory. -/
structure MemoryNode where
  files : MemoryFiles
  devices : OpenTable
  script : CommandScript
  /-- Why publications are refused, if they are. -/
  refusal : Option Error
  now : Instant

namespace MemoryNode

/-- What there is on the node. -/
def scene (n : MemoryNode) : Scene := ⟨n.files.view, n.devices.answer⟩

/-- What a pass sees that runs each program at most once, while the node stays as it is. -/
def host (n : MemoryNode) : Host :=
  { n.scene with
    run := n.script.answer
    publish := fun _ => match n.refusal with
      | some e => .error e
      | none => .ok ()
    now := n.now
    later := n.scene }

/-- The node after a pass: the answers that were given from the queue are used up. -/
def after (n : MemoryNode) (done : Effects) : MemoryNode :=
  { n with script := done.commands.foldl CommandScript.after n.script }

end MemoryNode

end NodeDisks
