import NodeDisks.Glob.Pattern
import NodeDisks.Host.Basic

/-!
A file system of directories, files and symbolic links, in which a file may have several names. Paths
are walked name by name, every link on the way is followed, and at most 40 of them in one walk.

A pattern is listed component by component: only the directories that fit its beginning are looked
into.
-/

namespace NodeDisks

inductive FileNode where
  /-- The number of the node under each name. -/
  | directory (entries : List (String × Nat))
  | file (content : String)
  | link (target : Path)

/-- Nodes by their number; the root directory has number 0. -/
structure FileTree where
  nodes : List (Nat × FileNode)
  next : Nat
  /-- Where relative paths start. -/
  workDir : Path

namespace FileTree

def empty : FileTree := ⟨[(0, .directory [])], 1, ⟨"/"⟩⟩

/-! ### Errors -/

def missing : IoError := ⟨.notFound, "No such file or directory (os error 2)"⟩
def notPermitted : IoError := ⟨.permissionDenied, "Operation not permitted (os error 1)"⟩
def taken : IoError := ⟨.other, "File exists (os error 17)"⟩
def notDirectory : IoError := ⟨.other, "Not a directory (os error 20)"⟩
def isDirectory : IoError := ⟨.other, "Is a directory (os error 21)"⟩
def tooManyLinks : IoError := ⟨.other, "Too many levels of symbolic links (os error 40)"⟩

/-! ### Walking -/

def node? (t : FileTree) (n : Nat) : Option FileNode := t.nodes.lookup n

/-- The names from a node up to the root, with the number of each. -/
abbrev Route := List (String × Nat)

def Route.number : Route → Nat
  | [] => 0
  | (_, n) :: _ => n

def Route.path (r : Route) : Path :=
  ⟨"/" ++ "/".intercalate (r.reverse.map (·.1))⟩

/-- The entries of a directory. -/
def entriesOf? (t : FileTree) (n : Nat) : Option (List (String × Nat)) :=
  match t.node? n with
  | some (.directory entries) => some entries
  | _ => none

/-- The links followed in one walk. -/
def maxLinks : Nat := 40

/-- Where a path takes one without following a link. -/
inductive Stop where
  /-- To a node; or to the directory that has no entry for the last name. -/
  | place (r : Route) (absent : Option String)
  /-- To a link in a directory, with what comes behind it. -/
  | link (dir : Route) (target : Path) (behind : List Component)

/-- Goes on from `r` as far as no link has to be followed. A link at the end is a node of its own
unless `followLast` holds. -/
def stride (t : FileTree) (followLast : Bool) (r : Route) : List Component → Except IoError Stop
  | [] => .ok (.place r none)
  | .root :: cs => stride t followLast [] cs
  | .current :: cs => stride t followLast r cs
  | .parent :: cs =>
    if (t.entriesOf? r.number).isSome then stride t followLast (r.drop 1) cs
    else .error notDirectory
  | .named s :: cs =>
    match t.entriesOf? r.number with
    | none => .error notDirectory
    | some entries =>
      match entries.lookup s with
      | none => if cs.isEmpty then .ok (.place r (some s)) else .error missing
      | some n =>
        match t.node? n with
        | some (.link target) =>
          if cs.isEmpty && !followLast then .ok (.place ((s, n) :: r) none)
          else .ok (.link r target cs)
        | _ => stride t followLast ((s, n) :: r) cs

/-- The node that a walk ends at; or the directory it ends in, with the last name when there is no
such entry. It follows no more than `links` links. -/
def walk (t : FileTree) (followLast : Bool) (links : Nat) (r : Route) (cs : List Component) :
    Except IoError (Route × Option String) :=
  match t.stride followLast r cs with
  | .error e => .error e
  | .ok (.place r absent) => .ok (r, absent)
  | .ok (.link dir target behind) =>
    match links with
    | 0 => .error tooManyLinks
    | links + 1 => walk t followLast links dir (target.components ++ behind)

/-- The place of a path. -/
def place (t : FileTree) (followLast : Bool) (p : Path) : Except IoError (Route × Option String) :=
  if p.text.isEmpty then .error missing
  else
    let start := if Path.isAbsolute p.text then [] else t.workDir.components
    walk t (followLast || p.asksForDirectory) maxLinks [] (start ++ p.components)

/-- The node of a path. -/
def locate (t : FileTree) (followLast : Bool) (p : Path) : Except IoError Route :=
  match t.place followLast p with
  | .error e => .error e
  | .ok (_, some _) => .error missing
  | .ok (r, none) =>
    if p.asksForDirectory && (t.entriesOf? (Route.number r)).isNone then .error notDirectory
    else .ok r

/-! ### Reading -/

def evalLinks (t : FileTree) (p : Path) : Except IoError Path := (t.locate true p).map Route.path

def read (t : FileTree) (p : Path) : Except IoError String :=
  match t.locate true p with
  | .error e => .error e
  | .ok r =>
    match t.node? r.number with
    | some (.file content) => .ok content
    | _ => .error isDirectory

def sameFile (t : FileTree) (a b : Path) : Except IoError Bool :=
  match t.locate true a with
  | .error e => .error e
  | .ok r =>
    match t.locate true b with
    | .error e => .error e
    | .ok s => .ok (r.number == s.number)

/-- The names in a directory; no path at all stands for the directory where relative paths start. -/
def names? (t : FileTree) (p : Path) : Option (List String) :=
  match t.locate true (if p.text.isEmpty then t.workDir else p) with
  | .error _ => none
  | .ok r => (t.entriesOf? r.number).map (·.map (·.1))

def holdsDirectory (t : FileTree) (p : Path) : Bool := (t.names? p).isSome

/-- There is a node of any kind at `p`. -/
def holds (t : FileTree) (p : Path) : Bool :=
  match t.locate false p with
  | .ok _ => true
  | .error _ => false

/-- Nobody holds the devices of a tree, so every file that is there can be opened. -/
def openAnswer (t : FileTree) (p : Path) : OpenAnswer :=
  match t.locate true p with
  | .ok _ => .acquired
  | .error e => .failed e

/-- The files directly in a directory, with their contents. -/
def filesIn (t : FileTree) (dir : Path) : List (String × String) :=
  ((t.names? dir).getD []).filterMap fun name =>
    match t.read (dir.join name) with
    | .ok content => some (name, content)
    | .error _ => none

/-! ### Listing patterns -/

/-- The part of a pattern for one component. -/
inductive Piece where
  | literal (name : String)
  | pattern (p : Glob.Pattern)
  /-- Any number of directories. -/
  | anyDepth

namespace Piece

/-- The text that a pattern without wildcards stands for. -/
def literalText? : List Glob.Token → Option (List Char)
  | [] => some []
  | .literal c :: ts => (literalText? ts).map (c :: ·)
  | _ :: _ => none

def ofPattern (p : Glob.Pattern) : Piece :=
  match literalText? p.tokens with
  | some cs => .literal (String.ofList cs)
  | none => if p.tokens = [.components] then .anyDepth else .pattern p

def accepts : Piece → String → Bool
  | literal s, name => name == s
  | pattern p, name => p.accepts name
  | anyDepth, _ => false

/-- The names of a directory for itself and its parent fit only a piece that starts with a point. -/
def specialNames : Piece → List String
  | pattern p => if p.tokens.head? = some (.literal '.') then [".", ".."].filter p.accepts else []
  | _ => []

end Piece

/-- The paths below `dir` that fit the pieces, at most `depth` levels down. -/
def expand (t : FileTree) : (depth : Nat) → List Piece → (dir : Path) → List Path
  | 0, _, _ => []
  | _ + 1, [], _ => []
  | depth + 1, .literal name :: rest, dir =>
    let p := dir.join name
    let there := if name = "." || name = ".." then t.holdsDirectory dir else t.holds p
    if !there then [] else if rest.isEmpty then [p] else expand t depth rest p
  | depth + 1, .anyDepth :: rest, dir =>
    ((t.names? dir).getD []).flatMap fun name =>
      let p := dir.join name
      let below := if t.holdsDirectory p then expand t depth (.anyDepth :: rest) p else []
      let rest := rest.dropWhile fun
        | .anyDepth => true
        | _ => false
      let here := match rest with
        | [] => if t.holdsDirectory p then [p] else []
        | q :: more =>
          if !q.accepts name then [] else if more.isEmpty then [p] else expand t depth more p
      below ++ here
  | depth + 1, piece :: rest, dir =>
    ((t.names? dir).map (· ++ piece.specialNames)).getD [] |>.flatMap fun name =>
      let p := dir.join name
      if !piece.accepts name then [] else if rest.isEmpty then [p] else expand t depth rest p

/-- The components of a pattern after its leading slash; a final slash does not count. -/
def componentsOf (pattern : String) : List String :=
  let cs := if Path.isAbsolute pattern then pattern.toList.drop 1 else pattern.toList
  let pieces := cs.splitOn '/'
  let pieces := if 1 < pieces.length && pieces.getLast? = some [] then pieces.dropLast else pieces
  pieces.map String.ofList

/-- More levels than a walk of this tree has. -/
def maxDepth (t : FileTree) : Nat := (maxLinks + 1) * (t.nodes.length + 1)

def glob (t : FileTree) (pattern : String) : Except Error (List Path) :=
  match Glob.Pattern.compile pattern, (componentsOf pattern).mapM Glob.Pattern.compile with
  | .error e, _ | _, .error e => .error (.glob pattern e.message)
  | .ok _, .ok ps =>
    let pieces := ps.map Piece.ofPattern
    let start : Path := if Path.isAbsolute pattern then ⟨"/"⟩ else ⟨""⟩
    let found := t.expand (t.maxDepth + pieces.length) pieces start
    let wanted (p : Path) : Bool := pattern.toList.getLast? != some '/' || t.holdsDirectory p
    .ok (Path.sort (found.filter wanted))

theorem glob_fault (t : FileTree) {pattern : String} {e : Error}
    (h : t.glob pattern = .error e) : ∃ reason, e = .glob pattern reason := by
  unfold glob at h
  split at h <;> cases h <;> exact ⟨_, rfl⟩

def view (t : FileTree) : FileView :=
  { glob := t.glob, evalLinks := t.evalLinks, read := t.read, sameFile := t.sameFile
    glob_fault := t.glob_fault }

def scene (t : FileTree) : Scene := ⟨t.view, t.openAnswer⟩

/-- A node with these files, which stay as they are. -/
def host (t : FileTree) (run : Command → Except IoError CommandOutput)
    (publish : DiscoveryStatus → Except Error Unit) (now : Instant) : Host :=
  { t.scene with run, publish, now, later := t.scene }

/-! ### Writing -/

/-- Exchanges a node. -/
def setNode (t : FileTree) (n : Nat) (x : FileNode) : FileTree :=
  { t with nodes := (n, x) :: t.nodes.filter fun e => e.1 != n }

/-- Enters a node into a directory under a name, in place of what has that name. -/
def enter (t : FileTree) (dir : Route) (name : String) (n : Nat) : FileTree :=
  let entries := (t.entriesOf? dir.number).getD []
  t.setNode dir.number (.directory (entries.filter (·.1 != name) ++ [(name, n)]))

/-- Takes a name out of a directory. -/
def leave (t : FileTree) (dir : Route) (name : String) : FileTree :=
  let entries := (t.entriesOf? dir.number).getD []
  t.setNode dir.number (.directory (entries.filter (·.1 != name)))

/-- Makes a node and enters it. -/
def create (t : FileTree) (dir : Route) (name : String) (x : FileNode) : FileTree :=
  let n := t.next
  { t.setNode n x with next := n + 1 }.enter dir name n

/-- Makes the directories of a path that are missing. -/
def makeDirs (t : FileTree) (at_ : Path) : List Component → Except IoError FileTree
  | [] => .ok t
  | c :: cs =>
    let p := at_.join (match c with
      | .root => "/"
      | .current => "."
      | .parent => ".."
      | .named s => s)
    match t.place true p with
    | .error e => .error e
    | .ok (r, some name) => makeDirs (t.create r name (.directory [])) p cs
    | .ok (r, none) =>
      if (t.entriesOf? r.number).isSome then makeDirs t p cs
      else .error (if cs.isEmpty then taken else notDirectory)

def makeDir (t : FileTree) (p : Path) : Except IoError FileTree := t.makeDirs ⟨""⟩ p.components

/-- Writes a whole file. -/
def write (t : FileTree) (p : Path) (content : String) : Except IoError FileTree :=
  match t.place true p with
  | .error e => .error e
  | .ok (r, some name) =>
    if p.asksForDirectory then .error isDirectory else .ok (t.create r name (.file content))
  | .ok (r, none) =>
    match t.node? r.number with
    | some (.file _) =>
      if p.asksForDirectory then .error notDirectory else .ok (t.setNode r.number (.file content))
    | _ => .error isDirectory

def link (t : FileTree) (p target : Path) : Except IoError FileTree :=
  if target.text.isEmpty then .error missing
  else
    match t.place false p with
    | .error e => .error e
    | .ok (_, none) => .error taken
    | .ok (r, some name) => .ok (t.create r name (.link target))

/-- Gives a file a second name. -/
def addName (t : FileTree) (p target : Path) : Except IoError FileTree :=
  match t.locate false target with
  | .error e => .error e
  | .ok old =>
    match t.place false p with
    | .error e => .error e
    | .ok (_, none) => .error taken
    | .ok (r, some name) =>
      if (t.entriesOf? old.number).isSome then .error notPermitted
      else .ok (t.enter r name old.number)

/-- Takes away the name of a file. -/
def remove (t : FileTree) (p : Path) : Except IoError FileTree :=
  match t.locate false p with
  | .error e => .error e
  | .ok [] => .error isDirectory
  | .ok ((name, n) :: dir) =>
    if (t.entriesOf? n).isSome then .error isDirectory else .ok (t.leave dir name)

/-- Gives a file another name, in place of the file that has it. -/
def rename (t : FileTree) (old new : Path) : Except IoError FileTree :=
  match t.locate false old with
  | .error e => .error e
  | .ok [] => .error isDirectory
  | .ok ((oldName, n) :: oldDir) =>
    match t.place false new with
    | .error e => .error e
    | .ok (dir, some name) =>
      if new.asksForDirectory then .error notDirectory
      else .ok ((t.leave oldDir oldName).enter dir name n)
    | .ok ([], none) => .error isDirectory
    | .ok ((name, m) :: dir, none) =>
      if (t.entriesOf? m).isSome then .error isDirectory
      else if new.asksForDirectory then .error notDirectory
      else if m = n then .ok t
      else .ok ((t.leave oldDir oldName).enter dir name n)

end FileTree

end NodeDisks
