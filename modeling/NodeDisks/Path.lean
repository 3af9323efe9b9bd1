/-!
File paths. A path keeps its spelling, but two spellings with the same components are the same path:
repeated and trailing slashes and inner `.` components do not count, `..` does.
-/

namespace NodeDisks

inductive Component where
  | root
  /-- A `.` at the front of a relative path. -/
  | current
  | parent
  | named (name : String)
  deriving DecidableEq, Repr

structure Path where
  text : String
  deriving DecidableEq, Repr, Inhabited

namespace Component

/-- The component that a piece between slashes stands for, if any. -/
def ofPiece? : List Char → Option Component
  | [] => none
  | ['.'] => none
  | ['.', '.'] => some .parent
  | cs => some (.named (String.ofList cs))

def rank : Component → Nat
  | root => 0
  | current => 1
  | parent => 2
  | named _ => 3

def name : Component → String
  | named s => s
  | _ => ""

/-- Names come last, in the order of their code points. -/
def before (a b : Component) : Bool :=
  a.rank < b.rank || (a.rank == b.rank && a.name < b.name)

end Component

namespace Path

def components (p : Path) : List Component :=
  match p.text.toList.splitOn '/' with
  | [] => []
  | [] :: [] => []
  | [] :: pieces => .root :: pieces.filterMap Component.ofPiece?
  | ['.'] :: pieces => .current :: pieces.filterMap Component.ofPiece?
  | pieces => pieces.filterMap Component.ofPiece?

/-- The same path, maybe spelled differently. -/
def same (a b : Path) : Bool := a.components == b.components

/-- The order of component lists, with a path before those below it. -/
def componentsLt : List Component → List Component → Bool
  | _, [] => false
  | [], _ :: _ => true
  | a :: as, b :: bs => a.before b || (a == b && componentsLt as bs)

/-- Strictly before, component by component. -/
def lt (a b : Path) : Bool := componentsLt a.components b.components

def le (a b : Path) : Bool := !b.lt a

def isAbsolute (s : String) : Bool := s.toList.head? == some '/'

/-- Path `right` taken from `p`; an absolute one stands by itself. -/
def join (p : Path) (right : String) : Path :=
  if isAbsolute right then ⟨right⟩
  else if p.text.isEmpty || p.text.toList.getLast? == some '/' then ⟨p.text ++ right⟩
  else ⟨p.text ++ "/" ++ right⟩

/-- The last component, when it is a name. -/
def fileName? (p : Path) : Option String :=
  match p.components.getLast? with
  | some (.named s) => some s
  | _ => none

/-- The last component, or nothing. -/
def baseName (p : Path) : String := p.fileName?.getD ""

/-- Drops slashes and lone points at the end of a reversed text, where they do not count. -/
def dropTail : List Char → List Char
  | '/' :: '/' :: cs => dropTail ('/' :: cs)
  | '/' :: '.' :: '/' :: cs => dropTail ('/' :: cs)
  | '/' :: c :: cs => c :: cs
  | '.' :: '/' :: cs => dropTail ('/' :: cs)
  | cs => cs

/-- The path with what follows the last point of its file name, which may not be the first character,
exchanged for `extension`, or with that added. A path that ends in no name stays as it is. -/
def withExtension (p : Path) (extension : String) : Path :=
  match p.fileName? with
  | none => p
  | some name =>
    let whole := dropTail p.text.toList.reverse
    let tail := (name.toList.reverse.takeWhile (· != '.')).length + 1
    let kept := if tail < name.length then whole.drop tail else whole
    ⟨String.ofList kept.reverse ++ "." ++ extension⟩

/-- The spelling asks for a directory. -/
def asksForDirectory (p : Path) : Bool :=
  match p.text.toList.reverse with
  | '/' :: _ | '.' :: '/' :: _ => true
  | _ => false

/-- Path `p` is `dir` or lies below it. -/
def isUnder (p dir : Path) : Bool := dir.components.isPrefixOf p.components

/-- Drops a path when the next one is the same, so that of a run of equal ones the last stays. -/
def keepLast : List Path → List Path
  | [] => []
  | [p] => [p]
  | p :: q :: ps => if p.same q then keepLast (q :: ps) else p :: keepLast (q :: ps)

/-- Drops a path that is the same as the one kept before it. -/
def keepFirst : List Path → List Path
  | [] => []
  | p :: ps => p :: go p ps
where
  go (kept : Path) : List Path → List Path
    | [] => []
    | p :: ps => if kept.same p then go kept ps else p :: go p ps

/-- In component order; paths that are the same stay in their order. -/
def sort (ps : List Path) : List Path := ps.mergeSort le

end Path

/-- Values by path, in component order, each path once in the spelling it came with first. -/
structure PathTable (α : Type) where
  entries : List (Path × α)
  deriving Repr, Inhabited

namespace PathTable

variable {α : Type}

def empty : PathTable α := ⟨[]⟩

def get? (t : PathTable α) (p : Path) : Option α :=
  (t.entries.find? fun e => e.1.same p).map (·.2)

def contains (t : PathTable α) (p : Path) : Bool :=
  t.entries.any fun e => e.1.same p

def insertEntry (p : Path) (x : α) : List (Path × α) → List (Path × α)
  | [] => [(p, x)]
  | (q, y) :: es =>
    if q.same p then (q, x) :: es
    else if p.lt q then (p, x) :: (q, y) :: es
    else (q, y) :: insertEntry p x es

def insert (t : PathTable α) (p : Path) (x : α) : PathTable α :=
  ⟨insertEntry p x t.entries⟩

def erase (t : PathTable α) (p : Path) : PathTable α :=
  ⟨t.entries.filter fun e => !e.1.same p⟩

def paths (t : PathTable α) : List Path := t.entries.map (·.1)

def ofList (es : List (Path × α)) : PathTable α :=
  es.foldl (fun t e => t.insert e.1 e.2) empty

end PathTable

end NodeDisks
