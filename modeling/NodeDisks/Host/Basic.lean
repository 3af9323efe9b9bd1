import NodeDisks.Error
import NodeDisks.Event
import NodeDisks.Path
import NodeDisks.Resource
import NodeDisks.Text

/-!
## Points in time

Dates in the proleptic Gregorian calendar, and points in time in the form of RFC 3339: whole seconds
in UTC.
-/

namespace NodeDisks

/-- A point in time, in nanoseconds since the start of 1970 in UTC. -/
abbrev Instant := Int

structure Date where
  year : Int
  month : Nat
  day : Nat
  deriving DecidableEq, Repr

/-- The date a number of days after the first of January 1970. Years are counted from March, so that
the leap day is the last of its year; 400 such years have 146097 days. -/
def Date.ofDays (days : Int) : Date :=
  let z := days + 719468
  let era := Int.fdiv z 146097
  let doe := (z - era * 146097).toNat
  let yoe := (doe - doe / 1460 + doe / 36524 - doe / 146096) / 365
  let doy := doe - (365 * yoe + yoe / 4 - yoe / 100)
  let mp := (5 * doy + 2) / 153
  let month := if mp < 10 then mp + 3 else mp - 9
  { year := yoe + era * 400 + (if month ≤ 2 then 1 else 0)
    month := month
    day := doy - (153 * mp + 2) / 5 + 1 }

/-- Four digits; a year outside of 0 to 9999 has its sign in front. -/
def yearText (year : Int) : String :=
  if 0 ≤ year && year ≤ 9999 then Text.padded 4 year.toNat
  else (if year < 0 then "-" else "+") ++ Text.padded 4 year.natAbs

def Date.text (d : Date) : String :=
  yearText d.year ++ "-" ++ Text.padded 2 d.month ++ "-" ++ Text.padded 2 d.day

/-- The seconds are rounded down. -/
def Instant.text (t : Instant) : String :=
  let seconds := Int.fdiv t 1000000000
  let days := Int.fdiv seconds 86400
  let rest := (seconds - days * 86400).toNat
  (Date.ofDays days).text ++ "T" ++ Text.padded 2 (rest / 3600) ++ ":"
    ++ Text.padded 2 (rest / 60 % 60) ++ ":" ++ Text.padded 2 (rest % 60) ++ "Z"

/-!
## Nodes

What one pass of the daemon sees of its node: the file system, the answers to exclusive opens, to
commands and to publications, and the clock.

A pass comes to a device twice. It surveys and filters all devices first, and claims the valid ones
after that; a device can change hands and a link can go in between. So there are two scenes, one for
each part, and they need not agree.

What a pass does is recorded beside its result: `Traced α` is a value with the commands run, the
devices opened and closed, the events reported and the results published, each in order.
-/

structure Command where
  program : String
  args : List String
  deriving DecidableEq, Repr

/-- What a command left: its exit code, unless a signal ended it, and its combined output. -/
structure CommandOutput where
  code : Option Int
  output : String
  deriving DecidableEq, Repr

def CommandOutput.success (o : CommandOutput) : Bool := o.code == some 0

/-- How a process ended, and what it wrote. -/
structure ProcessEnd where
  /-- Absent when a signal ended it. -/
  code : Option Nat := some 0
  out : List UInt8 := []
  err : List UInt8 := []

/-- Both streams as one text, without blanks at its ends if the process succeeded. -/
def ProcessEnd.output (p : ProcessEnd) : CommandOutput :=
  let text := Text.ofBytes p.out ++ Text.ofBytes p.err
  { code := p.code.map Int.ofNat
    output := String.ofList (if p.code = some 0 then Text.strip text else text) }

/-- The answer to an exclusive open of a device. -/
inductive OpenAnswer where
  | acquired
  /-- Someone else holds the device. -/
  | busy
  | failed (e : IoError)
  deriving DecidableEq, Repr

/-- A file system that is only read. -/
structure FileView where
  /-- The paths that a pattern lists, in order. -/
  glob : String → Except Error (List Path)
  /-- The path with every link followed; the file has to exist. -/
  evalLinks : Path → Except IoError Path
  read : Path → Except IoError String
  sameFile : Path → Path → Except IoError Bool
  /-- A listing that fails blames its pattern. -/
  glob_fault : ∀ {pattern : String} {e : Error}, glob pattern = .error e →
    ∃ reason, e = .glob pattern reason

/-- What there is to look at and to open at one time. -/
structure Scene where
  files : FileView
  openExclusive : Path → OpenAnswer

/-- A node during a pass. The scene it starts with is the one that is surveyed and filtered. -/
structure Host extends Scene where
  run : Command → Except IoError CommandOutput
  publish : DiscoveryStatus → Except Error Unit
  now : Instant
  /-- The scene in which the valid devices are claimed. -/
  later : Scene

/-- What was done, in order. -/
structure Effects where
  commands : List Command := []
  opens : List (Path × OpenAnswer) := []
  closes : List Path := []
  events : List Event := []
  /-- What was handed over for publication, whether it succeeded or not. -/
  publications : List DiscoveryStatus := []

namespace Effects

def none : Effects := {}

def append (a b : Effects) : Effects :=
  { commands := a.commands ++ b.commands
    opens := a.opens ++ b.opens
    closes := a.closes ++ b.closes
    events := a.events ++ b.events
    publications := a.publications ++ b.publications }

instance : Append Effects := ⟨append⟩

/-- Handles that were acquired and not closed. -/
def heldHandles (e : Effects) : Int :=
  (e.opens.countP fun o => o.2 == .acquired) - e.closes.length

end Effects

/-- A value and what was done to get it. -/
structure Traced (α : Type) where
  value : α
  effects : Effects

namespace Traced

variable {α β : Type}

def pure (a : α) : Traced α := ⟨a, Effects.none⟩

def bind (x : Traced α) (f : α → Traced β) : Traced β :=
  ⟨(f x.value).value, x.effects ++ (f x.value).effects⟩

instance : Monad Traced where
  pure := pure
  bind := bind

/-- Reports events. -/
def report (es : List Event) : Traced Unit := ⟨(), { events := es }⟩

/-- Applies `f` to each element in order, and keeps what there is. -/
def filterMap (f : α → Traced (Option β)) : List α → Traced (List β)
  | [] => pure []
  | a :: as => do
    let b ← f a
    let bs ← filterMap f as
    return b.toList ++ bs

end Traced

/-- Tries to open a device exclusively. -/
def Scene.openDevice (x : Scene) (p : Path) : Traced OpenAnswer :=
  ⟨x.openExclusive p, { opens := [(p, x.openExclusive p)] }⟩

namespace Host

/-- Nothing changes between the two parts of a pass. -/
def Still (h : Host) : Prop := h.later = h.toScene

/-- Runs a command. -/
def execute (h : Host) (c : Command) : Traced (Except IoError CommandOutput) :=
  ⟨h.run c, { commands := [c] }⟩

/-- Hands a result over for publication. -/
def publishResult (h : Host) (s : DiscoveryStatus) : Traced (Except Error Unit) :=
  ⟨h.publish s, { publications := [s] }⟩

/-- Closes a device that was opened. -/
def closeDevice (p : Path) : Traced Unit := ⟨(), { closes := [p] }⟩

end Host

end NodeDisks
