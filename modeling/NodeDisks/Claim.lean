import NodeDisks.Host.Basic
import NodeDisks.Identity

/-!
Claims on devices: the age that a device has to reach, the links that claims leave, and the lock
under which one is decided.
-/

/-!
## Age

The age gate: when each kernel name was first seen, and whether that is long enough ago.

A name keeps the time of its first sighting for good. A clock that was set back before that time makes
the device young again; an unknown name is never old enough.
-/

namespace NodeDisks

/-- Kernel names with the time of their first sighting, in the order of these. -/
structure AgeRecord where
  firstSeen : List (String × Instant)
  deriving Repr, DecidableEq

namespace AgeRecord

def empty : AgeRecord := ⟨[]⟩

def firstSeen? (r : AgeRecord) (kname : String) : Option Instant := r.firstSeen.lookup kname

/-- Notes a sighting; only the first one of a name counts. -/
def note (r : AgeRecord) (now : Instant) (kname : String) : AgeRecord :=
  match r.firstSeen? kname with
  | some _ => r
  | none => ⟨r.firstSeen ++ [(kname, now)]⟩

/-- Notes all names as seen now. -/
def noteAll (r : AgeRecord) (now : Instant) (knames : List String) : AgeRecord :=
  knames.foldl (fun r k => r.note now k) r

/-- Name `kname` was first seen at least `minAge` before `now`. -/
def isOld (r : AgeRecord) (minAge : Duration) (now : Instant) (kname : String) : Bool :=
  match r.firstSeen? kname with
  | some first => first ≤ now && (minAge : Int) ≤ now - first
  | none => false

def size (r : AgeRecord) : Nat := r.firstSeen.length

end AgeRecord

/-- The age from which on a device may be claimed, unless configured otherwise. -/
def defaultMinAge : Duration := Duration.ofSeconds 60

/-- How soon to look again at devices that are too young. -/
def youngDelay (minAge : Duration) : Duration := minAge / 2

end NodeDisks

/-!
## Links

Links in the claim directories. A claimed device has a link, at any depth below one of these
directories, that is the same file as its node; a link directly in a directory that leads to none of
the wanted devices is an orphan.
-/

namespace NodeDisks.Claim

/-- The candidates that are the same file as `device`. A candidate that cannot be found is none; any
other fault counts. -/
def sameAs (files : FileView) (device : Path) : List Path → Except Error (List Path)
  | [] => .ok []
  | p :: ps =>
    match files.sameFile p device with
    | .ok true => (sameAs files device ps).map (p :: ·)
    | .ok false => sameAs files device ps
    | .error e =>
      if e.kind = .notFound then sameAs files device ps else .error (.symlinkEval p.text e.text)

/-- The pattern of everything below a directory. -/
def belowPattern (dir : Path) : String := ((dir.join "**").join "*").text

/-- What lies below the directories and is the same file as `device`, directory by directory. -/
def linksBelow (files : FileView) (device : Path) : List Path → Except Error (List Path)
  | [] => .ok []
  | dir :: dirs =>
    match files.glob (belowPattern dir) with
    | .error e => .error e
    | .ok candidates =>
      match sameAs files device candidates with
      | .error e => .error e
      | .ok links => (linksBelow files device dirs).map (links ++ ·)

/-- The links to `device` below the directories, in component order and each once. -/
def matchingLinks (files : FileView) (dirs : List Path) (device : Path) :
    Except Error (List Path) :=
  (linksBelow files device dirs).map fun links => Path.keepFirst (Path.sort links)

/-- Path `p` leads to one of the devices; they are tried in order up to the first that it leads to. -/
def leadsToAny (files : FileView) (p : Path) : List String → Except Error Bool
  | [] => .ok false
  | kname :: knames =>
    match files.leadsTo p kname with
    | .error e => .error e
    | .ok true => .ok true
    | .ok false => leadsToAny files p knames

/-- The entries that lead to none of the devices. -/
def orphansAmong (files : FileView) (knames : List String) : List Path → Except Error (List Path)
  | [] => .ok []
  | p :: ps =>
    match leadsToAny files p knames with
    | .error e => .error e
    | .ok true => orphansAmong files knames ps
    | .ok false => (orphansAmong files knames ps).map (p :: ·)

/-- The entries directly in `dir` that lead to none of the devices. -/
def orphans (files : FileView) (dir : Path) (knames : List String) : Except Error (List Path) :=
  match Identity.entries files dir with
  | .error e => .error e
  | .ok entries => orphansAmong files knames entries

end NodeDisks.Claim

/-!
## Locks

Claiming a device starts with an exclusive open of its node, the lock, which the kernel refuses while
anyone else holds the device. Together with the links that are already there it decides whether the
device can be claimed.

A lock is released by closing its handle; `release` does so at most once, and every way out of
`evaluate` passes through it.
-/

namespace NodeDisks

/-- An exclusive open of a device node. -/
structure Lock where
  path : Path
  held : Bool
  deriving DecidableEq, Repr

namespace Lock

/-- A lock that was not taken yet. -/
def on (path : Path) : Lock := ⟨path, false⟩

/-- Takes the lock unless it is held. A busy device leaves it free, as does a fault. -/
def take (l : Lock) (x : Scene) : Traced (Except Error Bool × Lock) :=
  if l.held then return (.ok true, l)
  else do
    match ← x.openDevice l.path with
    | .acquired => return (.ok true, { l with held := true })
    | .busy => return (.ok false, l)
    | .failed e => return (.error (.io e), l)

/-- Gives the lock back; a lock that is not held stays as it is. -/
def release (l : Lock) : Traced Lock :=
  if l.held then do
    Host.closeDevice l.path
    return { l with held := false }
  else return l

end Lock

namespace Claim

/-- What to do with a device that passed everything else. -/
inductive Decision where
  | claimable
  /-- Links to the device are there, from an earlier claim. -/
  | alreadyClaimed (links : List Path)
  /-- Someone else holds the device. -/
  | inUse
  deriving DecidableEq, Repr

/-- A lock, taken or refused as busy, and the links to its device. -/
structure Attempt where
  lock : Lock
  links : List Path
  deriving DecidableEq, Repr

def Attempt.decision (a : Attempt) : Decision :=
  if a.links.isEmpty then .claimable else .alreadyClaimed a.links

/-- Takes the lock of a device and looks for links to it. A busy device without links is refused.
The lock of a refused or failed attempt is released. -/
def acquire (x : Scene) (dirs : List Path) (device : String) : Traced (Except Error Attempt) := do
  let (taken, lock) ← (Lock.on ⟨device⟩).take x
  match taken with
  | .error e =>
    let _ ← lock.release
    return .error e
  | .ok locked =>
    match matchingLinks x.files dirs ⟨device⟩ with
    | .error e =>
      let _ ← lock.release
      return .error e
    | .ok links =>
      if links.isEmpty && !locked then
        let _ ← lock.release
        return .error (.deviceBusy device)
      else return .ok ⟨lock, links⟩

/-- Decides whether a device can be claimed, and gives its lock back. -/
def evaluate (x : Scene) (dirs : List Path) (device : String) : Traced (Except Error Decision) := do
  match ← acquire x dirs device with
  | .ok attempt =>
    let decision := attempt.decision
    let _ ← attempt.lock.release
    return .ok decision
  | .error (.deviceBusy _) => return .ok .inUse
  | .error e => return .error e

end Claim

end NodeDisks
