import NodeDisks.Device
import NodeDisks.Host.Basic

/-!
Persistent identities: links below one directory that lead to a device whatever its kernel name is.

Of the links that lead to a device the one that is already in use elsewhere comes first, then those
whose names start with `wwn`, `scsi` and `nvme`, then the rest, each group in listing order. A device
that is one of several paths may fall back on a link of the device mapper, and any device on its
device node. A link found by its rank is remembered with the device and kept as long as it leads
there.
-/

namespace NodeDisks

namespace FileView

/-- Path `p` leads to a file named `kname`. A link that leads nowhere is no match, and no fault. -/
def leadsTo (files : FileView) (p : Path) (kname : String) : Except Error Bool :=
  match files.evalLinks p with
  | .ok target => .ok (target.fileName? == some kname)
  | .error e =>
    if e.kind = .notFound then .ok false else .error (.symlinkEval p.text e.text)

/-- The first path that leads to `kname`; a fault before it counts. -/
def firstLeadingTo (files : FileView) (kname : String) : List Path → Except Error (Option Path)
  | [] => .ok none
  | p :: ps =>
    match files.leadsTo p kname with
    | .error e => .error e
    | .ok true => .ok (some p)
    | .ok false => firstLeadingTo files kname ps

end FileView

/-- The outcome of looking for an identity. -/
inductive Resolution where
  | found (path : String)
  /-- No link leads to the device; its device node has to do. -/
  | notFound (fallback : String)
  deriving DecidableEq, Repr

namespace Resolution

def path : Resolution → String
  | found path => path
  | notFound fallback => fallback

def isFound : Resolution → Bool
  | found _ => true
  | notFound _ => false

end Resolution

/-- The directories with persistent links and with the links of the device mapper. -/
structure LinkDirs where
  byId : Path := ⟨"/dev/disk/by-id"⟩
  mapper : Path := ⟨"/dev/mapper"⟩

namespace Identity

/-- The preferred beginnings of link names; the last one fits every name. -/
def preferred : List String := ["wwn", "scsi", "nvme", ""]

/-- The place of a link among the preferred beginnings. -/
def rank (link : Path) : Nat :=
  preferred.findIdx fun start => Text.startsWith link.baseName start

/-- The links by rank, those of one rank in their order. -/
def ranked (links : List Path) : List Path :=
  (List.range preferred.length).flatMap fun r => links.filter fun l => rank l == r

/-- What is listed directly in a directory. -/
def entries (files : FileView) (dir : Path) : Except Error (List Path) :=
  files.glob (dir.join "*").text

/-- The link that is used elsewhere under the name `existing`, if it leads to the device. -/
def inUse (files : FileView) (links : List Path) (existing : Option String) (kname : String) :
    Except Error (Option Path) :=
  match existing with
  | none => .ok none
  | some name =>
    if name.isEmpty then .ok none
    else files.firstLeadingTo kname (links.filter fun l => l.baseName == name)

/-- The link of the device mapper that leads to a device. -/
def mapperLink (files : FileView) (dirs : LinkDirs) (d : Device) : Except Error (Option Path) :=
  match entries files dirs.mapper with
  | .error e => .error e
  | .ok links => files.firstLeadingTo d.kname links

/-- The persistent link of a device. -/
def byIdLink (files : FileView) (dirs : LinkDirs) (existing : Option String) (d : Device) :
    Except Error (Option Path) :=
  match entries files dirs.byId with
  | .error e => .error e
  | .ok links =>
    match inUse files links existing d.kname with
    | .error e => .error e
    | .ok (some l) => .ok (some l)
    | .ok none => files.firstLeadingTo d.kname (ranked links)

/-- The remembered path is a persistent link that still leads to the device. -/
def remembered (files : FileView) (dirs : LinkDirs) (d : Device) : Bool :=
  !d.pathById.isEmpty && Path.isUnder ⟨d.pathById⟩ dirs.byId
    && (match files.leadsTo ⟨d.pathById⟩ d.kname with
      | .ok leads => leads
      | .error _ => false)

/-- What stands in for a persistent link. -/
def substitute (files : FileView) (dirs : LinkDirs) (d : Device) : Except Error Resolution :=
  let mapped := if d.isMultipath then mapperLink files dirs d else .ok none
  match mapped with
  | .error e => .error e
  | .ok (some l) => .ok (.found l.text)
  | .ok none => d.node?.map .notFound

/-- Finds the identity of a device, and the device with the path that is to be remembered. -/
def resolve (files : FileView) (dirs : LinkDirs) (existing : Option String) (d : Device) :
    Except Error Resolution × Device :=
  if remembered files dirs d then (.ok (.found d.pathById), d)
  else
    let cleared := { d with pathById := "" }
    match byIdLink files dirs existing d with
    | .error e => (.error e, cleared)
    | .ok (some l) => (.ok (.found l.text), { d with pathById := l.text })
    | .ok none => (substitute files dirs d, cleared)

end Identity

end NodeDisks
