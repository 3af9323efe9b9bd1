import NodeDisks.Proofs.Host.Listing
import NodeDisks.Proofs.Identity.Outcome

/-!
What a device remembers. A search keeps the remembered path while that leads to the device, and
otherwise leaves behind the persistent link it found or nothing (`resolve_outcome`). So however files
change and paths are overwritten between searches, what is remembered after a search is its result
(`calls_coherent`), and a persistent link that was found is found again (`Keeps`). An empty text
counts as nothing remembered, so a link whose path is empty is not kept.
-/

namespace NodeDisks.Identity

/-- What happens to a device and to the files around it. -/
inductive Step where
  | change (files : FileView)
  /-- Somebody else writes to the place of the remembered path. -/
  | overwrite (path : String)
  /-- The identity is looked for, with the name under which it is in use elsewhere. -/
  | call (existing : Option String)

/-- A search for the identity: the files, the device before and after it, and what came of it. -/
structure Call where
  files : FileView
  before : Device
  result : Except Error Resolution
  after : Device

structure Session where
  files : FileView
  device : Device

namespace Session

def call (s : Session) (dirs : LinkDirs) (existing : Option String) : Call :=
  { files := s.files
    before := s.device
    result := (resolve s.files dirs existing s.device).1
    after := (resolve s.files dirs existing s.device).2 }

def next (dirs : LinkDirs) (s : Session) : Step → Session
  | .change files => { s with files := files }
  | .overwrite path => { s with device := { s.device with pathById := path } }
  | .call existing => { s with device := (s.call dirs existing).after }

/-- The session after some steps. -/
def run (dirs : LinkDirs) : Session → List Step → Session := List.foldl (next dirs)

/-- The searches among some steps, in order. -/
def calls (dirs : LinkDirs) : Session → List Step → List Call
  | _, [] => []
  | s, .call existing :: steps =>
    s.call dirs existing :: calls dirs (s.next dirs (.call existing)) steps
  | s, step :: steps => calls dirs (s.next dirs step) steps

end Session

/-- What the device remembers after a search agrees with the result. -/
structure Call.Coherent (c : Call) (dirs : LinkDirs) : Prop where
  remembered : c.after.pathById ≠ "" →
    Path.isUnder ⟨c.after.pathById⟩ dirs.byId = true ∧
      c.files.Leads c.before.kname ⟨c.after.pathById⟩ ∧ c.result = .ok (.found c.after.pathById)
  failed : ∀ e, c.result = .error e → c.after.pathById = ""
  notFound : ∀ fallback, c.result = .ok (.notFound fallback) → c.after.pathById = ""
  mapped : ∀ path, c.result = .ok (.found path) → IsMapped c.files dirs c.before path →
    c.after.pathById = ""
  /-- There are no other identities than those of the two kinds. -/
  found : ∀ path, c.result = .ok (.found path) →
    IsById c.files dirs c.before path ∧ c.after.pathById = path ∨
      IsMapped c.files dirs c.before path
  /-- Nothing else about the device changes. -/
  frame : c.after = { c.before with pathById := c.after.pathById }

/-- The searches among `steps`, of which none overwrites what is remembered, all find `path` as long
as it leads to the device each time. -/
def Keeps (dirs : LinkDirs) (s : Session) (steps : List Step) (path : String) : Prop :=
  (∀ text, Step.overwrite text ∉ steps) →
    (∀ c ∈ s.calls dirs steps, c.files.Leads c.before.kname ⟨path⟩) →
      ∀ c ∈ s.calls dirs steps, c.result = .ok (.found path) ∧ c.after.pathById = path

variable {files : FileView} {dirs : LinkDirs} {existing : Option String} {d : Device}
  {p : Path} {path : String} {s : Session} {steps : List Step} {c : Call}

/-! ### One search -/

/-- What is listed in a directory lies under it. -/
theorem IsById.isUnder (H : IsById files dirs d path) (hdir : Glob.Literal dirs.byId.text.toList)
    (hfiles : files.ListsEntries) : Path.isUnder ⟨path⟩ dirs.byId = true := by
  cases H with
  | kept husable hpath => exact hpath ▸ husable.persistent
  | listed _ hlinks hmem _ =>
    obtain ⟨name, hname, hsame⟩ := hfiles _ _ hdir hlinks _ hmem
    rw [Path.isUnder, Path.same_iff.mp hsame]
    exact Path.isUnder_join hname

/-- If nothing usable is remembered and nothing is in use elsewhere, the best link is found. -/
theorem call_of_best {links more : List Path} (hfresh : ¬Usable s.files dirs s.device)
    (hlinks : entries s.files dirs.byId = .ok links) (hranked : ranked links = p :: more)
    (hleads : s.files.Leads s.device.kname p) :
    s.call dirs none =
      ⟨s.files, s.device, .ok (.found p.text), { s.device with pathById := p.text }⟩ := by
  have hlink : byIdLink s.files dirs none s.device = .ok (some p) := by
    simp only [byIdLink, hlinks, inUse, hranked, FileView.firstLeadingTo,
      FileView.leadsTo_of_leads hleads]
  rw [Session.call, resolve, if_neg fun h => hfresh (remembered_iff.mp h), hlink]

theorem coherent_call (hdir : Glob.Literal dirs.byId.text.toList)
    (hfiles : s.files.ListsEntries) : (s.call dirs existing).Coherent dirs := by
  obtain ⟨result, path, hresolve, houtcome⟩ := resolve_outcome s.files dirs existing s.device
  have hcall : s.call dirs existing =
      ⟨s.files, s.device, result, { s.device with pathById := path }⟩ := by
    rw [Session.call, hresolve]
  rw [hcall]
  cases houtcome with
  | byId hbyId =>
    exact {
      remembered := fun _ => ⟨hbyId.isUnder hdir hfiles, hbyId.leads, rfl⟩
      failed := fun _ h => by cases h
      notFound := fun _ h => by cases h
      mapped := fun _ _ hmapped => absurd hbyId hmapped.not_isById
      found := fun _ h => by cases h; exact .inl ⟨hbyId, rfl⟩
      frame := rfl }
  | mapped hmapped =>
    exact {
      remembered := fun h => absurd rfl h
      failed := fun _ _ => rfl
      notFound := fun _ _ => rfl
      mapped := fun _ _ _ => rfl
      found := fun _ h => by cases h; exact .inr hmapped
      frame := rfl }
  | notFound | failed =>
    exact {
      remembered := fun h => absurd rfl h
      failed := fun _ _ => rfl
      notFound := fun _ _ => rfl
      mapped := fun _ _ _ => rfl
      found := fun _ h => by cases h
      frame := rfl }

/-! ### A session -/

theorem exists_run_of_mem_calls (hc : c ∈ s.calls dirs steps) :
    ∃ before existing rest, steps = before ++ .call existing :: rest ∧
      c = (s.run dirs before).call dirs existing := by
  induction steps generalizing s with
  | nil => cases hc
  | cons step steps ih =>
    have hlater : c ∈ (s.next dirs step).calls dirs steps → ∃ before existing rest,
        step :: steps = before ++ .call existing :: rest ∧
          c = (s.run dirs before).call dirs existing := by
      intro hc
      obtain ⟨before, existing, rest, rfl, hcall⟩ := ih hc
      exact ⟨step :: before, existing, rest, rfl, hcall⟩
    cases step with
    | change | overwrite => exact hlater hc
    | call existing =>
      rcases List.mem_cons.mp hc with hcall | hc
      · exact ⟨[], existing, steps, rfl, hcall⟩
      · exact hlater hc

theorem listsEntries_run (hstart : s.files.ListsEntries)
    (hchange : ∀ files, .change files ∈ steps → files.ListsEntries) :
    (s.run dirs steps).files.ListsEntries := by
  induction steps generalizing s with
  | nil => exact hstart
  | cons step steps ih =>
    apply ih _ fun files h => hchange files (.tail _ h)
    cases step with
    | change files => exact hchange files (.head _)
    | overwrite | call => exact hstart

/-- What is remembered is kept from search to search. -/
theorem keeps_of_remembered (hpath : s.device.pathById = path) (hne : path ≠ "")
    (hunder : Path.isUnder ⟨path⟩ dirs.byId = true) : Keeps dirs s steps path := by
  intro hkept hleads
  induction steps generalizing s with
  | nil => exact fun _ hc => absurd hc List.not_mem_nil
  | cons step steps ih =>
    have hkept' : ∀ text, Step.overwrite text ∉ steps := fun text h => hkept text (.tail _ h)
    cases step with
    | change files => exact ih (s := s.next dirs (.change files)) hpath hkept' hleads
    | overwrite text => exact absurd (.head _) (hkept text)
    | call existing =>
      subst hpath
      obtain ⟨hfirst, hlater⟩ := List.forall_mem_cons.mp hleads
      have husable : Usable s.files dirs s.device := ⟨hne, hunder, hfirst⟩
      have hcall : s.call dirs existing =
          ⟨s.files, s.device, .ok (.found s.device.pathById), s.device⟩ := by
        rw [Session.call, resolve_of_usable husable]
      have hnext : s.next dirs (.call existing) = s := by rw [Session.next, hcall]
      rw [hnext] at hlater
      refine List.forall_mem_cons.mpr ⟨⟨by rw [hcall], by rw [hcall]⟩, ?_⟩
      rw [hnext]
      exact ih rfl hkept' hlater

theorem Keeps.result_eq (H : Keeps dirs s [.change files, .call existing] path)
    (hleads : files.Leads s.device.kname ⟨path⟩) :
    (Session.call ⟨files, s.device⟩ dirs existing).result = .ok (.found path) := by
  refine (H (by simp) (fun c hc => ?_) _ (.head _)).1
  obtain rfl : c = Session.call ⟨files, s.device⟩ dirs existing := List.mem_singleton.mp hc
  exact hleads

/-- In every session each search leaves behind what it found below the directory of persistent links,
or nothing; and a persistent link is found as long as it leads to the device, unless its path is
empty. -/
theorem calls_coherent (hdir : Glob.Literal dirs.byId.text.toList)
    (hstart : s.files.ListsEntries)
    (hchange : ∀ files, .change files ∈ steps → files.ListsEntries) :
    (∀ c ∈ s.calls dirs steps, c.Coherent dirs) ∧
      ∀ before existing rest path, steps = before ++ .call existing :: rest →
        let c := (s.run dirs before).call dirs existing
        c.result = .ok (.found path) → IsById c.files dirs c.before path → path ≠ "" →
          Keeps dirs (s.run dirs (before ++ [.call existing])) rest path := by
  refine ⟨fun c hc => ?_, ?_⟩
  · obtain ⟨before, existing, rest, rfl, rfl⟩ := exists_run_of_mem_calls hc
    exact coherent_call hdir (listsEntries_run hstart fun files h =>
      hchange files (List.mem_append_left _ h))
  · rintro before existing rest path rfl c hfound hbyId hne
    have hfiles : c.files.ListsEntries := listsEntries_run hstart fun files h =>
      hchange files (List.mem_append_left _ h)
    have hcoherent : c.Coherent dirs := coherent_call hdir hfiles
    have hunder := hbyId.isUnder hdir hfiles
    obtain ⟨-, hpath⟩ := (hcoherent.found path hfound).resolve_right fun hmapped =>
      hmapped.not_isById hbyId
    rw [Session.run, List.foldl_append]
    exact keeps_of_remembered hpath hne hunder

/-- A persistent link. -/
def scsiLink : MemoryFiles := MemoryFiles.empty.addLink ⟨"/i/scsi-b"⟩ ⟨"/d/b"⟩

theorem calls_coherent_scsiLink :
    let dirs : LinkDirs := ⟨⟨"/i"⟩, ⟨"/p"⟩⟩
    let d : Device := { Device.blank with kname := "b" }
    let better : FileView := (scsiLink.addLink ⟨"/i/wwn-b"⟩ ⟨"/d/b"⟩).view
    let s : Session := ⟨scsiLink.view, d⟩
    let steps : List Step := [.call none, .change better, .call (some "wwn-b")]
    Glob.Literal dirs.byId.text.toList ∧ s.files.ListsEntries ∧
      (∀ files, .change files ∈ steps → files.ListsEntries) ∧
      (∀ c ∈ s.calls dirs steps, c.Coherent dirs) ∧
      (s.calls dirs steps).map Call.result =
        [.ok (.found "/i/scsi-b"), .ok (.found "/i/scsi-b")] := by
  intro dirs d better s steps
  have hdir : Glob.Literal dirs.byId.text.toList := by decide +kernel
  have hchange : ∀ files, .change files ∈ steps → files.ListsEntries := by
    intro files h
    obtain rfl : files = better := by simpa [steps] using h
    exact MemoryFiles.listsEntries _
  have H := calls_coherent (s := s) hdir scsiLink.listsEntries hchange
  have hfresh : ¬Usable s.files dirs d := fun H => H.remembered rfl
  have hlinks : entries s.files dirs.byId = .ok [⟨"/i/scsi-b"⟩] := by
    rw [entries, show (dirs.byId.join "*").text = "/i" ++ "/*" by decide +kernel]
    change scsiLink.glob ("/i" ++ "/*") = _
    exact MemoryFiles.glob_of_increasing (by decide +kernel) (by decide +kernel)
      (by decide +kernel) (by decide +kernel)
  have hranked : ranked [⟨"/i/scsi-b"⟩] = [⟨"/i/scsi-b"⟩] := by decide +kernel
  have hleads : s.files.Leads d.kname ⟨"/i/scsi-b"⟩ := exists_ok_of_map (by decide +kernel)
  have hbetter : better.Leads d.kname ⟨"/i/scsi-b"⟩ := exists_ok_of_map (by decide +kernel)
  have hfirst := call_of_best hfresh hlinks hranked hleads
  have hkeeps := H.2 [] none [.change better, .call (some "wwn-b")] "/i/scsi-b" rfl
    (congrArg Call.result hfirst) (.listed hfresh hlinks (.head _) hleads) (by decide +kernel)
  let s' : Session := ⟨better, (s.call dirs none).after⟩
  have hsecond : (s'.call dirs (some "wwn-b")).result = .ok (.found "/i/scsi-b") := by
    refine hkeeps.result_eq ?_
    change better.Leads s'.device.kname _
    rwa [show s'.device.kname = d.kname by simp [s', hfirst, s]]
  refine ⟨hdir, scsiLink.listsEntries, hchange, H.1, ?_⟩
  change [(s.call dirs none).result, (s'.call dirs (some "wwn-b")).result] = _
  rw [hsecond, hfirst]

/-- A link at the empty path. -/
def unnamedLink : MemoryFiles := MemoryFiles.empty.addLink ⟨""⟩ ⟨"/dev/sdb"⟩

/-- A persistent link whose path is empty is found once and not kept. -/
theorem not_keeps_emptyPath :
    let dirs : LinkDirs := { byId := ⟨""⟩ }
    let better : FileView := (unnamedLink.addLink ⟨"wwn-1"⟩ ⟨"/dev/sdb"⟩).view
    let d : Device := { Device.blank with name := "sdb", kname := "sdb", type := "disk" }
    let s : Session := ⟨unnamedLink.view, d⟩
    let c := s.call dirs none
    Glob.Literal dirs.byId.text.toList ∧ s.files.ListsEntries ∧ better.ListsEntries ∧
      c.result = .ok (.found "") ∧ IsById c.files dirs c.before "" ∧
      ¬Keeps dirs (s.run dirs [.call none]) [.change better, .call none] "" := by
  intro dirs better d s c
  have hfresh : ¬Usable s.files dirs s.device := fun H => H.remembered rfl
  have hlinks : entries s.files dirs.byId = .ok [⟨""⟩] := by
    rw [entries, show (dirs.byId.join "*").text = "*" by decide +kernel]
    change unnamedLink.glob "*" = _
    exact MemoryFiles.glob_of_compile (by decide +kernel) rfl (by decide +kernel)
      (by decide +kernel)
  have hranked : ranked [⟨""⟩] = [⟨""⟩] := by decide +kernel
  have hleads : s.files.Leads s.device.kname ⟨""⟩ := exists_ok_of_map (by decide +kernel)
  have hfirst : c = ⟨s.files, s.device, .ok (.found ""), { s.device with pathById := "" }⟩ :=
    call_of_best hfresh hlinks hranked hleads
  refine ⟨by decide +kernel, MemoryFiles.listsEntries _, MemoryFiles.listsEntries _,
    congrArg Call.result hfirst, .listed hfresh hlinks (.head _) hleads, fun hkeeps => ?_⟩
  let s' : Session := ⟨better, c.after⟩
  have hfresh' : ¬Usable s'.files dirs s'.device := fun H => H.remembered (by simp [s', hfirst])
  have hlinks' : entries better dirs.byId = .ok [⟨""⟩, ⟨"wwn-1"⟩] := by
    rw [entries, show (dirs.byId.join "*").text = "*" by decide +kernel]
    change (unnamedLink.addLink ⟨"wwn-1"⟩ ⟨"/dev/sdb"⟩).glob "*" = _
    exact MemoryFiles.glob_of_compile (by decide +kernel) rfl (by decide +kernel)
      (by decide +kernel)
  have hranked' : ranked [⟨""⟩, ⟨"wwn-1"⟩] = [⟨"wwn-1"⟩, ⟨""⟩] := by decide +kernel
  have hleads' : ∀ p ∈ [⟨""⟩, ⟨"wwn-1"⟩], better.Leads s'.device.kname p := by
    have hkname : s'.device.kname = "sdb" := by simp [s', hfirst, s, d]
    rw [hkname]
    refine List.forall_mem_cons.mpr ⟨exists_ok_of_map (by decide +kernel), ?_⟩
    exact List.forall_mem_singleton.mpr (exists_ok_of_map (by decide +kernel))
  have hsecond := call_of_best hfresh' hlinks' hranked' (hleads' _ (.tail _ (.head _)))
  have hkept := hkeeps.result_eq (hleads' _ (.head _))
  have hsame := hkept.symm.trans (congrArg Call.result hsecond)
  simp at hsame

end NodeDisks.Identity
