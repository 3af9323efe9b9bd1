import NodeDisks.Discovery
import NodeDisks.Proofs.Device
import NodeDisks.Proofs.Host.Listing
import NodeDisks.Proofs.Identity.Outcome
import NodeDisks.Proofs.Inventory.Survey
import NodeDisks.Proofs.Text
import NodeDisks.Proofs.VolumeSet.Pass
import NodeDisks.Resource

/-!
Discovery passes: how records are collapsed, how a pass ends, and what it shows.
-/

/-!
## Collapsing

Collapsing records by identity. `KeepsFirst` determines the kept list: it is in the order of all
records, no identity comes twice, and of each identity the first record is there.
-/

namespace NodeDisks.DeviceRecord

/-- The list `kept` holds the first record of each identity of `all`. -/
structure KeepsFirst (all kept : List DeviceRecord) : Prop where
  order : kept.Sublist all
  distinct : (kept.map (·.deviceId)).Nodup
  first : ∀ before r after, all = before ++ r :: after →
    (∀ q ∈ before, q.deviceId ≠ r.deviceId) → r ∈ kept

variable {seen : List String} {rs : List DeviceRecord} {r : DeviceRecord}

theorem uniqueFrom_cons : uniqueFrom seen (r :: rs) =
    if r.deviceId ∈ seen then uniqueFrom seen rs
    else r :: uniqueFrom (r.deviceId :: seen) rs := by
  simp only [uniqueFrom, List.contains_iff_mem]

theorem uniqueFrom_sublist : (uniqueFrom seen rs).Sublist rs := by
  induction rs generalizing seen with
  | nil => exact .slnil
  | cons r rs ih =>
    rw [uniqueFrom_cons]
    split
    · exact ih.cons r
    · exact ih.cons_cons r

theorem deviceId_not_mem_of_mem_uniqueFrom (hr : r ∈ uniqueFrom seen rs) : r.deviceId ∉ seen := by
  induction rs generalizing seen with
  | nil => cases hr
  | cons q rs ih =>
    rw [uniqueFrom_cons] at hr
    split at hr
    case isTrue => exact ih hr
    case isFalse hq =>
      rcases List.mem_cons.mp hr with rfl | hr
      · exact hq
      · exact fun hseen => ih hr (.tail _ hseen)

theorem nodup_uniqueFrom : ((uniqueFrom seen rs).map (·.deviceId)).Nodup := by
  induction rs generalizing seen with
  | nil => exact .nil
  | cons q rs ih =>
    rw [uniqueFrom_cons]
    split
    case isTrue => exact ih
    case isFalse =>
      refine List.nodup_cons.mpr ⟨fun hq => ?_, ih⟩
      obtain ⟨r, hr, hid⟩ := List.mem_map.mp hq
      exact deviceId_not_mem_of_mem_uniqueFrom hr (hid ▸ .head _)

/-- The first record of an identity that was not seen before is kept. -/
theorem mem_uniqueFrom_of_first {before after : List DeviceRecord} (hseen : r.deviceId ∉ seen)
    (hfirst : ∀ q ∈ before, q.deviceId ≠ r.deviceId) :
    r ∈ uniqueFrom seen (before ++ r :: after) := by
  induction before generalizing seen with
  | nil =>
    rw [List.nil_append, uniqueFrom_cons, if_neg hseen]
    exact .head _
  | cons q before ih =>
    obtain ⟨hq, hbefore⟩ := List.forall_mem_cons.mp hfirst
    rw [List.cons_append, uniqueFrom_cons]
    split
    · exact ih hseen hbefore
    · refine .tail _ (ih (fun h => ?_) hbefore)
      rcases List.mem_cons.mp h with h | h
      · exact hq h.symm
      · exact hseen h

theorem unique_keepsFirst (all : List DeviceRecord) : KeepsFirst all (unique all) where
  order := uniqueFrom_sublist
  distinct := nodup_uniqueFrom
  first before r after hall hfirst := by
    rw [hall]
    exact mem_uniqueFrom_of_first List.not_mem_nil hfirst

/-- The identity of every record is that of a kept one, which comes no later. -/
theorem KeepsFirst.exists_mem {all kept : List DeviceRecord} (H : KeepsFirst all kept)
    (hr : r ∈ all) : ∃ q ∈ kept, q.deviceId = r.deviceId := by
  -- The first record with this identity splits the list where its predecessors have others.
  have hsome : (all.find? fun q => q.deviceId == r.deviceId).isSome :=
    List.find?_isSome.mpr ⟨r, hr, by simp⟩
  obtain ⟨q, hq⟩ := Option.isSome_iff_exists.mp hsome
  obtain ⟨hid, before, after, hall, hbefore⟩ := List.find?_eq_some_iff_append.mp hq
  have hid : q.deviceId = r.deviceId := by simpa using hid
  refine ⟨q, H.first before q after hall fun p hp => ?_, hid⟩
  rw [hid]
  simpa using hbefore p hp

end NodeDisks.DeviceRecord

/-!
## The ends of a pass

The ends of a discovery pass. A pass whose survey fails publishes nothing; any other hands over one
status, made of the records of the shown devices, and returns that status unless the publication
fails.
-/

namespace NodeDisks.Discovery

/-- The record of a device that has a node. -/
def shownAs (files : FileView) (c : Config) (d : Device) : DeviceRecord :=
  let node := "/dev/" ++ d.kname
  record d (identity node (Identity.resolve files c.links none d).1) node

/-- The records of the devices that are not ignored, in the order of the devices. -/
def made (files : FileView) (c : Config) (ds : List Device) : List DeviceRecord :=
  (ds.filter fun d => !ignores files c d).filterMap fun d => (recordOf? files c d).map (·.1)

/-- What a pass that lists the devices hands over for publication. -/
def statusOf (c : Config) (h : Host) (ds : List Device) : DiscoveryStatus :=
  ⟨some h.now.text, DeviceRecord.unique (made h.files c ds)⟩

variable {c : Config} {s : State} {h : Host} {files : FileView} {d : Device} {ds : List Device}
  {inv : Inventory} {r : DeviceRecord} {status : DiscoveryStatus}

/-! ### Records -/

theorem recordOf?_of_unnamed (hk : d.kname = "") : recordOf? files c d = none := by
  simp [recordOf?, Device.node?_of_unnamed hk]

theorem recordOf?_of_named (hk : d.kname ≠ "") :
    (recordOf? files c d).map (·.1) = some (shownAs files c d) := by
  simp [recordOf?, Device.node?_of_named hk, shownAs]

theorem mem_made_iff : r ∈ made files c ds ↔
    ∃ d ∈ ds, ignores files c d = false ∧ d.kname ≠ "" ∧ shownAs files c d = r := by
  simp only [made, List.mem_filterMap, List.mem_filter, Bool.not_eq_true', and_assoc]
  refine exists_congr fun d => and_congr_right fun _ => and_congr_right fun _ => ?_
  by_cases hk : d.kname = ""
  · simp [recordOf?_of_unnamed hk, hk]
  · simp [recordOf?_of_named hk, hk]

/-- A signature settles what is said of a device, except for one path of several. -/
theorem state_of_signature (hs : d.fsType ≠ "") :
    state d = if d.type = "mpath" then .unknown else .notAvailable := by
  simp [state, Device.isMultipath, Device.availability, Device.hasFilesystem, hs]

/-! ### The pass -/

@[simp] theorem publications_records : (records c s h ds).effects.publications = [] := rfl

theorem discover_of_survey_error {e : Error} (he : (Inventory.survey h []).value = .error e) :
    (discover c s h).value = (.error e, s) ∧ (discover c s h).effects.publications = [] := by
  simp [discover, Traced.publications_bind, he]

theorem discover_of_survey (hinv : (Inventory.survey h []).value = .ok inv) :
    (discover c s h).value.1 = (h.publish (statusOf c h inv.devices)).map
        (fun _ => statusOf c h inv.devices) ∧
      (discover c s h).effects.publications = [statusOf c h inv.devices] := by
  have hstatus : (⟨some h.now.text, DeviceRecord.unique (records c s h
      (inv.devices.filter fun d => !ignores h.files c d)).value.1⟩ : DiscoveryStatus) =
        statusOf c h inv.devices := rfl
  simp only [discover, Traced.value_bind, Traced.publications_bind, hinv,
    Inventory.value_reportedSurvey, Inventory.publications_reportedSurvey, publications_records,
    Host.value_publishResult, Host.publications_publishResult, hstatus]
  cases h.publish (statusOf c h inv.devices) with
  | error e => exact ⟨rfl, rfl⟩
  | ok u => exact ⟨rfl, rfl⟩

/-- A pass with a result has published it. -/
theorem discover_ok_cases (hstatus : (discover c s h).value.1 = .ok status) :
    ∃ inv, (Inventory.survey h []).value = .ok inv ∧ status = statusOf c h inv.devices ∧
      (discover c s h).effects.publications = [status] := by
  cases hinv : (Inventory.survey h []).value with
  | error e =>
    rw [(discover_of_survey_error hinv).1] at hstatus
    cases hstatus
  | ok inv =>
    obtain ⟨hvalue, hpublications⟩ := discover_of_survey (c := c) (s := s) hinv
    rw [hvalue] at hstatus
    cases hp : h.publish (statusOf c h inv.devices) with
    | error e =>
      rw [hp] at hstatus
      cases hstatus
    | ok u =>
      rw [hp] at hstatus
      cases hstatus
      exact ⟨inv, rfl, rfl, hpublications⟩

end NodeDisks.Discovery

/-!
## Partitions

When a device has partitions: the listing of its directory has an entry whose name starts with its
kernel name (`hasPartitions_eq_ok_false_iff`). The test goes by file names, which in an orderly listing
are the names of the entries, except for the one that leads back.
-/

namespace NodeDisks

open NodeDisks.Path

/-- An entry in the directory of a device starts with its kernel name. -/
def Divided (entries : List Path) (kname : String) : Prop :=
  ∃ name, ⟨"/sys/block/" ++ kname ++ "/" ++ name⟩ ∈ entries ∧ kname.toList <+: name.toList

/-- Something is listed in the directory of a device whose name starts with its kernel name. -/
def ShowsPartition (files : FileView) (dir : Path) (kname : String) : Prop :=
  ∃ entries, files.glob ((dir.join kname).join "*").text = .ok entries ∧
    ∃ p ∈ entries, ∃ name, p.fileName? = some name ∧ kname.toList <+: name.toList

variable {files : FileView} {dir : Path} {kname : String} {entries : List Path}

theorem hasPartitions_eq_ok_true_iff :
    hasPartitions files dir kname = .ok true ↔ ShowsPartition files dir kname := by
  unfold hasPartitions ShowsPartition
  cases files.glob ((dir.join kname).join "*").text with
  | error e => simp
  | ok entries =>
    simp only [Except.ok.injEq, List.any_eq_true, exists_eq_left', ← Text.startsWith_iff]
    refine exists_congr fun p => and_congr_right fun _ => ?_
    cases p.fileName? <;> simp

theorem hasPartitions_error_iff : (∃ e, hasPartitions files dir kname = .error e) ↔
    ∃ e, files.glob ((dir.join kname).join "*").text = .error e := by
  unfold hasPartitions
  cases files.glob ((dir.join kname).join "*").text <;> simp

/-- A device that is neither shown as divided nor impossible to tell about is whole. -/
theorem hasPartitions_ne_ok_false_iff : hasPartitions files dir kname ≠ .ok false ↔
    ShowsPartition files dir kname ∨ ∃ e, files.glob ((dir.join kname).join "*").text = .error e := by
  rw [← hasPartitions_eq_ok_true_iff, ← hasPartitions_error_iff]
  rcases hasPartitions files dir kname with e | _ | _ <;> simp

theorem block_eq_spell (kname : String) :
    "/sys/block/" ++ kname = spell ["sys", "block", kname] := by
  simp [spell, ← String.toList_inj]

theorem text_blockPattern (hk : IsLiteralName kname) :
    ((blockDirectory.join kname).join "*").text = spell ["sys", "block", kname] ++ "/*" := by
  have hblock : IsEntryName "block" := by decide
  have hstar : '/' ∉ "*".toList := by decide
  have hroot : blockDirectory = ⟨spell (["sys"] ++ ["block"])⟩ := by decide +kernel
  have hdir := join_spell ["sys"] hblock hk.single
  rw [← hroot, ← spell_concat] at hdir
  have hlisting := join_spell (["sys"] ++ ["block"]) hk.toIsEntryName hstar
  rw [← hdir, String.append_assoc] at hlisting
  rw [hlisting, hdir]
  rfl

/-- Among entries of a directory a file name tells as much as the spelling. -/
theorem hasPartitions_of_listing (hk : IsLiteralName kname)
    (hglob : files.glob (spell ["sys", "block", kname] ++ "/*") = .ok entries)
    (hentries : ∀ p ∈ entries, ∃ name, IsEntryName name ∧
      p = ⟨spell (["sys", "block", kname] ++ [name])⟩) :
    ∃ divided, hasPartitions files blockDirectory kname = .ok divided ∧
      (divided = true ↔ Divided entries kname) := by
  have hsingle : ∀ n ∈ ["sys", "block", kname], '/' ∉ n.toList := by simpa using hk.single
  rw [hasPartitions, text_blockPattern hk, hglob]
  refine ⟨_, rfl, ?_⟩
  simp only [List.any_eq_true, Divided, block_eq_spell, ← spell_concat]
  constructor
  · rintro ⟨p, hp, hstarts⟩
    obtain ⟨name, hname, rfl⟩ := hentries p hp
    rw [fileName?_spell_concat hsingle hname] at hstarts
    split at hstarts
    case h_1 found hfound =>
      split at hfound <;> cases hfound
      exact ⟨name, hp, Text.startsWith_iff.mp hstarts⟩
    case h_2 => cases hstarts
  · rintro ⟨name, hp, hprefix⟩
    refine ⟨_, hp, ?_⟩
    obtain ⟨name', hname, hspell⟩ := hentries _ hp
    obtain rfl : name = name' := by
      rw [Path.mk.injEq, spell_concat, spell_concat] at hspell
      simpa [← String.toList_inj] using hspell
    -- The entry that leads back has no file name, but no kernel name is a beginning of it either.
    have hparent : name ≠ ".." := by
      rintro rfl
      exact hk.not_prefix_parent hprefix
    rw [fileName?_spell_concat hsingle hname, if_neg hparent]
    exact Text.startsWith_iff.mpr hprefix

theorem hasPartitions_eq_ok_false_iff (hfiles : files.Orderly) (hk : IsLiteralName kname) :
    hasPartitions files blockDirectory kname = .ok false ↔
      ∃ entries, files.glob ("/sys/block/" ++ kname ++ "/*") = .ok entries ∧
        ¬Divided entries kname := by
  rw [block_eq_spell]
  cases hglob : files.glob (spell ["sys", "block", kname] ++ "/*") with
  | error e => simp [hasPartitions, text_blockPattern hk, hglob]
  | ok entries =>
    have hnames : ∀ n ∈ ["sys", "block", kname], IsLiteralName n := by
      have hsys : IsLiteralName "sys" := by decide
      have hblock : IsLiteralName "block" := by decide
      simpa using ⟨hsys, hblock, hk⟩
    obtain ⟨divided, hvalue, hdivided⟩ :=
      hasPartitions_of_listing hk hglob (hfiles _ _ (by simp) hnames hglob)
    simp only [hvalue, Except.ok.injEq, exists_eq_left', ← hdivided, Bool.not_eq_true]

end NodeDisks

/-!
## What is shown

What a discovery shows. `Reported` is the condition under which a device is worth showing, and `Shows`
what a published list of records is to the surveyed devices: it has the record of the first reported
device of each identity, and since devices that share an identity are one kernel device, it has the
path of every reported device (`discover_shows`).
-/

namespace NodeDisks.Discovery

open NodeDisks.Path

/-- A device that is worth showing. -/
structure Reported (files : FileView) (d : Device) : Prop where
  named : d.kname ≠ ""
  writable : d.readOnly = false
  running : d.state ≠ "suspended"
  supported : d.type ∈ ["disk", "part", "lvm", "mpath"]
  whole : d.children = []
  undivided : ∃ entries, files.glob ("/sys/block/" ++ d.kname ++ "/*") = .ok entries ∧
    ¬Divided entries d.kname

open Classical in
/-- The records of the devices that are worth showing, in the order of the devices. -/
noncomputable def reports (files : FileView) (node : String) (ds : List Device) :
    List DeviceRecord :=
  (ds.filter fun d => Reported files d).map (shownAs files { nodeName := node })

/-- The records show the devices: each identity once, and every device worth showing by its path. -/
structure Shows (files : FileView) (node : String) (ds : List Device)
    (records : List DeviceRecord) : Prop where
  /-- Of each identity the record that comes first in the order of the devices. -/
  firsts : DeviceRecord.KeepsFirst (reports files node ds) records
  /-- Records with one identity are of one kernel device. -/
  faithful : ∀ d ∈ ds, ∀ d' ∈ ds, Reported files d → Reported files d' →
    (shownAs files { nodeName := node } d).deviceId =
      (shownAs files { nodeName := node } d').deviceId → d.kname = d'.kname
  paths : ∀ path, (∃ r ∈ records, r.path = path) ↔
    ∃ d ∈ ds, Reported files d ∧ path = "/dev/" ++ d.kname

variable {files : FileView} {node : String} {d : Device} {ds : List Device} {r : DeviceRecord}

theorem type?_isNone_eq_false_iff :
    d.type?.isNone = false ↔ d.type ∈ ["disk", "part", "lvm", "mpath"] := by
  rw [← Bool.not_eq_true, Option.isNone_iff_eq_none, ← ne_eq, Option.ne_none_iff_isSome,
    Device.type?, List.lookup_isSome_iff]
  simp [DeviceType.names]

theorem ignores_eq_false_iff {c : Config} : ignores files c d = false ↔
    d.readOnly = false ∧ d.state ≠ "suspended" ∧ d.type ∈ ["disk", "part", "lvm", "mpath"] ∧
      d.children = [] ∧ hasPartitions files c.blockDir d.kname = .ok false := by
  unfold ignores
  simp only [Bool.or_eq_false_iff, Device.isSuspended_eq_false_iff, type?_isNone_eq_false_iff]
  cases hasPartitions files c.blockDir d.kname <;> simp [and_assoc]

theorem reported_iff (hfiles : files.Orderly) (hk : IsLiteralName d.kname) :
    Reported files d ↔ ignores files { nodeName := node } d = false := by
  rw [ignores_eq_false_iff, hasPartitions_eq_ok_false_iff hfiles hk]
  constructor
  · intro H
    exact ⟨H.writable, H.running, H.supported, H.whole, H.undivided⟩
  · rintro ⟨hwritable, hrunning, hsupported, hwhole, hundivided⟩
    exact ⟨hk.nonempty, hwritable, hrunning, hsupported, hwhole, hundivided⟩

theorem mem_reports_iff : r ∈ reports files node ds ↔
    ∃ d ∈ ds, Reported files d ∧ shownAs files { nodeName := node } d = r := by
  simp [reports, and_assoc]

theorem made_eq_reports (hfiles : files.Orderly)
    (hnames : ∀ d ∈ ds, d.kname = "" ∨ IsLiteralName d.kname) :
    made files { nodeName := node } ds = reports files node ds := by
  induction ds with
  | nil => rfl
  | cons d ds ih =>
    obtain ⟨hd, hds⟩ := List.forall_mem_cons.mp hnames
    have ih := ih hds
    rw [made, reports] at ih ⊢
    by_cases hk : d.kname = ""
    · -- Such a device may pass the filter, but has no record.
      have hignored : ¬Reported files d := fun H => H.named hk
      cases hpass : ignores files { nodeName := node } d <;>
        simp [hpass, hignored, recordOf?_of_unnamed hk, ih]
    · have hiff : Reported files d ↔ ignores files { nodeName := node } d = false :=
        reported_iff hfiles (hd.resolve_left hk)
      by_cases H : Reported files d
      · simp [hiff.mp H, H, recordOf?_of_named hk, ih]
      · have hignored := (Bool.not_eq_false _).mp (mt hiff.mpr H)
        simp [hignored, H, ih]

theorem shows_unique (hfiles : files.Orderly)
    (hnames : ∀ d ∈ ds, d.kname = "" ∨ IsLiteralName d.kname) :
    Shows files node ds (DeviceRecord.unique (made files { nodeName := node } ds)) := by
  rw [made_eq_reports hfiles hnames]
  have hfirsts := DeviceRecord.unique_keepsFirst (reports files node ds)
  have hsingle : ∀ d ∈ ds, Reported files d → '/' ∉ d.kname.toList := fun d hd H =>
    ((hnames d hd).resolve_left H.named).single
  have hfaithful : ∀ d ∈ ds, ∀ d' ∈ ds, Reported files d → Reported files d' →
      (shownAs files { nodeName := node } d).deviceId =
        (shownAs files { nodeName := node } d').deviceId → d.kname = d'.kname :=
    fun d hd d' hd' H H' hid =>
      kname_eq_of_identity hfiles (hsingle d hd H) (hsingle d' hd' H') hid
  refine ⟨hfirsts, hfaithful, fun path => ⟨?_, ?_⟩⟩
  · rintro ⟨r, hr, rfl⟩
    obtain ⟨d, hd, H, rfl⟩ := mem_reports_iff.mp (hfirsts.order.mem hr)
    exact ⟨d, hd, H, rfl⟩
  · rintro ⟨d, hd, H, rfl⟩
    -- The record kept for the identity of this device is of the same kernel device.
    obtain ⟨q, hq, hid⟩ := hfirsts.exists_mem (mem_reports_iff.mpr ⟨d, hd, H, rfl⟩)
    obtain ⟨d', hd', H', rfl⟩ := mem_reports_iff.mp (hfirsts.order.mem hq)
    have hkname : d'.kname = d.kname := hfaithful d' hd' d hd H' H hid
    exact ⟨_, hq, congrArg ("/dev/" ++ ·) hkname⟩

/-- A discovery fails with its survey and publishes nothing, or hands over one status for publication
that shows every reported device, and returns it when it is accepted. -/
theorem discover_shows (node : String) (s : State) (h : Host) (hfiles : h.files.Orderly)
    (hnames : ∀ inv, (Inventory.survey h []).value = .ok inv →
      ∀ d ∈ inv.devices, d.kname = "" ∨ IsLiteralName d.kname) :
    let pass := discover { nodeName := node } s h
    (∃ e, (Inventory.survey h []).value = .error e ∧ pass.value.1 = .error e ∧
      pass.effects.publications = []) ∨
    ∃ inv status, (Inventory.survey h []).value = .ok inv ∧
      pass.value.1 = (h.publish status).map (fun _ => status) ∧
      pass.effects.publications = [status] ∧ Shows h.files node inv.devices status.devices := by
  intro pass
  cases hsurvey : (Inventory.survey h []).value with
  | error e =>
    obtain ⟨hvalue, hpublications⟩ := discover_of_survey_error (c := { nodeName := node }) (s := s)
      hsurvey
    exact .inl ⟨e, rfl, by rw [hvalue], hpublications⟩
  | ok inv =>
    obtain ⟨hvalue, hpublications⟩ := discover_of_survey (c := { nodeName := node }) (s := s) hsurvey
    exact .inr ⟨inv, _, rfl, hvalue, hpublications, shows_unique hfiles (hnames inv hsurvey)⟩

/-- A disk that is listed twice, and a multipath device. -/
def sharedDisk : MemoryNode :=
  let node := VolumeSet.listingNode [VolumeSet.listingRow "a" "disk" [],
    VolumeSet.listingRow "a" "disk" [], VolumeSet.listingRow "b" "mpath" []]
  let links := [(⟨"/dev/disk/by-id/wwn-1"⟩, ⟨"/dev/a"⟩), (⟨"/dev/mapper/m"⟩, ⟨"/dev/b"⟩)]
  { node with files := { node.files with links := .ofList links } }

theorem discover_shows_sharedDisk :
    let h := sharedDisk.host
    let pass := discover { nodeName := "n" } .initial h
    h.files.Orderly ∧
      (∀ inv, (Inventory.survey h []).value = .ok inv →
        ∀ d ∈ inv.devices, d.kname = "" ∨ IsLiteralName d.kname) ∧
      ∃ inv status, (Inventory.survey h []).value = .ok inv ∧ pass.value.1 = .ok status ∧
        pass.effects.publications = [status] ∧ Shows h.files "n" inv.devices status.devices ∧
        inv.devices.map (·.kname) = ["a", "a", "b"] := by
  intro h pass
  obtain ⟨inv, hinv, hlisted⟩ : ∃ inv, (Inventory.survey h []).value = .ok inv ∧
      inv.devices.map (·.kname) = ["a", "a", "b"] :=
    exists_ok_of_map (by decide +kernel)
  have hnormal : sharedDisk.files.Normal := by decide +kernel
  have hfiles : h.files.Orderly := hnormal.orderly
  have hnames : ∀ inv, (Inventory.survey h []).value = .ok inv →
      ∀ d ∈ inv.devices, d.kname = "" ∨ IsLiteralName d.kname := by
    intro inv' hinv' d hd
    cases hinv.symm.trans hinv'
    have hkname : d.kname ∈ ["a", "a", "b"] := hlisted ▸ List.mem_map_of_mem hd
    have hall : ∀ k ∈ ["a", "a", "b"], IsLiteralName k := by decide +kernel
    exact .inr (hall _ hkname)
  refine ⟨hfiles, hnames, ?_⟩
  rcases discover_shows "n" .initial h hfiles hnames with
    ⟨e, he, -⟩ | ⟨inv', status, hinv', hvalue, hpublications, hshows⟩
  · cases hinv.symm.trans he
  · cases hinv.symm.trans hinv'
    have haccepted : h.publish status = .ok () := rfl
    rw [haccepted] at hvalue
    exact ⟨inv, status, hinv, hvalue, hpublications, hshows, hlisted⟩

end NodeDisks.Discovery
