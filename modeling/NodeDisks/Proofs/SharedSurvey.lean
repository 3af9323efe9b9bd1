import NodeDisks.Proofs.Discovery
import NodeDisks.Proofs.VolumeSet.Pass

/-!
Discovery and volume sets over one survey: both keep away from a device with a signature, and
where their conditions overlap they agree.
-/

/-!
## Signatures

Devices with a signature stay out of reach. A signature that the signature tool finds for a row, at
whatever depth the listing has it, is in every copy of the device that a survey returns, so no pass
over a volume set takes the device or has it wait, and a discovery does not call it available
(`survey_keeps_signatures`).
-/

namespace NodeDisks

/-- What becomes of the devices that the map has signatures for, of those that a survey listed. -/
structure Signatures.Guards (found : Signatures) (h : Host) (devices : List Device) : Prop where
  /-- No pass over a volume set takes or delays one, whatever it remembers. -/
  refused : ∀ c spec labels s o, (VolumeSet.reconcile c spec labels s h).value.1 = .ok o →
    ∀ d, d ∈ o.valid ∨ d ∈ o.delayed → ∀ t, ¬found.Signs d t
  /-- Discoveries show the records of listed devices. -/
  shown : ∀ c s status, (Discovery.discover c s h).value.1 = .ok status →
    ∀ r ∈ status.devices, ∃ d ∈ devices, Discovery.shownAs h.files c d = r
  /-- The record of one says that it is not available, or, for a multipath device, that this is not
  known. -/
  unavailable : ∀ c, ∀ d ∈ devices, ∀ t, found.Signs d t →
    (Discovery.shownAs h.files c d).state =
      if d.type = "mpath" then .unknown else .notAvailable

variable {h : Host} {only : List String} {found : Signatures} {listing inv : Inventory}
  {d : Device} {t : String}

theorem Signatures.Signs.ne_empty (H : found.Signs d t)
    (hne : ∀ node t, found.lookup node = some t → t ≠ "") : t ≠ "" := by
  cases H with
  | byName hname => exact hne _ _ hname
  | byKernelName _ hkname => exact hne _ _ hkname
  | mapped _ _ hmapped => exact hne _ _ hmapped

namespace VolumeSet

variable {c : Config} {spec : VolumeSetSpec} {labels : NodeLabels} {s : State} {o : Outcome}

/-- What a pass takes or delays was listed without a signature. -/
theorem fsType_of_taken (hinv : (Inventory.survey h []).value = .ok inv)
    (ho : (reconcile c spec labels s h).value.1 = .ok o) (hd : d ∈ o.valid ∨ d ∈ o.delayed) :
    d ∈ inv.devices ∧ d.fsType = "" := by
  rcases hd with hvalid | hdelayed
  · obtain ⟨inv', H, hmem, heligible, -⟩ := taken_of_reconcile ho hvalid
    cases Except.ok.inj (hinv.symm.trans H.surveyed)
    exact ⟨hmem, heligible.noSignature⟩
  · obtain ⟨inv', H, hmem, heligible, -⟩ := delayed_of_reconcile ho hdelayed
    cases Except.ok.inj (hinv.symm.trans H.surveyed)
    exact ⟨hmem, heligible.noSignature⟩

end VolumeSet

/-- The records of a status stem from the devices that the survey listed. -/
theorem Discovery.exists_shownAs {c : Config} {s : State} {status : DiscoveryStatus}
    (hinv : (Inventory.survey h []).value = .ok inv)
    (hstatus : (discover c s h).value.1 = .ok status) {r : DeviceRecord} (hr : r ∈ status.devices) :
    ∃ d ∈ inv.devices, shownAs h.files c d = r := by
  obtain ⟨inv', hinv', rfl, -⟩ := discover_ok_cases hstatus
  cases Except.ok.inj (hinv.symm.trans hinv')
  have hmade : r ∈ made h.files c inv.devices :=
    (DeviceRecord.unique_keepsFirst _).order.subset hr
  obtain ⟨d, hd, -, -, hshown⟩ := mem_made_iff.mp hmade
  exact ⟨d, hd, hshown⟩

namespace Inventory

theorem signatures_guard (hinv : (survey h []).value = .ok inv)
    (hsigned : ∀ d ∈ inv.devices, ∀ t, found.Signs d t → d.fsType ≠ "") :
    found.Guards h inv.devices where
  refused c spec labels s o ho d hd t ht := by
    obtain ⟨hmem, hnone⟩ := VolumeSet.fsType_of_taken hinv ho hd
    exact hsigned d hmem t ht hnone
  shown c s status hstatus r hr := Discovery.exists_shownAs hinv hstatus hr
  unavailable c d hd t ht := Discovery.state_of_signature (hsigned d hd t ht)

/-- When both tools answer and no signature is empty, the survey lists every row with the signature
that the map has for it, in its own entry and in the copies within others, and nothing on the node
takes such a device for a free one. -/
theorem survey_keeps_signatures (H : Reads h only found listing)
    (hne : ∀ node t, found.lookup node = some t → t ≠ "") :
    ∃ inv, (survey h only).value = .ok inv ∧ found.Kept listing.devices inv.devices ∧
      (∀ a ∈ inv.devices, ∀ x, x.Within a → ∀ t, found.Signs x t → x.fsType ≠ "") ∧
      (only = [] → found.Guards h inv.devices) := by
  have hkept : found.Kept listing.devices (merged found listing).devices := found.kept _
  have hsigned : ∀ a ∈ (merged found listing).devices, ∀ x, x.Within a → ∀ t,
      found.Signs x t → x.fsType ≠ "" := by
    intro a ha x hx t ht
    rw [hkept.signed a ha x hx t ht]
    exact ht.ne_empty hne
  refine ⟨merged found listing, H.survey, hkept, hsigned, ?_⟩
  rintro rfl
  exact signatures_guard H.survey fun d hd => hsigned d hd d .self

/-- A volume on a partition on a disk, of which only the volume has a signature, and that under its
mapped name. -/
def stackedVolume : MemoryNode :=
  let volume := VolumeSet.listingRow "c" "lvm" []
  let partition := VolumeSet.listingRow "b" "part" [("children", .array [volume])]
  let node := VolumeSet.listingNode
    [VolumeSet.listingRow "a" "disk" [("children", .array [partition])]]
  { node with script := node.script.respond "blkid" ⟨some 0, "/dev/mapper/c: TYPE=\"ext4\"\n"⟩ }

/-- The signature of the volume is kept, two levels down. -/
theorem survey_keeps_signatures_stackedVolume : ∃ found listing inv,
    Reads stackedVolume.host [] found listing ∧
      (∀ node t, found.lookup node = some t → t ≠ "") ∧
      (survey stackedVolume.host []).value = .ok inv ∧
      found.Kept listing.devices inv.devices ∧ found.Guards stackedVolume.host inv.devices ∧
      inv.devices.map (fun d => (d.kname, d.fsType)) = [("a", ""), ("b", ""), ("c", "ext4")] := by
  obtain ⟨inv, hinv, hlisted⟩ := exists_ok_of_map
    (r := (survey stackedVolume.host []).value)
    (f := fun inv => inv.devices.map fun d => (d.kname, d.fsType))
    (b := [("a", ""), ("b", ""), ("c", "ext4")]) (by decide +kernel)
  obtain ⟨found, listing, H, rfl⟩ := exists_reads_of_survey hinv
  obtain ⟨found', hfound, hentries⟩ := exists_ok_of_map
    (r := (signatures stackedVolume.host []).value) (f := id)
    (b := [("/dev/mapper/c", "ext4")]) (by decide +kernel)
  have hsame : found = found' := Except.ok.inj (H.found.symm.trans hfound)
  have hne : ∀ node t, found.lookup node = some t → t ≠ "" := by
    intro node t ht
    rw [hsame.trans hentries, List.lookup_cons, List.lookup_nil] at ht
    split at ht
    · cases ht
      decide
    · cases ht
  obtain ⟨inv', hinv', hkept, -, hguards⟩ := survey_keeps_signatures H hne
  cases Except.ok.inj (hinv.symm.trans hinv')
  exact ⟨found, listing, _, H, hne, hinv, hkept, hguards rfl, hlisted⟩

end Inventory

end NodeDisks

/-!
## Availability

Discovery and volume sets on one device. Both look at the attributes of a device, each in its own
order and for its own ends. Where they overlap they agree (`discovery_agrees_with_reconcile`): what is
`Eligible` has neither a signature nor a boot label, so it is not called unavailable
(`state_of_eligible`), and what a pass takes has all that discovery asks for but for the partitions in
the kernel's own tree, which volume sets do not look at.
-/

namespace NodeDisks

open VolumeSet (reconcile)

/-- What discovery and the passes over volume sets say about a device. -/
structure Agrees (files : FileView) (dc : Discovery.Config) (d : Device) : Prop where
  /-- If a pass takes the device, it is ignored only on account of its partitions. -/
  ignored : ∀ c spec labels s h o, (reconcile c spec labels s h).value.1 = .ok o → d ∈ o.valid →
    (Discovery.ignores files dc d = true ↔ ShowsPartition files dc.blockDir d.kname ∨
      ∃ e, files.glob ((dc.blockDir.join d.kname).join "*").text = .error e)
  /-- If a pass takes the device, it has a record, which does not call it unavailable. -/
  recorded : ∀ c spec labels s h o, (reconcile c spec labels s h).value.1 = .ok o → d ∈ o.valid →
    ∃ r missing, Discovery.recordOf? files dc d = some (r, missing) ∧
      r.state = if d.type = "mpath" then .unknown else .available
  /-- If the record calls the device unavailable, no pass takes it or has it wait. -/
  withheld : ∀ r missing, Discovery.recordOf? files dc d = some (r, missing) →
    r.state = .notAvailable → ∀ c spec labels s h o,
      (reconcile c spec labels s h).value.1 = .ok o → d ∉ o.valid ∧ d ∉ o.delayed

variable {files : FileView} {dc : Discovery.Config} {d : Device} {h : Host} {table : Path}
  {spec : InclusionSpec} {r : DeviceRecord} {missing : Bool}

/-! ### States -/

theorem Discovery.state_of_recordOf? (H : recordOf? files dc d = some (r, missing)) :
    r.state = state d := by
  by_cases hk : d.kname = ""
  · rw [recordOf?_of_unnamed hk] at H
    cases H
  · have hr : (recordOf? files dc d).map (·.1) = _ := recordOf?_of_named hk
    rw [H] at hr
    cases hr
    rfl

theorem Discovery.exists_recordOf? (files : FileView) (dc : Config) (hk : d.kname ≠ "") :
    ∃ r missing, recordOf? files dc d = some (r, missing) := by
  have hr : (recordOf? files dc d).map (·.1) = _ := recordOf?_of_named hk
  obtain ⟨⟨r, missing⟩, hrecord, -⟩ := Option.map_eq_some_iff.mp hr
  exact ⟨r, missing, hrecord⟩

theorem state_of_eligible (H : Filter.Eligible h table d) :
    Discovery.state d = if d.type = "mpath" then .unknown else .available := by
  have hboot : d.hasBootLabel = false :=
    Device.hasBootLabel_eq_false_iff.mpr ⟨H.noBios, H.noBoot⟩
  have hsignature : d.hasFilesystem = false := Device.hasFilesystem_eq_false_iff.mpr H.noSignature
  by_cases htype : d.type = "mpath"
  · simp [Discovery.state, Identity.isMultipath_iff.mpr htype, htype]
  · have hmultipath : d.isMultipath = false := by
      rw [← Bool.not_eq_true, Identity.isMultipath_iff]
      exact htype
    simp [Discovery.state, Device.availability, hmultipath, htype, hboot, hsignature]

theorem not_eligible_of_unavailable (hstate : Discovery.state d = .notAvailable) :
    ¬Filter.Eligible h table d := by
  intro H
  rw [state_of_eligible H] at hstate
  split at hstate <;> cases hstate

/-! ### Ignored devices -/

theorem supported_of_accepts (H : spec.Accepts d) : d.type ∈ ["disk", "part", "lvm", "mpath"] := by
  obtain ⟨t, -, ht⟩ := H.type
  rw [← Discovery.type?_isNone_eq_false_iff, ht]
  rfl

theorem ignores_iff_of_taken (heligible : Filter.Eligible h table d) (haccepts : spec.Accepts d) :
    Discovery.ignores files dc d = true ↔ hasPartitions files dc.blockDir d.kname ≠ .ok false := by
  rw [← Bool.not_eq_false, Discovery.ignores_eq_false_iff]
  refine not_congr ⟨fun H => H.2.2.2.2, fun H => ?_⟩
  exact ⟨heligible.writable, heligible.running, supported_of_accepts haccepts,
    heligible.noChildren, H⟩

/-- What discovery shows of a device and what a pass over a volume set does with it agree, for every
pass on every node. -/
theorem discovery_agrees_with_reconcile (files : FileView) (dc : Discovery.Config) (d : Device) :
    Agrees files dc d where
  ignored c spec labels s h o ho hd := by
    obtain ⟨-, -, -, heligible, -, haccepts⟩ := VolumeSet.taken_of_reconcile ho hd
    rw [ignores_iff_of_taken heligible haccepts, hasPartitions_ne_ok_false_iff]
  recorded c spec labels s h o ho hd := by
    obtain ⟨-, -, -, heligible, -⟩ := VolumeSet.taken_of_reconcile ho hd
    obtain ⟨r, missing, hr⟩ := Discovery.exists_recordOf? files dc heligible.named
    refine ⟨r, missing, hr, ?_⟩
    rw [Discovery.state_of_recordOf? hr, state_of_eligible heligible]
  withheld r missing hr hstate c spec labels s h o ho := by
    rw [Discovery.state_of_recordOf? hr] at hstate
    constructor
    · intro hd
      obtain ⟨-, -, -, heligible, -⟩ := VolumeSet.taken_of_reconcile ho hd
      exact not_eligible_of_unavailable hstate heligible
    · intro hd
      obtain ⟨-, -, -, heligible, -⟩ := VolumeSet.delayed_of_reconcile ho hd
      exact not_eligible_of_unavailable hstate heligible

end NodeDisks
