import NodeDisks.Device
import NodeDisks.Proofs.Text
import NodeDisks.Proofs.VolumeSet.Pass

/-!
Mounts: what the scan of a mount table finds, and which mounted devices it keeps out.
-/

/-!
## The scan

Scanning a mount table that is made of records. The lone `-` of a `Plain` record is found behind its
last optional field, whatever their number, so a record is read for what it is (`ofLine?_line`). Lines
without the name are passed over, but a mount of the device has the name in it (`infix_line`), and the
scan gives the first mount of the device (`find?_eq`, `find?_first_mount`).
-/

namespace NodeDisks

/-- A record of the mount table, field by field. -/
structure MountRecord where
  id : String
  parent : String
  /-- Major and minor number of the device. -/
  device : String
  root : String
  mountPoint : String
  options : String
  /-- Any number of fields, ended by a lone `-`. -/
  optional : List String
  fsType : String
  source : String
  superOptions : String

namespace MountRecord

/-- The fields in front of the separator. -/
def front (r : MountRecord) : List String :=
  r.id :: r.parent :: r.device :: r.root :: r.mountPoint :: r.options :: r.optional

/-- The fields behind the separator. -/
def back (r : MountRecord) : List String := [r.fsType, r.source, r.superOptions]

def fields (r : MountRecord) : List (List Char) := (r.front ++ "-" :: r.back).map String.toList

/-- The record in the table, with one blank between its fields. -/
def line (r : MountRecord) : List Char := [' '].intercalate r.fields

/-- The table as the kernel writes it. -/
def table (rs : List MountRecord) : String :=
  String.ofList ((rs.map line).flatMap (· ++ ['\n']))

/-- Every field is a word, and the first `-` is the separator. -/
structure Plain (r : MountRecord) : Prop where
  words : ∀ f ∈ r.front ++ r.back, Text.IsWord f.toList
  unseparated : "-" ∉ r.front

instance (r : MountRecord) : Decidable r.Plain :=
  decidable_of_iff ((∀ f ∈ r.front ++ r.back, Text.IsWord f.toList) ∧ "-" ∉ r.front)
    ⟨fun ⟨h₁, h₂⟩ => ⟨h₁, h₂⟩, fun ⟨h₁, h₂⟩ => ⟨h₁, h₂⟩⟩

/-- The record mounts the device node by itself, or what is on the device. -/
def Mounts (kname : String) (r : MountRecord) : Prop :=
  r.root = "/" ++ kname ∨ r.source = "/dev/" ++ kname

instance (kname : String) : DecidablePred (Mounts kname) := fun _ => instDecidableOr

def reference (r : MountRecord) : MountReference := ⟨r.mountPoint, r.source⟩

variable {r : MountRecord} {rs : List MountRecord} {text kname : String}

namespace Plain

theorem isWord_of_mem (H : r.Plain) : ∀ f ∈ r.fields, Text.IsWord f := by
  intro f hf
  obtain ⟨s, hs, rfl⟩ := List.mem_map.mp hf
  rcases List.mem_append.mp hs with hfront | hback
  · exact H.words s (List.mem_append_left _ hfront)
  · rcases List.mem_cons.mp hback with rfl | hback
    · decide
    · exact H.words s (List.mem_append_right _ hback)

theorem words_line (H : r.Plain) : Text.words r.line = r.fields :=
  Text.words_intercalate H.isWord_of_mem

theorem feed_not_mem_line (H : r.Plain) : '\n' ∉ r.line :=
  Text.feed_not_mem_intercalate H.isWord_of_mem

theorem dropReturn_line (H : r.Plain) : Text.dropReturn r.line = r.line :=
  Text.dropReturn_of_not_blank (Text.getLast?_intercalate H.isWord_of_mem)

/-- The separator stands right behind the front, and the source two places further on. -/
theorem sourceOf_fields (H : r.Plain) : MountReference.sourceOf r.fields = r.source.toList := by
  have hfront : (r.front.map String.toList).findIdx? (· == ['-']) = none := by
    rw [List.findIdx?_eq_none_iff]
    intro f hf
    obtain ⟨s, hs, rfl⟩ := List.mem_map.mp hf
    have hne : s ≠ "-" := fun h => H.unseparated (h ▸ hs)
    simpa using fun h => hne (String.toList_inj.mp h)
  have hfields : r.fields = r.front.map String.toList ++ ['-'] :: r.back.map String.toList := by
    simp [fields]
  have hsep : r.fields.findIdx? (· == ['-']) = some (r.front.map String.toList).length := by
    simp [hfields, List.findIdx?_append, hfront, List.findIdx?_cons]
  rw [MountReference.sourceOf, hsep, hfields]
  simp [back]

end Plain

/-! ### One record -/

theorem mounts_iff : r.Mounts kname ↔ r.root.toList = '/' :: kname.toList ∨
    r.source.toList = "/dev/".toList ++ kname.toList := by
  simp [Mounts, ← String.toList_inj]

theorem ofLine?_line (H : r.Plain) :
    MountReference.ofLine? kname r.line = if r.Mounts kname then some r.reference else none := by
  have hsource := H.sourceOf_fields
  rw [MountReference.ofLine?, H.words_line]
  simp only [fields, front, back, List.map_append, List.map_cons, List.map_nil, List.cons_append]
    at hsource ⊢
  simp only [hsource, Bool.or_eq_true, decide_eq_true_eq, ← mounts_iff, String.ofList_toList,
    reference]

/-- A mount of the device has its name in it. -/
theorem infix_line (H : r.Mounts kname) : kname.toList <:+: r.line := by
  rcases mounts_iff.mp H with hroot | hsource
  · have hfield : r.root.toList ∈ r.fields := List.mem_map_of_mem (by simp [front])
    rw [hroot] at hfield
    exact (List.suffix_cons '/' kname.toList).isInfix.trans (Text.infix_intercalate hfield)
  · have hfield : r.source.toList ∈ r.fields := List.mem_map_of_mem (by simp [back])
    rw [hsource] at hfield
    exact (List.suffix_append _ kname.toList).isInfix.trans (Text.infix_intercalate hfield)

/-! ### The table -/

theorem lined_table (hplain : ∀ r ∈ rs, r.Plain) : Text.Lined (rs.map line) (table rs).toList := by
  rw [table, String.toList_ofList]
  refine Text.lined_flatMap fun l hl => ?_
  obtain ⟨r, hr, rfl⟩ := List.mem_map.mp hl
  exact (hplain r hr).feed_not_mem_line

theorem findSome?_lines (hplain : ∀ r ∈ rs, r.Plain) :
    ((rs.map line).filter (Text.occursIn kname.toList)).findSome? (MountReference.ofLine? kname) =
      (rs.find? (·.Mounts kname)).map reference := by
  induction rs with
  | nil => rfl
  | cons r rs ih =>
    obtain ⟨hr, hplain⟩ := List.forall_mem_cons.mp hplain
    rw [List.map_cons]
    by_cases hmounts : r.Mounts kname
    · have hline : Text.occursIn kname.toList r.line = true :=
        Text.occursIn_iff.mpr (infix_line hmounts)
      rw [List.filter_cons_of_pos hline, List.findSome?_cons, ofLine?_line hr, if_pos hmounts,
        List.find?_cons_of_pos (by simpa using hmounts)]
      rfl
    · rw [List.find?_cons_of_neg (by simpa using hmounts), ← ih hplain, List.filter_cons]
      split
      · rw [List.findSome?_cons, ofLine?_line hr, if_neg hmounts]
      · rfl

theorem find?_eq (hplain : ∀ r ∈ rs, r.Plain) (htext : Text.Lined (rs.map line) text.toList)
    (hkname : kname ≠ "") :
    MountReference.find? text kname = (rs.find? (·.Mounts kname)).map reference := by
  have hlines : Text.lines text.toList = rs.map line := by
    refine htext.lines_eq fun l hl => ?_
    obtain ⟨r, hr, rfl⟩ := List.mem_map.mp hl
    exact (hplain r hr).dropReturn_line
  rw [MountReference.find?, if_neg (by simpa using hkname), hlines, findSome?_lines hplain]

theorem find?_eq_none_iff (hplain : ∀ r ∈ rs, r.Plain)
    (htext : Text.Lined (rs.map line) text.toList) (hkname : kname ≠ "") :
    MountReference.find? text kname = none ↔ ∀ r ∈ rs, ¬r.Mounts kname := by
  rw [find?_eq hplain htext hkname, Option.map_eq_none_iff, List.find?_eq_none]
  simp only [decide_eq_true_eq]

/-- The scan of a table gives the first record that mounts the device, and nothing when there is
none. -/
theorem find?_first_mount (hplain : ∀ r ∈ rs, r.Plain)
    (htext : Text.Lined (rs.map line) text.toList) (hkname : kname ≠ "") :
    (∀ m, MountReference.find? text kname = some m ↔ ∃ before r after,
      rs = before ++ r :: after ∧ (∀ b ∈ before, ¬b.Mounts kname) ∧ r.Mounts kname ∧
        m = ⟨r.mountPoint, r.source⟩) ∧
    (MountReference.find? text kname = none ↔ ∀ r ∈ rs, ¬r.Mounts kname) := by
  refine ⟨fun m => ?_, find?_eq_none_iff hplain htext hkname⟩
  simp only [find?_eq hplain htext hkname, Option.map_eq_some_iff, List.find?_eq_some_iff_append,
    decide_eq_true_eq, Bool.not_eq_true', decide_eq_false_iff_not]
  constructor
  · rintro ⟨r, ⟨hr, before, after, rfl, hbefore⟩, rfl⟩
    exact ⟨before, r, after, rfl, hbefore, hr, rfl⟩
  · rintro ⟨before, r, after, rfl, hbefore, hr, rfl⟩
    exact ⟨r, ⟨hr, before, after, rfl, hbefore⟩, rfl⟩

/-- A partition, then the node of its disk by itself, then the disk. -/
def diskRecords : List MountRecord := [
  ⟨"1", "0", "8:17", "/", "/data", "rw", ["shared:1", "master:2"], "ext4", "/dev/sdb1", "rw"⟩,
  ⟨"2", "0", "0:5", "/sdb", "/mnt/sdb", "rw", [], "devtmpfs", "devtmpfs", "rw"⟩,
  ⟨"3", "0", "8:16", "/", "/pods", "rw", ["shared:3"], "-", "/dev/sdb", "rw"⟩]

/-- The partition has the name of the disk in its own, and is passed over. -/
theorem find?_first_mount_diskRecords :
    (∀ r ∈ diskRecords, r.Plain) ∧ Text.Lined (diskRecords.map line) (table diskRecords).toList ∧
      MountReference.find? (table diskRecords) "sdb" = some ⟨"/mnt/sdb", "devtmpfs"⟩ ∧
      MountReference.find? (table diskRecords) "sd" = none := by
  have hplain : ∀ r ∈ diskRecords, r.Plain := by decide
  have htable := lined_table hplain
  refine ⟨hplain, htable, ?_, ?_⟩
  · exact ((find?_first_mount hplain htable (by decide)).1 _).mpr
      ⟨[_], _, [_], rfl, by decide, by decide, rfl⟩
  · exact (find?_first_mount hplain htable (by decide)).2.mpr (by decide)

end MountRecord

end NodeDisks

/-!
## Mounted devices

Mounted devices. The standard tests look into the mount table for the kernel name of a device only,
while a mount may go by any of the nodes under which the signatures of the device are looked up
(`MountRecord.Uses`). So a device with a mount is kept out by it exactly when some mount goes by the
kernel name (`MountsJudged`); a mapped device that is mounted under its mapped name gets through.
-/

namespace NodeDisks

/-- The source of the mount is one of the nodes under which the signature of the device is looked up, or
the mount is one of its kernel node by itself. -/
def MountRecord.Uses (d : Device) (r : MountRecord) : Prop :=
  r.source ∈ ["/dev/" ++ d.kname, "/dev/" ++ d.name, "/dev/mapper/" ++ d.name] ∨
    r.root = "/" ++ d.kname

instance (d : Device) : DecidablePred (MountRecord.Uses d) := fun _ => instDecidableOr

theorem MountRecord.Mounts.uses {d : Device} {r : MountRecord} (H : r.Mounts d.kname) :
    r.Uses d := by
  rcases H with hroot | hsource
  · exact .inr hroot
  · exact .inl (by rw [hsource]; exact .head _)

namespace Filter

/-- The standard tests but for the one that looks into the mount table. -/
def besideMounts (h : Host) (mountTable : Path) : List Filter :=
  (standardFilters h mountTable).filter (·.name != "noBindMounts")

/-- What the mounts `rs` of a node decide about a device. -/
structure MountsJudged (h : Host) (mountTable : Path) (rs : List MountRecord) (d : Device) :
    Prop where
  /-- The device passes when the other tests let it pass and what uses it goes by other names. -/
  pass_iff : (judge (standardFilters h mountTable) d).value = .pass ↔
    (judge (besideMounts h mountTable) d).value = .pass ∧
      ∀ r ∈ rs, r.Uses d → r.root ≠ "/" ++ d.kname ∧ r.source ≠ "/dev/" ++ d.kname
  /-- A mount that goes by the kernel name keeps the device out of every volume set. -/
  withheld : ∀ r ∈ rs, r.root = "/" ++ d.kname ∨ r.source = "/dev/" ++ d.kname →
    ∀ c spec labels s o, c.mountTable = mountTable →
      (VolumeSet.reconcile c spec labels s h).value.1 = .ok o → d ∉ o.valid ∧ d ∉ o.delayed

variable {h : Host} {mountTable : Path} {d : Device} {rs : List MountRecord} {text : String}

theorem eq_noBindMounts {f : Filter} (hf : f ∈ standardFilters h mountTable)
    (hname : f.name = "noBindMounts") : f = noBindMounts h mountTable := by
  simp only [standardFilters, List.mem_cons, List.not_mem_nil, or_false] at hf
  rcases hf with rfl | rfl | rfl | rfl | rfl | rfl | rfl | rfl
  case inr.inr.inr.inr.inr.inr.inl => rfl
  all_goals simp [ofBool, ofDevice, canOpenExclusively] at hname

theorem judge_standardFilters_iff : (judge (standardFilters h mountTable) d).value = .pass ↔
    (judge (besideMounts h mountTable) d).value = .pass ∧
      ((noBindMounts h mountTable).check d).value = .ok true := by
  simp only [judge_pass_iff, besideMounts, List.mem_filter, bne_iff_ne]
  constructor
  · exact fun H => ⟨fun f hf => H f hf.1, H _ (by simp [standardFilters])⟩
  · rintro ⟨hbeside, hmounts⟩ f hf
    by_cases hname : f.name = "noBindMounts"
    · rwa [eq_noBindMounts hf hname]
    · exact hbeside f ⟨hf, hname⟩

theorem named_of_besideMounts (H : (judge (besideMounts h mountTable) d).value = .pass) :
    d.kname ≠ "" := by
  have hopens : canOpenExclusively h ∈ besideMounts h mountTable := by
    simp [besideMounts, standardFilters, canOpenExclusively]
  exact (canOpenExclusively_ok_iff.mp (judge_pass_iff.mp H _ hopens)).1

theorem pass_iff_of_mounts (hplain : ∀ r ∈ rs, r.Plain)
    (htext : Text.Lined (rs.map MountRecord.line) text.toList)
    (hread : h.files.read mountTable = .ok text) :
    (judge (standardFilters h mountTable) d).value = .pass ↔
      (judge (besideMounts h mountTable) d).value = .pass ∧ ∀ r ∈ rs, ¬r.Mounts d.kname := by
  rw [judge_standardFilters_iff]
  refine and_congr_right fun hbeside => ?_
  rw [← MountRecord.find?_eq_none_iff hplain htext (named_of_besideMounts hbeside),
    noBindMounts_ok_iff]
  simp [hread]

/-- With the mount table made of the records, a device passes the standard tests when the other tests
let it pass and no mount that uses it goes by its kernel name. With such a mount, no pass takes the
device or has it wait. -/
theorem mounts_judged (hplain : ∀ r ∈ rs, r.Plain)
    (htext : Text.Lined (rs.map MountRecord.line) text.toList)
    (hread : h.files.read mountTable = .ok text) (d : Device) : MountsJudged h mountTable rs d where
  pass_iff := by
    rw [pass_iff_of_mounts hplain htext hread]
    refine and_congr_right fun _ => forall₂_congr fun r _ => ?_
    constructor
    · exact fun H _ => not_or.mp H
    · exact fun H hmounts => not_or.mpr (H hmounts.uses) hmounts
  withheld r hr hmounts c spec labels s o hc ho := by
    have hnot : ¬Eligible h c.mountTable d := by
      rw [hc, ← standardFilters_pass_iff, pass_iff_of_mounts hplain htext hread]
      exact fun H => H.2 r hr hmounts
    constructor
    · intro hd
      obtain ⟨inv, -, -, heligible, -⟩ := VolumeSet.taken_of_reconcile ho hd
      exact hnot heligible
    · intro hd
      obtain ⟨inv, -, -, heligible, -⟩ := VolumeSet.delayed_of_reconcile ho hd
      exact hnot heligible

/-- A mapped volume that is mounted under its mapped name, and a disk that is mounted as it is. -/
def mappedMounts : List MountRecord := [
  ⟨"1", "0", "253:0", "/", "/data", "rw", ["shared:1"], "xfs", "/dev/mapper/mpatha", "rw"⟩,
  ⟨"2", "0", "8:16", "/", "/pods", "rw", [], "ext4", "/dev/sdb", "rw"⟩]

def mappedDevice : Device :=
  { Device.blank with name := "mpatha", kname := "dm-0", type := "mpath" }

def mountedDisk : Device := { Device.blank with name := "sdb", kname := "sdb", type := "disk" }

/-- A node with these mounts and both devices. -/
def mappedNode : MemoryNode :=
  let row := Json.object
    [("name", .text "mpatha"), ("kname", .text "dm-0"), ("type", .text "mpath")]
  { VolumeSet.listingNode [row, VolumeSet.listingRow "sdb" "disk" []] with
    files := MemoryFiles.empty.addFile ⟨"/m"⟩ (MountRecord.table mappedMounts) }

theorem mappedMounts_plain : ∀ r ∈ mappedMounts, r.Plain := by decide

theorem read_mappedNode :
    mappedNode.host.files.read ⟨"/m"⟩ = .ok (MountRecord.table mappedMounts) := by
  obtain ⟨text, hread, htext⟩ := exists_ok_of_map (f := id)
    (r := mappedNode.host.files.read ⟨"/m"⟩) (b := MountRecord.table mappedMounts)
    (by decide +kernel)
  rw [hread, ← htext, id]

theorem besideMounts_mappedDevice :
    (judge (besideMounts mappedNode.host ⟨"/m"⟩) mappedDevice).value = .pass := by decide +kernel

/-- Both devices are in use, and the mapped one passes. -/
theorem mounts_judged_mappedNode :
    (∀ r ∈ mappedMounts, r.Plain) ∧
      Text.Lined (mappedMounts.map MountRecord.line) (MountRecord.table mappedMounts).toList ∧
      mappedNode.host.files.read ⟨"/m"⟩ = .ok (MountRecord.table mappedMounts) ∧
      (∃ r ∈ mappedMounts, r.Uses mappedDevice) ∧ (∃ r ∈ mappedMounts, r.Uses mountedDisk) ∧
      (judge (standardFilters mappedNode.host ⟨"/m"⟩) mappedDevice).value = .pass ∧
      (judge (standardFilters mappedNode.host ⟨"/m"⟩) mountedDisk).value ≠ .pass := by
  have htext := MountRecord.lined_table mappedMounts_plain
  have hread := read_mappedNode
  have hmapped := mounts_judged mappedMounts_plain htext hread mappedDevice
  have hdisk := mounts_judged mappedMounts_plain htext hread mountedDisk
  refine ⟨mappedMounts_plain, htext, hread, by decide, by decide, ?_, fun hpass => ?_⟩
  · exact hmapped.pass_iff.mpr ⟨besideMounts_mappedDevice, by decide⟩
  · exact absurd (hdisk.pass_iff.mp hpass).2 (by decide)

/-- It is not so that a device in use never passes, and a pass takes such a device. -/
theorem used_not_always_refused :
    (¬∀ d, (∃ r ∈ mappedMounts, r.Uses d) →
      (judge (standardFilters mappedNode.host ⟨"/m"⟩) d).value ≠ .pass) ∧
    ∃ o, (VolumeSet.reconcile { minAge := 0, mountTable := ⟨"/m"⟩ } VolumeSet.anySize [] .initial
        mappedNode.host).value.1 = .ok o ∧ o.valid.map (·.kname) = ["dm-0"] := by
  constructor
  · intro hall
    exact hall mappedDevice (by decide) (by decide +kernel)
  · exact exists_ok_of_map (by decide +kernel)

end Filter

end NodeDisks
