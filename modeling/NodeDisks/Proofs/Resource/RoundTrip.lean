import NodeDisks.Event
import NodeDisks.Proofs.Host.Writing
import NodeDisks.Proofs.Json.Codec
import NodeDisks.Publication
import NodeDisks.Resource

/-!
Discovery results, volume sets and events are read as they were written, from values and from texts.
For each record there are two lemmas: its entries restore it, one field after the other (`rereads`), and
its text is read at the depth that it needs (`regular`). A result that was published to a file is read
back from there (`reread_of_publish`).
-/

namespace NodeDisks

open Json (Rereads Regular RoundTrips rereads_text rereads_text? rereads_texts rereads_natural
  rereads_natural? rereads_named rereads_names rereads_list rereads_option regular_object_iff)

/-! ### Names -/

theorem Availability.lookup_name (s : Availability) : names.lookup s.name = some s := by
  cases s <;> rfl

theorem DeviceType.lookup_name (t : DeviceType) : names.lookup t.name = some t := by
  cases t <;> rfl

theorem MechanicalProperty.lookup_name (p : MechanicalProperty) :
    names.lookup p.name = some p := by
  cases p <;> rfl

theorem SelectorOperator.lookup_name (o : SelectorOperator) : names.lookup o.name = some o := by
  cases o <;> rfl

/-! ### Discovery results -/

namespace DeviceRecord

theorem fields_commute : record.fields.Pairwise Field.Commutes := by
  simp only [record, List.pairwise_cons, List.forall_mem_cons, List.not_mem_nil,
    false_imp_iff, implies_true, and_true, List.Pairwise.nil]
  and_intros <;> exact Field.commutes_of_sets rfl rfl fun _ _ _ => rfl

theorem rereads_state :
    Rereads (fun s : Availability => .object [("state", .text s.name)]) stateRecord.ofJson := by
  intro s j H
  exact Record.Restores.ofJson
    (.cons rfl rfl (rereads_named Availability.lookup_name s) .nil)
    (by decide) (by decide) (List.pairwise_singleton _ _) H

theorem rereads_type? : Rereads (fun t? => Json.ofText? (t?.map DeviceType.name))
    (Json.toOption (Json.toNamed DeviceType.names)) :=
  rereads_option (rereads_named DeviceType.lookup_name) rfl (fun _ => rfl) fun _ => nofun

/-- The type is left out when there is none. -/
theorem entries_type? (t? : Option DeviceType) :
    (match t? with
      | none => []
      | some t => [("type", Json.text t.name)]) = [("type", Json.ofText? (t?.map DeviceType.name))] ∨
    (match t? with
      | none => []
      | some t => [("type", Json.text t.name)]) = [] ∧ t? = none := by
  cases t? with
  | none => exact .inr ⟨rfl, rfl⟩
  | some t => exact .inl rfl

theorem rereads : Rereads toJson ofJson := by
  intro d j H
  exact Record.Restores.ofJson
    (.cons rfl rfl (rereads_text d.deviceId) <|
      .cons rfl rfl (rereads_text d.path) <|
      .cons rfl rfl (rereads_text d.model) <|
      .cons_optional (entries_type? d.type) rfl rfl (rereads_type? d.type) rfl <|
      .cons rfl rfl (rereads_text d.vendor) <|
      .cons rfl rfl (rereads_text d.serial) <|
      .cons rfl rfl (rereads_natural d.size) <|
      .cons rfl rfl (rereads_named MechanicalProperty.lookup_name d.property) <|
      .cons rfl rfl (rereads_text d.fsType) <|
      .cons rfl rfl (rereads_state d.state) <|
      .cons rfl rfl (rereads_text d.wwn) .nil)
    (by decide) (by decide) fields_commute H

theorem regular (limit : Nat) (d : DeviceRecord) : Regular (limit + 2) d.toJson := by
  cases htype : d.type <;> simp [toJson, htype, regular_object_iff]

end DeviceRecord

namespace DiscoveryStatus

theorem fields_commute : record.fields.Pairwise Field.Commutes :=
  List.pairwise_pair.mpr (Field.commutes_of_sets rfl rfl fun _ _ _ => rfl)

theorem rereads : Rereads toJson ofJson := by
  intro s j H
  exact Record.Restores.ofJson
    (.cons rfl rfl (rereads_text? s.timestamp) <|
      .cons rfl rfl (rereads_list DeviceRecord.rereads s.devices) .nil)
    (by decide) (by decide) fields_commute H

theorem regular (limit : Nat) (s : DiscoveryStatus) : Regular (limit + 4) s.toJson := by
  simp [toJson, regular_object_iff, Regular.list (DeviceRecord.regular limit)]

theorem roundTrips : RoundTrips toJson ofJson := rereads.roundTrips (regular 123)

end DiscoveryStatus

/-! ### Volume sets -/

namespace Requirement

theorem fields_commute : (Resource.requirementRecord .json).fields.Pairwise Field.Commutes := by
  simp only [Resource.requirementRecord, List.pairwise_cons, List.forall_mem_cons,
    List.not_mem_nil, false_imp_iff, implies_true, and_true, List.Pairwise.nil]
  and_intros <;> exact Field.commutes_of_sets rfl rfl fun _ _ _ => rfl

theorem rereads : Rereads toJson (Resource.requirementRecord .json).ofJson := by
  intro r j H
  exact Record.Restores.ofJson
    (.cons rfl rfl (rereads_text r.key) <|
      .cons rfl rfl (rereads_named SelectorOperator.lookup_name r.operator) <|
      .cons rfl rfl (rereads_texts r.values) .nil)
    (by decide) (by decide) fields_commute H

theorem regular (limit : Nat) (r : Requirement) : Regular (limit + 2) r.toJson := by
  simp [toJson, regular_object_iff]

end Requirement

namespace SelectorTerm

theorem rereads : Rereads toJson (Resource.termRecord .json).ofJson := by
  intro t j H
  exact Record.Restores.ofJson
    (.cons rfl rfl (rereads_list Requirement.rereads t.requirements) .nil)
    (by decide) (by decide) (List.pairwise_singleton _ _) H

theorem regular (limit : Nat) (t : SelectorTerm) : Regular (limit + 4) t.toJson := by
  simp [toJson, regular_object_iff, Regular.list (Requirement.regular limit)]

end SelectorTerm

namespace NodeSelector

theorem rereads : Rereads toJson ofJson := by
  intro s j H
  exact Record.Restores.ofJson
    (.cons rfl rfl (rereads_list SelectorTerm.rereads s.terms) .nil)
    (by decide) (by decide) (List.pairwise_singleton _ _) H

theorem regular (limit : Nat) (s : NodeSelector) : Regular (limit + 6) s.toJson := by
  simp [toJson, regular_object_iff, Regular.list (SelectorTerm.regular limit)]

end NodeSelector

namespace InclusionSpec

theorem fields_commute : (Resource.inclusionRecord .json).fields.Pairwise Field.Commutes := by
  simp only [Resource.inclusionRecord, List.pairwise_cons, List.forall_mem_cons,
    List.not_mem_nil, false_imp_iff, implies_true, and_true, List.Pairwise.nil]
  and_intros <;> exact Field.commutes_of_sets rfl rfl fun _ _ _ => rfl

theorem rereads : Rereads toJson ofJson := by
  intro s j H
  exact Record.Restores.ofJson
    (.cons rfl rfl (rereads_names DeviceType.lookup_name s.deviceTypes) <|
      .cons rfl rfl (rereads_names MechanicalProperty.lookup_name s.properties) <|
      .cons rfl rfl (rereads_natural? s.minSize) <|
      .cons rfl rfl (rereads_natural? s.maxSize) <|
      .cons rfl rfl (rereads_texts s.models) <|
      .cons rfl rfl (rereads_texts s.vendors) .nil)
    (by decide) (by decide) fields_commute H

theorem regular (limit : Nat) (s : InclusionSpec) : Regular (limit + 2) s.toJson := by
  simp [toJson, regular_object_iff]

end InclusionSpec

namespace VolumeSetSpec

theorem fields_commute : (Resource.specRecord .json).fields.Pairwise Field.Commutes := by
  simp only [Resource.specRecord, List.pairwise_cons, List.forall_mem_cons,
    List.not_mem_nil, false_imp_iff, implies_true, and_true, List.Pairwise.nil]
  and_intros <;> exact Field.commutes_of_sets rfl rfl fun _ _ _ => rfl

theorem rereads_selector? : Rereads (fun | none => .null | some s => s.toJson)
    (Json.toOption NodeSelector.ofJson) :=
  rereads_option NodeSelector.rereads rfl (fun _ => rfl) fun _ => nofun

theorem rereads : Rereads toJson ofJson := by
  intro s j H
  exact Record.Restores.ofJson
    (.cons rfl rfl (rereads_text s.storageClass) <|
      .cons rfl rfl (rereads_selector? s.nodeSelector) <|
      .cons rfl rfl (InclusionSpec.rereads s.inclusion) .nil)
    (by decide) (by decide) fields_commute H

theorem regular (limit : Nat) (s : VolumeSetSpec) : Regular (limit + 7) s.toJson := by
  cases hselector : s.nodeSelector <;>
    simp [toJson, regular_object_iff, hselector, NodeSelector.regular, InclusionSpec.regular]

end VolumeSetSpec

/-! ### Events -/

namespace Event

theorem newDevice_fields_commute : newDeviceFields.Pairwise Field.Commutes :=
  List.pairwise_pair.mpr (Field.commutes_of_sets rfl rfl fun _ _ _ => rfl)

/-- The payload of an event with one text. -/
theorem ofEntries_text {name key s : String} {es : List (String × Json)}
    (H : Json.Alike (.object [(key, .text s)]) (.object es)) :
    Record.ofEntries ⟨name, [field key Json.toText fun s _ => s], ""⟩ es = .ok s := by
  have hf : [field key Json.toText fun s (_ : String) => s].find? (·.answersTo key) =
      some (field key Json.toText fun s _ => s) := by
    simp [Field.answersTo, field]
  have hentries : Record.Restores id [field key Json.toText fun s _ => s] [key] [key]
      [(key, .text s)] "" s := .cons hf rfl (rereads_text s) .nil
  apply hentries.ofEntries (r := ⟨name, [field key Json.toText fun s _ => s], ""⟩) _ _
    (List.pairwise_singleton _ _) H
  · exact List.pairwise_singleton _ key
  · simp [field]

theorem rereads : Rereads toJson ofJson := by
  intro e j H
  obtain ⟨v, hv, rfl⟩ := Json.alike_single H
  cases e with
  | discoveredNewDevice kname seconds =>
    obtain ⟨_, es, _, _, rfl⟩ := Json.alike_object_iff.mp hv
    have hentries : Record.ofEntries ⟨"DiscoveredNewDevice", newDeviceFields, ("", 0)⟩ es =
        .ok (kname, seconds) :=
      Record.Restores.ofEntries
        (.cons rfl rfl (rereads_text kname) <|
          .cons rfl rfl (rereads_natural seconds) .nil)
        (by decide) (by decide) newDevice_fields_commute hv
    simp [ofJson, reason, Json.toVariant, fieldsOf, bind, Except.bind, hentries, pure, Except.pure]
  | errorRunningBlockList message =>
    obtain ⟨_, es, _, _, rfl⟩ := Json.alike_object_iff.mp hv
    have hentries := @ofEntries_text "ErrorRunningBlockList" _ _ _ hv
    simp [ofJson, reason, Json.toVariant, fieldsOf, bind, Except.bind, hentries, pure, Except.pure]
  | deviceIdNotFound kname =>
    obtain ⟨_, es, _, _, rfl⟩ := Json.alike_object_iff.mp hv
    have hentries := @ofEntries_text "DeviceIdNotFound" _ _ _ hv
    simp [ofJson, reason, Json.toVariant, fieldsOf, bind, Except.bind, hentries, pure, Except.pure]

theorem regular (limit : Nat) (e : Event) : Regular (limit + 2) e.toJson := by
  cases e <;> simp [toJson, payload, regular_object_iff]

end Event

namespace Resource

/-- The text of a published result is an indented one. -/
theorem resources_round_trip :
    RoundTrips DiscoveryStatus.toJson DiscoveryStatus.ofJson ∧
      RoundTrips VolumeSetSpec.toJson VolumeSetSpec.ofJson ∧
      RoundTrips Event.toJson Event.ofJson ∧
      ∀ s : DiscoveryStatus,
        ∃ j, Json.parse? s.fileText = some j ∧ DiscoveryStatus.ofJson j = .ok s := by
  have hspec : RoundTrips VolumeSetSpec.toJson VolumeSetSpec.ofJson :=
    VolumeSetSpec.rereads.roundTrips (VolumeSetSpec.regular 120)
  have hevent : RoundTrips Event.toJson Event.ofJson :=
    Event.rereads.roundTrips (Event.regular 125)
  exact ⟨DiscoveryStatus.roundTrips, hspec, hevent, DiscoveryStatus.roundTrips.pretty⟩

end Resource

/-! ### Publication to a file -/

namespace FileTree

open NodeDisks.Path (IsEntryName)

variable {t t' : FileTree} {p dir : Path} {name : String} {status : DiscoveryStatus}

/-- A draft lies beside its file. -/
theorem exists_draftPath_join (hname : IsEntryName name) (hparent : name ≠ "..") :
    ∃ draft, IsEntryName draft ∧ draft ≠ ".." ∧ draftPath (dir.join name) = dir.join draft := by
  obtain ⟨kept, -, hkept, hpath⟩ := Path.exists_withExtension_join hname hparent "tmp"
  have hlast : (kept ++ "." ++ "tmp").toList.getLast? = some 'p' := by simp
  have hsingle : '/' ∉ (kept ++ "." ++ "tmp").toList := by
    simpa using fun h => hname.single (hkept.subset h)
  refine ⟨kept ++ "." ++ "tmp", ⟨?_, hsingle, ?_⟩, ?_, hpath.trans (Path.join_eq hsingle).symm⟩
  all_goals
    intro heq
    rw [heq] at hlast
    cases hlast

theorem publish_join (hname : IsEntryName name) (hparent : name ≠ "..")
    (hlink : t.isLink (dir.join name) = false)
    (hdraft : t.isLink (draftPath (dir.join name)) = false) (H : t.Numbered)
    (h : t.publish (dir.join name) status = (.ok (), t')) :
    ∃ r, t.Reaches dir r ∧ t.Puts t' r.number name status.fileText := by
  obtain ⟨draft, hentry, hentryParent, hpath⟩ := exists_draftPath_join hname hparent
  rw [publish, hpath] at h
  rw [hpath] at hdraft
  split at h
  · cases h
  case h_2 written hwritten =>
    obtain ⟨r, hr, hputs⟩ :=
      write_join hentry hentryParent hdraft (H _ (Nat.le_refl _)) hwritten
    split at h
    · cases h
    case h_2 renamed hrenamed =>
      cases h
      have hplain := hputs.alike.isLink_join hname hparent hr hlink
      have hmoved := rename_join hentry hentryParent hname hparent (hputs.alike.reaches hr)
        hputs.hasFile hplain hrenamed
      exact ⟨r, hr, hputs.alike.trans hmoved.alike, hmoved.hasFile,
        fun H => hmoved.numbered (hputs.numbered H)⟩

/-- The text of a published result is at its path, and the numbers from `next` on are still free. -/
theorem read_of_publish (hname : p.fileName? = some name) (hlink : t.isLink p = false)
    (hdraft : t.isLink (draftPath p) = false) (H : t.Numbered)
    (h : t.publish p status = (.ok (), t')) :
    t'.read p = .ok status.fileText ∧ t'.Numbered := by
  have hplain : p.asksForDirectory = false := by
    rw [publish] at h
    split at h
    · cases h
    split at h
    · cases h
    case h_2 hrenamed => exact asksForDirectory_of_rename hrenamed
  obtain ⟨dir, rfl, hentry, hparent⟩ := Path.exists_join_of_fileName? hname hplain
  obtain ⟨r, hr, hputs⟩ := publish_join hentry hparent hlink hdraft H h
  exact ⟨read_of_hasFile hentry hparent (hputs.alike.reaches hr) hputs.hasFile, hputs.numbered H⟩

/-- What was published to a file is read from it, and the next result can be published. -/
theorem reread_of_publish (hname : p.fileName? = some name) (hlink : t.isLink p = false)
    (hdraft : t.isLink (draftPath p) = false) (H : t.Numbered)
    (h : t.publish p status = (.ok (), t')) : t'.Numbered ∧
      ∃ text j, t'.read p = .ok text ∧ Json.parse? text = some j ∧
        DiscoveryStatus.ofJson j = .ok status := by
  obtain ⟨hread, hnumbered⟩ := read_of_publish hname hlink hdraft H h
  obtain ⟨j, hj, hstatus⟩ := DiscoveryStatus.roundTrips.pretty status
  exact ⟨hnumbered, _, j, hread, hj, hstatus⟩

/-- The first publication in an empty tree. -/
example :
    let status : DiscoveryStatus := ⟨some "1970-01-01T00:00:00Z", []⟩
    let t := (empty.publish ⟨"/result.json"⟩ status).2
    (t.names? ⟨"/"⟩, (t.read ⟨"/result.json"⟩).toOption) =
      (some ["result.json"], some status.fileText) := by
  decide +kernel

end FileTree

end NodeDisks
