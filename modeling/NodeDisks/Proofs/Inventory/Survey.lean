import NodeDisks.Discovery
import NodeDisks.Inventory
import NodeDisks.Proofs.Effects

/-!
Surveys: the devices within the listed trees, the signatures merged into them, and what a survey
that succeeds returns.
-/

/-!
## Stacks

Devices stacked on devices. `x.Within d` says that `x` is `d` or stands on it, at any depth, and a
flattened forest lists exactly the devices within its trees (`mem_flattenedAll_iff`).
-/

namespace NodeDisks

namespace Device

/-- Device `x` is the other one or stacked on it, at any depth. -/
inductive Within (x : Device) : Device → Prop where
  | self : Within x x
  | child {c d : Device} : c ∈ d.children → Within x c → Within x d

/-- Induction from the devices that stand directly on a device to that device. -/
@[elab_as_elim]
theorem stackInduction {motive : Device → Prop}
    (step : ∀ d : Device, (∀ c ∈ d.children, motive c) → motive d) (d : Device) : motive d :=
  step d fun c hc => by
    have hlt : sizeOf c < sizeOf d := by
      have hmem := List.sizeOf_lt_of_mem hc
      cases d
      simp only [mk.sizeOf_spec] at hmem ⊢
      omega
    exact stackInduction step c
termination_by sizeOf d

variable {x d : Device}

theorem within_iff : x.Within d ↔ x = d ∨ ∃ c ∈ d.children, x.Within c := by
  constructor
  · intro H
    cases H with
    | self => exact .inl rfl
    | child hc H => exact .inr ⟨_, hc, H⟩
  · rintro (rfl | ⟨c, hc, H⟩)
    · exact .self
    · exact .child hc H

end Device

namespace Inventory

variable {x d : Device} {ds : List Device}

theorem flattened_eq (d : Device) : flattened d = d :: flattenedAll d.children := by
  cases d
  rfl

theorem flattenedAll_eq_flatMap (ds : List Device) : flattenedAll ds = ds.flatMap flattened := by
  induction ds with
  | nil => rfl
  | cons d ds ih => rw [flattenedAll, ih, List.flatMap_cons]

theorem mem_flattened_iff : x ∈ flattened d ↔ x.Within d := by
  induction d using Device.stackInduction with
  | step d ih =>
    rw [flattened_eq, List.mem_cons, flattenedAll_eq_flatMap, List.mem_flatMap, Device.within_iff]
    refine or_congr_right (exists_congr fun c => and_congr_right fun hc => ?_)
    exact ih c hc

theorem mem_flattenedAll_iff : x ∈ flattenedAll ds ↔ ∃ d ∈ ds, x.Within d := by
  simp only [flattenedAll_eq_flatMap, List.mem_flatMap, mem_flattened_iff]

end Inventory

end NodeDisks

/-!
## Signatures

Merging signatures into listed trees. `Signs` says which entry of the map is the signature of a row.
Merging changes nothing but signatures, at every depth (`mergeInto_eq`), so the merged trees hold the
same rows at the same places (`within_mergeInto_iff`), and a row with an entry carries it wherever it
stands (`fsType_of_signs`).
-/

namespace NodeDisks.Signatures

/-- The signature of a device is `t`: of the entries for its node by name, its node by kernel name
and its mapped node, the first that there is. -/
inductive Signs (s : Signatures) (d : Device) (t : String) : Prop where
  | byName : s.lookup ("/dev/" ++ d.name) = some t → Signs s d t
  | byKernelName : s.lookup ("/dev/" ++ d.name) = none →
      s.lookup ("/dev/" ++ d.kname) = some t → Signs s d t
  | mapped : s.lookup ("/dev/" ++ d.name) = none → s.lookup ("/dev/" ++ d.kname) = none →
      s.lookup ("/dev/mapper/" ++ d.name) = some t → Signs s d t

variable {s : Signatures} {d x y : Device} {rows : List Device} {t : String}

theorem find?_eq_some_iff : s.find? d = some t ↔ Signs s d t := by
  simp only [find?, List.findSome?_cons, List.findSome?_nil]
  constructor
  · intro H
    split at H
    case h_1 hname => exact .byName (hname.trans H)
    case h_2 hname =>
      split at H
      case h_1 hkname => exact .byKernelName hname (hkname.trans H)
      case h_2 hkname =>
        split at H
        case h_1 hmapped => exact .mapped hname hkname (hmapped.trans H)
        case h_2 => cases H
  · rintro (hname | ⟨hname, hkname⟩ | ⟨hname, hkname, hmapped⟩)
    · simp only [hname]
    · simp only [hname, hkname]
    · simp only [hname, hkname, hmapped]

/-! ### Merging -/

theorem mergeIntoAll_eq_map (s : Signatures) (ds : List Device) :
    s.mergeIntoAll ds = ds.map s.mergeInto := by
  induction ds with
  | nil => rfl
  | cons d ds ih => rw [mergeIntoAll, ih, List.map_cons]

theorem mergeInto_eq (s : Signatures) (d : Device) : s.mergeInto d =
    { d with fsType := (s.find? d).getD d.fsType, children := d.children.map s.mergeInto } := by
  cases d
  rw [mergeInto, mergeIntoAll_eq_map]

@[simp] theorem mergeInto_name : (s.mergeInto d).name = d.name := by rw [mergeInto_eq]

@[simp] theorem mergeInto_kname : (s.mergeInto d).kname = d.kname := by rw [mergeInto_eq]

@[simp] theorem mergeInto_children : (s.mergeInto d).children = d.children.map s.mergeInto := by
  rw [mergeInto_eq]

theorem mergeInto_fsType (H : Signs s d t) : (s.mergeInto d).fsType = t := by
  rw [mergeInto_eq, find?_eq_some_iff.mpr H, Option.getD_some]

@[simp] theorem signs_mergeInto_iff : Signs s (s.mergeInto d) t ↔ Signs s d t := by
  simp only [← find?_eq_some_iff, find?, mergeInto_name, mergeInto_kname]

/-- What is within a merged tree is a merged row from within the tree, and the other way round. -/
theorem within_mergeInto_iff : y.Within (s.mergeInto d) ↔ ∃ x, x.Within d ∧ s.mergeInto x = y := by
  induction d using Device.stackInduction with
  | step d ih =>
    rw [Device.within_iff, mergeInto_children]
    constructor
    · rintro (rfl | ⟨c', hc', H⟩)
      · exact ⟨d, .self, rfl⟩
      · obtain ⟨c, hc, rfl⟩ := List.mem_map.mp hc'
        obtain ⟨x, hx, rfl⟩ := (ih c hc).mp H
        exact ⟨x, .child hc hx, rfl⟩
    · rintro ⟨x, hx, rfl⟩
      rcases Device.within_iff.mp hx with rfl | ⟨c, hc, hx⟩
      · exact .inl rfl
      · exact .inr ⟨s.mergeInto c, List.mem_map_of_mem hc, (ih c hc).mpr ⟨x, hx, rfl⟩⟩

/-- A device from within a merged tree carries its signature. -/
theorem fsType_of_signs (hy : y.Within (s.mergeInto d)) (H : Signs s y t) : y.fsType = t := by
  obtain ⟨x, -, rfl⟩ := within_mergeInto_iff.mp hy
  exact mergeInto_fsType (signs_mergeInto_iff.mp H)

/-! ### Merging and flattening -/

/-- The flattened list `devices` holds the rows with their signatures. -/
structure Kept (s : Signatures) (rows devices : List Device) : Prop where
  /-- Every row, at any depth, has an entry of its own. -/
  entry : ∀ d ∈ rows, ∀ x, x.Within d → s.mergeInto x ∈ devices
  /-- Whatever stands on a row, at any depth, has its copy in the entry of that row. -/
  copy : ∀ d ∈ rows, ∀ a x, a.Within d → x.Within a → (s.mergeInto x).Within (s.mergeInto a)
  /-- Entries and copies go by the names of their rows. -/
  names : ∀ x, (s.mergeInto x).name = x.name ∧ (s.mergeInto x).kname = x.kname
  /-- A device that the map has a signature for carries it, in its entry and in every copy. -/
  signed : ∀ a ∈ devices, ∀ x, x.Within a → ∀ t, Signs s x t → x.fsType = t

theorem mem_flattened_mergeIntoAll_iff : y ∈ Inventory.flattenedAll (s.mergeIntoAll rows) ↔
    ∃ d ∈ rows, ∃ x, x.Within d ∧ s.mergeInto x = y := by
  rw [Inventory.mem_flattenedAll_iff, mergeIntoAll_eq_map]
  constructor
  · rintro ⟨d', hd', hy⟩
    obtain ⟨d, hd, rfl⟩ := List.mem_map.mp hd'
    exact ⟨d, hd, within_mergeInto_iff.mp hy⟩
  · rintro ⟨d, hd, hy⟩
    exact ⟨s.mergeInto d, List.mem_map_of_mem hd, within_mergeInto_iff.mpr hy⟩

theorem kept (s : Signatures) (rows : List Device) :
    Kept s rows (Inventory.flattenedAll (s.mergeIntoAll rows)) where
  entry d hd x hx := mem_flattened_mergeIntoAll_iff.mpr ⟨d, hd, x, hx, rfl⟩
  copy _ _ _ x _ hx := within_mergeInto_iff.mpr ⟨x, hx, rfl⟩
  names _ := ⟨mergeInto_name, mergeInto_kname⟩
  signed a ha x hx t ht := by
    obtain ⟨d, -, b, -, rfl⟩ := mem_flattened_mergeIntoAll_iff.mp ha
    exact fsType_of_signs hx ht

end NodeDisks.Signatures

/-!
## The survey

When a survey succeeds, and with what: both tools have to answer (`Reads`), and the inventory is
then the listing with the signatures merged in and the trees flattened (`Reads.survey`,
`exists_reads_of_survey`). A survey runs commands, and does nothing else (`commandsOnly_survey`).
-/

namespace NodeDisks.Inventory

/-- The signature tool finds `found`, and the listing tool lists what `listing` holds. -/
structure Reads (h : Host) (only : List String) (found : Signatures) (listing : Inventory) :
    Prop where
  found : (signatures h only).value = .ok found
  listed : ∃ o, h.run (listCommand only) = .ok o ∧ o.success = true ∧
    ofListing o.output = .ok listing

/-- A listing with its signatures, flattened. -/
def merged (found : Signatures) (listing : Inventory) : Inventory :=
  { listing with devices := flattenedAll (found.mergeIntoAll listing.devices) }

variable {h : Host} {only : List String} {found : Signatures} {listing inv : Inventory}

theorem Reads.survey (H : Reads h only found listing) :
    (survey h only).value = .ok (merged found listing) := by
  obtain ⟨o, hrun, hsuccess, hlisting⟩ := H.listed
  simp [Inventory.survey, H.found, hrun, hsuccess, hlisting, merged]

theorem exists_reads_of_survey (hinv : (survey h only).value = .ok inv) :
    ∃ found listing, Reads h only found listing ∧ inv = merged found listing := by
  simp only [Inventory.survey, Traced.value_bind] at hinv
  split at hinv
  case h_1 => cases hinv
  case h_2 found hfound =>
    simp only [Traced.value_bind, Host.value_execute] at hinv
    split at hinv
    case h_1 => cases hinv
    case h_2 o hrun =>
      split at hinv
      case isTrue => cases hinv
      case isFalse hsuccess =>
        split at hinv
        case h_1 => cases hinv
        case h_2 listing hlisting =>
          cases hinv
          exact ⟨found, listing, ⟨hfound, o, hrun, by simpa using hsuccess, hlisting⟩, rfl⟩

/-! ### What a survey does -/

theorem commandsOnly_signatures : (signatures h only).effects.CommandsOnly := by
  rw [signatures, Traced.effects_bind]
  refine (Host.commandsOnly_execute h _).append ?_
  rw [Host.value_execute]
  cases h.run (signatureCommand only) with
  | error e => exact .none
  | ok o =>
    dsimp only
    split
    · exact .none
    · split <;> exact .none

theorem commandsOnly_survey : (survey h only).effects.CommandsOnly := by
  rw [Inventory.survey, Traced.effects_bind]
  refine commandsOnly_signatures.append ?_
  cases (signatures h only).value with
  | error e => exact .none
  | ok found =>
    dsimp only
    rw [Traced.effects_bind]
    refine (Host.commandsOnly_execute h _).append ?_
    rw [Host.value_execute]
    cases h.run (listCommand only) with
    | error e => exact .none
    | ok o =>
      dsimp only
      split
      · exact .none
      · cases ofListing o.output <;> exact .none

@[simp] theorem value_reportedSurvey : (reportedSurvey h).value = (survey h []).value := rfl

/-- Nothing is done but the commands of the survey, and what went wrong with them is reported. -/
theorem effects_reportedSurvey : (reportedSurvey h).effects =
    { commands := (survey h []).effects.commands
      events := surveyEvents (survey h []).value } := by
  rw [reportedSurvey, Traced.effects_bind, Traced.effects_bind, Traced.effects_report,
    Traced.effects_pure, Effects.append_none, commandsOnly_survey]
  exact congrArg (Effects.mk · [] [] _ []) (List.append_nil _)

/-- What goes wrong with a survey is about no device. -/
theorem device?_of_mem_surveyEvents {result : Except Error Inventory} {e : Event}
    (he : e ∈ surveyEvents result) : e.device? = none := by
  unfold surveyEvents at he
  split at he
  · rw [List.mem_singleton.mp he, Event.device?]
  · split at he
    · cases he
    · rw [List.mem_singleton.mp he, Event.device?]

@[simp] theorem publications_reportedSurvey : (reportedSurvey h).effects.publications = [] := by
  rw [effects_reportedSurvey]

end NodeDisks.Inventory
