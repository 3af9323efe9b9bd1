import NodeDisks.Claim
import NodeDisks.Host.Memory
import NodeDisks.Proofs.Admission.Filter
import NodeDisks.Proofs.Inventory.Survey
import NodeDisks.VolumeSet

/-!
Passes over a volume set: the record of first sightings, the sorting of the surveyed devices, and
the ends of a pass.
-/

/-!
## First sightings

The record of first sightings. Noting names gives a time to those that had none and changes no other
(`firstSeen?_noteAll`), and a name is old from its first sighting plus the minimum age on, with the
boundary included (`isOld_iff`).
-/

namespace NodeDisks.AgeRecord

variable {r : AgeRecord} {now : Instant} {k : String}

@[simp] theorem firstSeen?_empty : empty.firstSeen? k = none := rfl

theorem firstSeen?_note {kname : String} :
    (r.note now kname).firstSeen? k =
      (r.firstSeen? k).or (if k = kname then some now else none) := by
  unfold note
  split
  case h_1 t ht =>
    by_cases hk : k = kname
    · simp [hk, ht]
    · simp [hk]
  case h_2 hnone =>
    simp only [firstSeen?, List.lookup_append, List.lookup_cons, List.lookup_nil]
    by_cases hk : k = kname
    · simp [hk]
    · simp [hk, beq_eq_false_iff_ne.mpr hk]

theorem firstSeen?_noteAll {knames : List String} :
    (r.noteAll now knames).firstSeen? k =
      (r.firstSeen? k).or (if k ∈ knames then some now else none) := by
  induction knames generalizing r with
  | nil => simp [noteAll]
  | cons kname knames ih =>
    have hstep : r.noteAll now (kname :: knames) = (r.note now kname).noteAll now knames := rfl
    rw [hstep, ih, firstSeen?_note, Option.or_assoc]
    by_cases hk : k = kname <;> simp [hk]

theorem note_of_known (H : r.firstSeen? k ≠ none) : r.note now k = r := by
  unfold note
  split
  · rfl
  case h_2 hnone => exact absurd hnone H

/-- Names with a first sighting are noted without effect. -/
theorem noteAll_of_known {knames : List String} (H : ∀ k ∈ knames, r.firstSeen? k ≠ none) :
    r.noteAll now knames = r := by
  induction knames with
  | nil => rfl
  | cons kname knames ih =>
    obtain ⟨hkname, hknames⟩ := List.forall_mem_cons.mp H
    have hstep : r.noteAll now (kname :: knames) = (r.note now kname).noteAll now knames := rfl
    rw [hstep, note_of_known hkname, ih hknames]

theorem isOld_iff {minAge : Duration} : r.isOld minAge now k = true ↔
    ∃ first, r.firstSeen? k = some first ∧ first + minAge ≤ now := by
  unfold isOld
  cases r.firstSeen? k with
  | none => simp
  | some first =>
    simp only [Bool.and_eq_true, decide_eq_true_eq, Option.some.injEq, exists_eq_left',
      Instant]
    omega

end NodeDisks.AgeRecord

/-!
## Sorting

How a pass sorts the surveyed devices. `Sorts` says where each of them goes, by what it and its node
are and by when its name was first seen; the three cases exclude each other and leave none out. The
age gate sees the record with the names of this very pass noted, so a name that is listed always has
a first sighting (`firstSeen?_noted`).
-/

namespace NodeDisks.VolumeSet

/-- The record in which the names of the listed devices are noted. -/
def State.noted (s : State) (now : Instant) (ds : List Device) : AgeRecord :=
  s.ages.noteAll now (ds.map (·.kname))

/-- When a name that is listed at `now` was first seen. -/
def State.firstSeen (s : State) (now : Instant) (kname : String) : Instant :=
  (s.ages.firstSeen? kname).getD now

/-- Each device of the list has its place, as often as it is listed. -/
structure Sorts (c : Config) (spec : VolumeSetSpec) (s : State) (h : Host) (ds : List Device)
    (x : Sorting) : Prop where
  valid_iff : ∀ d, d ∈ x.valid ↔ d ∈ ds ∧ Filter.Eligible h c.mountTable d ∧
    s.firstSeen h.now d.kname + c.minAge ≤ h.now ∧ spec.inclusion.Accepts d
  delayed_iff : ∀ d, d ∈ x.delayed ↔ d ∈ ds ∧ Filter.Eligible h c.mountTable d ∧
    h.now < s.firstSeen h.now d.kname + c.minAge
  /-- An excluded device comes with the verdict of the tests that it did not pass. -/
  excluded_iff : ∀ d v, (d, v) ∈ x.excluded ↔ d ∈ ds ∧
    (¬Filter.Eligible h c.mountTable d ∧
        v = (Filter.judge (Filter.standardFilters h c.mountTable) d).value ∨
      Filter.Eligible h c.mountTable d ∧ s.firstSeen h.now d.kname + c.minAge ≤ h.now ∧
        ¬spec.inclusion.Accepts d ∧ v = (Filter.judge spec.inclusion.filters d).value)
  valid_order : x.valid.Sublist ds
  delayed_order : x.delayed.Sublist ds
  once : (x.valid ++ x.delayed ++ x.excluded.map Prod.fst).Perm ds

variable {c : Config} {spec : VolumeSetSpec} {s : State} {h : Host} {ds : List Device}
  {ages : AgeRecord} {d : Device} {v : Verdict}

/-! ### The gate -/

theorem firstSeen?_noted (hd : d ∈ ds) :
    (s.noted h.now ds).firstSeen? d.kname = some (s.firstSeen h.now d.kname) := by
  have hk : d.kname ∈ ds.map (·.kname) := List.mem_map_of_mem hd
  rw [State.noted, AgeRecord.firstSeen?_noteAll, if_pos hk, State.firstSeen]
  cases s.ages.firstSeen? d.kname <;> rfl

theorem isOld_noted_iff (hd : d ∈ ds) :
    (s.noted h.now ds).isOld c.minAge h.now d.kname = true ↔
      s.firstSeen h.now d.kname + c.minAge ≤ h.now := by
  rw [AgeRecord.isOld_iff, firstSeen?_noted hd]
  simp

theorem isOld_noted_eq_false_iff (hd : d ∈ ds) :
    (s.noted h.now ds).isOld c.minAge h.now d.kname = false ↔
      h.now < s.firstSeen h.now d.kname + c.minAge := by
  rw [← Bool.not_eq_true, isOld_noted_iff hd]
  exact Int.not_le

/-! ### The three lists -/

open Classical in
theorem sort_noted_valid : (sort c spec (s.noted h.now ds) h ds).value.valid =
    ds.filter fun d => Filter.Eligible h c.mountTable d ∧
      s.firstSeen h.now d.kname + c.minAge ≤ h.now ∧ spec.inclusion.Accepts d := by
  simp only [sort, Traced.value_bind, Traced.value_pure, Filter.partition_passed,
    List.filter_filter]
  refine List.filter_congr fun d hd => ?_
  rw [Bool.eq_iff_iff]
  simp only [Bool.and_eq_true, Verdict.isPass_iff, Filter.standardFilters_pass_iff,
    InclusionSpec.filters_pass_iff, isOld_noted_iff hd, decide_eq_true_eq]
  exact ⟨fun ⟨haccepts, hold, heligible⟩ => ⟨heligible, hold, haccepts⟩,
    fun ⟨heligible, hold, haccepts⟩ => ⟨haccepts, hold, heligible⟩⟩

open Classical in
theorem sort_noted_delayed : (sort c spec (s.noted h.now ds) h ds).value.delayed =
    ds.filter fun d => Filter.Eligible h c.mountTable d ∧
      h.now < s.firstSeen h.now d.kname + c.minAge := by
  simp only [sort, Traced.value_bind, Traced.value_pure, Filter.partition_passed,
    List.filter_filter]
  refine List.filter_congr fun d hd => ?_
  rw [Bool.eq_iff_iff]
  simp only [Bool.and_eq_true, Bool.not_eq_true', Verdict.isPass_iff,
    Filter.standardFilters_pass_iff, isOld_noted_eq_false_iff hd, decide_eq_true_eq]
  exact and_comm

theorem mem_sort_excluded_iff : (d, v) ∈ (sort c spec ages h ds).value.excluded ↔ d ∈ ds ∧
    (¬Filter.Eligible h c.mountTable d ∧
        v = (Filter.judge (Filter.standardFilters h c.mountTable) d).value ∨
      Filter.Eligible h c.mountTable d ∧ ages.isOld c.minAge h.now d.kname = true ∧
        ¬spec.inclusion.Accepts d ∧ v = (Filter.judge spec.inclusion.filters d).value) := by
  simp only [sort, Traced.value_bind, Traced.value_pure, List.mem_append,
    Filter.mem_partition_excluded_iff, Filter.mem_partition_passed_iff, List.mem_filter, ne_eq,
    Filter.standardFilters_pass_iff, InclusionSpec.filters_pass_iff, and_assoc, and_or_left]

/-- The devices that pass the tests are parted by the gate, and those behind it by the rules; counted
one by one, every device ends up in one of the parts. -/
theorem sort_perm : ((sort c spec ages h ds).value.valid ++ (sort c spec ages h ds).value.delayed ++
    (sort c spec ages h ds).value.excluded.map Prod.fst).Perm ds := by
  classical
  simp only [sort, Traced.value_bind, Traced.value_pure, List.map_append]
  have htests := Filter.partition_perm (Filter.standardFilters h c.mountTable) ds
  generalize (Filter.partition (Filter.standardFilters h c.mountTable) ds).value = tested
    at htests ⊢
  have hgate := List.filter_append_perm (fun d => ages.isOld c.minAge h.now d.kname) tested.passed
  generalize tested.passed.filter (fun d => ages.isOld c.minAge h.now d.kname) = old at hgate ⊢
  have hrules := Filter.partition_perm spec.inclusion.filters old
  rw [List.perm_iff_count] at htests hgate hrules ⊢
  intro d
  have htests := htests d
  have hgate := hgate d
  have hrules := hrules d
  simp only [List.count_append] at htests hgate hrules ⊢
  omega

open Classical in
/-- The pass sorts by the record in which its own names are noted. -/
theorem sort_noted_sorts :
    Sorts c spec s h ds (sort c spec (s.noted h.now ds) h ds).value where
  valid_iff d := by rw [sort_noted_valid, List.mem_filter, decide_eq_true_eq]
  delayed_iff d := by rw [sort_noted_delayed, List.mem_filter, decide_eq_true_eq]
  excluded_iff d v := by
    rw [mem_sort_excluded_iff]
    exact and_congr_right fun hd => by rw [isOld_noted_iff hd]
  valid_order := by
    rw [sort_noted_valid]
    exact List.filter_sublist
  delayed_order := by
    rw [sort_noted_delayed]
    exact List.filter_sublist
  once := sort_perm

end NodeDisks.VolumeSet

/-!
## The ends of a pass

The ends of a pass. A pass that `Finds` an inventory settles it; any other pass fails or is skipped
and leaves the state as it was. Neither the selector nor the survey looks at the state, so whether a
pass finds anything is known before it starts.
-/

namespace NodeDisks.VolumeSet

/-- The sorted devices of an outcome. -/
def Outcome.sorting (o : Outcome) : Sorting := ⟨o.valid, o.delayed, o.excluded⟩

/-- The outcome on a node that the set does not apply to. -/
def Outcome.skip (c : Config) : Outcome := ⟨true, [], [], [], [], [], c.requeueAfter⟩

/-- The set applies to the node, and the survey of the node succeeds with `inv`. -/
structure Finds (spec : VolumeSetSpec) (labels : NodeLabels) (h : Host) (inv : Inventory) :
    Prop where
  picked : NodeSelector.picks labels spec.nodeSelector = .ok true
  surveyed : (Inventory.survey h []).value = .ok inv

variable {c : Config} {spec : VolumeSetSpec} {labels : NodeLabels} {s : State} {h : Host}
  {inv : Inventory} {ds : List Device} {o : Outcome}

/-! ### The part after the survey -/

@[simp] theorem settle_skipped : (settle c spec s h ds).value.1.skipped = false := rfl

@[simp] theorem settle_ages :
    (settle c spec s h ds).value.2.ages = s.noted h.now ds := rfl

@[simp] theorem settle_sorting : (settle c spec s h ds).value.1.sorting =
    (sort c spec (s.noted h.now ds) h ds).value := rfl

theorem settle_sorts : Sorts c spec s h ds (settle c spec s h ds).value.1.sorting := by
  rw [settle_sorting]
  exact sort_noted_sorts

theorem eligible_of_mem_valid {d : Device} (hd : d ∈ (settle c spec s h ds).value.1.valid) :
    Filter.Eligible h c.mountTable d := by
  obtain ⟨-, heligible, -⟩ := (settle_sorts.valid_iff d).mp hd
  exact heligible

@[simp] theorem settle_claims : (settle c spec s h ds).value.1.claims =
    (candidates c h.later (settle c spec s h ds).value.1.valid).value := rfl

/-! ### The whole pass -/

theorem reconcile_of_finds (H : Finds spec labels h inv) :
    (reconcile c spec labels s h).value =
      (.ok (settle c spec s h inv.devices).value.1, (settle c spec s h inv.devices).value.2) := by
  simp [reconcile, H.picked, H.surveyed]

theorem reconcile_of_survey_error {e : Error}
    (hpicked : NodeSelector.picks labels spec.nodeSelector = .ok true)
    (hsurvey : (Inventory.survey h []).value = .error e) :
    (reconcile c spec labels s h).value = (.error e, s) := by
  simp [reconcile, hpicked, hsurvey]

/-- A pass that finds nothing is skipped or fails. -/
theorem reconcile_of_not_finds (H : ¬∃ inv, Finds spec labels h inv) :
    (reconcile c spec labels s h).value.2 = s ∧
      ∀ o, (reconcile c spec labels s h).value.1 = .ok o → o = .skip c := by
  cases hpicked : NodeSelector.picks labels spec.nodeSelector with
  | error e => simp [reconcile, hpicked]
  | ok applies =>
    cases applies with
    | false => simp [reconcile, hpicked, Outcome.skip, eq_comm]
    | true =>
      cases hsurvey : (Inventory.survey h []).value with
      | ok inv => exact absurd ⟨inv, hpicked, hsurvey⟩ H
      | error e => simp [reconcile_of_survey_error hpicked hsurvey]

theorem Finds.eq {inv' : Inventory} (H : Finds spec labels h inv) (H' : Finds spec labels h inv') :
    inv = inv' :=
  Except.ok.inj (H.surveyed.symm.trans H'.surveyed)

/-- A pass with an outcome is skipped, or has settled what it found. -/
theorem reconcile_ok_cases (ho : (reconcile c spec labels s h).value.1 = .ok o) :
    o = .skip c ∨ ∃ inv, Finds spec labels h inv ∧ o = (settle c spec s h inv.devices).value.1 := by
  by_cases H : ∃ inv, Finds spec labels h inv
  · obtain ⟨inv, H⟩ := H
    rw [reconcile_of_finds H] at ho
    exact .inr ⟨inv, H, (Except.ok.inj ho).symm⟩
  · exact .inl ((reconcile_of_not_finds H).2 o ho)

/-- A device that a pass takes was found, and there is nothing against it. -/
theorem taken_of_reconcile {d : Device} (ho : (reconcile c spec labels s h).value.1 = .ok o)
    (hd : d ∈ o.valid) : ∃ inv, Finds spec labels h inv ∧ d ∈ inv.devices ∧
      Filter.Eligible h c.mountTable d ∧ s.firstSeen h.now d.kname + c.minAge ≤ h.now ∧
      spec.inclusion.Accepts d := by
  rcases reconcile_ok_cases ho with rfl | ⟨inv, H, rfl⟩
  · cases hd
  · obtain ⟨hmem, heligible, hold, haccepts⟩ := (settle_sorts.valid_iff d).mp hd
    exact ⟨inv, H, hmem, heligible, hold, haccepts⟩

/-- A device that a pass delays was found, and only its age is against it. -/
theorem delayed_of_reconcile {d : Device} (ho : (reconcile c spec labels s h).value.1 = .ok o)
    (hd : d ∈ o.delayed) : ∃ inv, Finds spec labels h inv ∧ d ∈ inv.devices ∧
      Filter.Eligible h c.mountTable d ∧ h.now < s.firstSeen h.now d.kname + c.minAge := by
  rcases reconcile_ok_cases ho with rfl | ⟨inv, H, rfl⟩
  · cases hd
  · have hsorts : Sorts c spec s h inv.devices (settle c spec s h inv.devices).value.1.sorting :=
      settle_sorts
    obtain ⟨hmem, heligible, hyoung⟩ := (hsorts.delayed_iff d).mp hd
    exact ⟨inv, H, hmem, heligible, hyoung⟩

/-! ### Sorting as a whole -/

/-- A row of a listing. -/
def listingRow (kname type : String) (more : List (String × Json)) : Json :=
  .object ([("name", .text kname), ("kname", .text kname), ("type", .text type)] ++ more)

/-- A node in memory whose tools list the rows and find no signatures; nothing is mounted. -/
def listingNode (rows : List Json) : MemoryNode :=
  let listing := Json.object [("blockdevices", .array rows)]
  { files := MemoryFiles.empty.addFile ⟨"/m"⟩ ""
    devices := .empty
    script := ⟨[("lsblk", ⟨some 0, listing.compact⟩), ("blkid", ⟨some 2, ""⟩)], []⟩
    refusal := none
    now := 0 }

/-- The whole disks and multipath devices of every node, of any size. -/
def anySize : VolumeSetSpec := ⟨"", none, { InclusionSpec.unrestricted with minSize := some 0 }⟩

/-- On a node that the set applies to, a pass either fails with its survey and changes nothing, or
sorts all surveyed devices. -/
theorem reconcile_sorts (c : Config) {spec : VolumeSetSpec} {labels : NodeLabels} (s : State)
    (h : Host) (hpicked : NodeSelector.picks labels spec.nodeSelector = .ok true) :
    (∃ e, (Inventory.survey h []).value = .error e ∧
      (reconcile c spec labels s h).value = (.error e, s)) ∨
    ∃ inv o s', (Inventory.survey h []).value = .ok inv ∧
      (reconcile c spec labels s h).value = (.ok o, s') ∧ o.skipped = false ∧
      Sorts c spec s h inv.devices o.sorting := by
  cases hsurvey : (Inventory.survey h []).value with
  | error e => exact .inl ⟨e, rfl, reconcile_of_survey_error hpicked hsurvey⟩
  | ok inv =>
    right
    have hvalue := reconcile_of_finds (c := c) (s := s) ⟨hpicked, hsurvey⟩
    exact ⟨inv, _, _, rfl, hvalue, settle_skipped, settle_sorts⟩

/-- One disk that was seen before, one that is new and one that is read-only. -/
theorem reconcile_sorts_three_disks :
    let c : Config := { minAge := 5, mountTable := ⟨"/m"⟩ }
    let s : State := ⟨⟨[("a", -5)]⟩, []⟩
    let h := (listingNode [listingRow "a" "disk" [], listingRow "b" "disk" [],
      listingRow "c" "disk" [("ro", .bool true)]]).host
    NodeSelector.picks [] anySize.nodeSelector = .ok true ∧
      ∃ inv o s', (Inventory.survey h []).value = .ok inv ∧
        (reconcile c anySize [] s h).value = (.ok o, s') ∧ o.skipped = false ∧
        Sorts c anySize s h inv.devices o.sorting ∧
        (o.valid.map (·.kname), o.delayed.map (·.kname), o.excluded.map (·.1.kname)) =
          (["a"], ["b"], ["c"]) := by
  intro c s h
  obtain ⟨o, ho, hsorted⟩ := exists_ok_of_map (r := (reconcile c anySize [] s h).value.1)
    (f := fun o =>
      (o.valid.map (·.kname), o.delayed.map (·.kname), o.excluded.map (·.1.kname)))
    (b := (["a"], ["b"], ["c"])) (by decide +kernel)
  have hpicked : NodeSelector.picks [] anySize.nodeSelector = .ok true := rfl
  refine ⟨hpicked, ?_⟩
  rcases reconcile_sorts c s h hpicked with ⟨e, -, he⟩ | ⟨inv, o', s', hinv, ho', hskip, hsorts⟩
  · rw [he] at ho
    cases ho
  · rw [ho'] at ho
    cases ho
    exact ⟨inv, o, s', hinv, ho', hskip, hsorts, hsorted⟩

end NodeDisks.VolumeSet
