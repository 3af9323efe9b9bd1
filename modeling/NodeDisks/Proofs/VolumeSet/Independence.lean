import NodeDisks.Proofs.Claim.Orphans
import NodeDisks.Proofs.Inventory.Failure
import NodeDisks.Proofs.VolumeSet.Claims

/-!
Devices are judged one by one. What becomes of a device depends on the device, the node and what is
remembered of its name (`place`), and not on what is listed beside it; the age record does not count
the other names, and a search for orphans does not count their order. Two passes that start alike on
listings with rows in common therefore agree about every device from a common row, and on the same
rows in another order they end with the same lists in another order (`reconcile_judges_apart`).
-/

namespace NodeDisks

/-- The nodes differ at most in what is listed and in what becomes of publications. -/
structure Host.SameButListing (h h' : Host) : Prop where
  files : h'.files = h.files
  openExclusive : h'.openExclusive = h.openExclusive
  later : h'.later = h.later
  now : h'.now = h.now
  signatures : h'.run (Inventory.signatureCommand []) = h.run (Inventory.signatureCommand [])

/-! ### Rows -/

namespace Inventory

/-- The listing tool shows these rows, and not all of them are bad. -/
structure Usable (h : Host) (rows : List Json) : Prop where
  listed : ∃ o, h.run (listCommand []) = .ok o ∧ o.success = true ∧ rows? o.output = some rows
  usable : ∃ raw ∈ rows, ∃ d, readRow raw = .ok d

/-- The device is read from the row, at its top or below, and carries its signature. -/
def Stems (found : Signatures) (raw : Json) (d : Device) : Prop :=
  ∃ top, readRow raw = .ok top ∧ ∃ x : Device, x.Within top ∧ found.mergeInto x = d

variable {h h' : Host} {rows rows' : List Json} {found : Signatures} {d : Device}

theorem Usable.reads (H : Usable h rows) (hfound : (signatures h []).value = .ok found) :
    Reads h [] found (ofRows rows) where
  found := hfound
  listed := by
    obtain ⟨o, hrun, hsuccess, hrows⟩ := H.listed
    obtain ⟨raw, hraw, d, hread⟩ := H.usable
    have hne : (ofRows rows).devices ≠ [] :=
      List.ne_nil_of_mem (mem_ofRows_devices_iff.mpr ⟨raw, hraw, hread⟩)
    exact ⟨o, hrun, hsuccess, by simp [ofListing, hrows, hne]⟩

theorem signatures_congr (H : h.SameButListing h') : signatures h' [] = signatures h [] := by
  simp only [signatures, Host.execute, H.signatures]

theorem mem_merged_ofRows_iff :
    d ∈ (merged found (ofRows rows)).devices ↔ ∃ raw ∈ rows, Stems found raw d := by
  rw [merged, Signatures.mem_flattened_mergeIntoAll_iff]
  constructor
  · rintro ⟨top, htop, hd⟩
    obtain ⟨raw, hraw, hread⟩ := mem_ofRows_devices_iff.mp htop
    exact ⟨raw, hraw, top, hread, hd⟩
  · rintro ⟨raw, hraw, top, hread, hd⟩
    exact ⟨top, mem_ofRows_devices_iff.mpr ⟨raw, hraw, hread⟩, hd⟩

theorem merged_ofRows_perm (H : rows.Perm rows') :
    (merged found (ofRows rows)).devices.Perm (merged found (ofRows rows')).devices := by
  simp only [merged, ofRows_devices_eq_filterMap, Signatures.mergeIntoAll_eq_map,
    flattenedAll_eq_flatMap]
  exact ((H.filterMap _).map _).flatMap_right _

end Inventory

namespace VolumeSet

/-- What becomes of a listed device. -/
inductive Placement where
  | valid
  | delayed
  | excluded (v : Verdict)

/-- The place of a device, by the device itself and by what is remembered of its name. -/
def place (c : Config) (spec : VolumeSetSpec) (s : State) (h : Host) (d : Device) : Placement :=
  let tests := (Filter.judge (Filter.standardFilters h c.mountTable) d).value
  let rules := (Filter.judge spec.inclusion.filters d).value
  if tests ≠ .pass then .excluded tests
  else if h.now < s.firstSeen h.now d.kname + c.minAge then .delayed
  else if rules ≠ .pass then .excluded rules
  else .valid

/-- The outcome has the device in this place. -/
def Outcome.Puts (o : Outcome) (d : Device) : Placement → Prop
  | .valid => d ∈ o.valid
  | .delayed => d ∈ o.delayed
  | .excluded v => (d, v) ∈ o.excluded

/-- What is said about a claim of a valid device, if anything. -/
def claimOf (c : Config) (later : Scene) (d : Device) : Option Candidate :=
  match c.claimDir with
  | none => none
  | some dir => (candidate? c later dir d).value

/-- The outcomes have the same entries in their lists, perhaps in another order. -/
structure Outcome.Permutes (o o' : Outcome) : Prop where
  valid : o.valid.Perm o'.valid
  delayed : o.delayed.Perm o'.delayed
  excluded : o.excluded.Perm o'.excluded
  claims : o.claims.Perm o'.claims
  orphaned : o.orphaned = o'.orphaned
  requeueAfter : o.requeueAfter = o'.requeueAfter

/-- The outcomes for two listings, with the signatures that were found. -/
structure JudgesApart (found : Signatures) (rows rows' : List Json) (o o' : Outcome) : Prop where
  /-- A device from a row in both listings has one place, and has it in both outcomes. -/
  shared : ∀ raw ∈ rows, raw ∈ rows' → ∀ d, Inventory.Stems found raw d →
    ∃ p, (∀ q, o.Puts d q ↔ q = p) ∧ ∀ q, o'.Puts d q ↔ q = p
  /-- The claim of a valid device goes by the device alone, for both outcomes in one way. -/
  claims : ∃ claim : Device → Option Candidate,
    (∀ d x, claim d = some x → x.device.forgetLink = d.forgetLink) ∧
      o.claims = o.valid.filterMap claim ∧ o'.claims = o'.valid.filterMap claim
  permuted : rows.Perm rows' → o.Permutes o'

/-- How two passes end that start from one state, on nodes that list these rows. -/
inductive EndAlike (c : Config) (spec : VolumeSetSpec) (labels : NodeLabels) (s : State)
    (h h' : Host) (rows rows' : List Json) : Prop where
  | faulty {e : Error} : NodeSelector.picks labels spec.nodeSelector = .error e →
    (reconcile c spec labels s h).value = (.error e, s) →
    (reconcile c spec labels s h').value = (.error e, s) →
    EndAlike c spec labels s h h' rows rows'
  | skipped : NodeSelector.picks labels spec.nodeSelector = .ok false →
    (reconcile c spec labels s h).value = (.ok (.skip c), s) →
    (reconcile c spec labels s h').value = (.ok (.skip c), s) →
    EndAlike c spec labels s h h' rows rows'
  | unsigned {e : Error} : NodeSelector.picks labels spec.nodeSelector = .ok true →
    (Inventory.signatures h []).value = .error e →
    (reconcile c spec labels s h).value = (.error e, s) →
    (reconcile c spec labels s h').value = (.error e, s) →
    EndAlike c spec labels s h h' rows rows'
  | settled {found : Signatures} {o o' : Outcome} {s₁ s₂ : State} :
    NodeSelector.picks labels spec.nodeSelector = .ok true →
    (Inventory.signatures h []).value = .ok found →
    (reconcile c spec labels s h).value = (.ok o, s₁) → o.skipped = false →
    (reconcile c spec labels s h').value = (.ok o', s₂) → o'.skipped = false →
    JudgesApart found rows rows' o o' → EndAlike c spec labels s h h' rows rows'

variable {c : Config} {spec : VolumeSetSpec} {labels : NodeLabels} {s : State} {h h' : Host}
  {later : Scene} {files : FileView} {ds ds' : List Device} {d : Device} {q : Placement}
  {x : Candidate} {found : Signatures} {rows rows' : List Json}

/-! ### One device -/

theorem settle_puts_iff (hd : d ∈ ds) :
    (settle c spec s h ds).value.1.Puts d q ↔ q = place c spec s h d := by
  have hsorts : Sorts c spec s h ds (settle c spec s h ds).value.1.sorting := settle_sorts
  have hvalid := hsorts.valid_iff d
  have hdelayed := hsorts.delayed_iff d
  have hexcluded := hsorts.excluded_iff d
  simp only [Outcome.sorting, hd, true_and, ← Int.not_lt, ← Filter.standardFilters_pass_iff,
    ← InclusionSpec.filters_pass_iff] at hvalid hdelayed hexcluded
  unfold place
  dsimp only
  split
  case isTrue hrefused =>
    cases q <;> simp [Outcome.Puts, hvalid, hdelayed, hexcluded, hrefused]
  case isFalse hpass =>
    have hpass := Decidable.not_not.mp hpass
    split
    case isTrue hyoung =>
      cases q <;> simp [Outcome.Puts, hvalid, hdelayed, hexcluded, hpass, hyoung]
    case isFalse hold =>
      split
      case isTrue hrefused =>
        cases q <;> simp [Outcome.Puts, hvalid, hdelayed, hexcluded, hpass, hold, hrefused]
      case isFalse haccepted =>
        have haccepted := Decidable.not_not.mp haccepted
        cases q <;> simp [Outcome.Puts, hvalid, hdelayed, hexcluded, hpass, hold, haccepted]

theorem claimOf_forgetLink (hx : claimOf c later d = some x) :
    x.device.forgetLink = d.forgetLink := by
  unfold claimOf at hx
  split at hx
  case h_1 => cases hx
  case h_2 dir hdir =>
    by_cases hk : d.kname = ""
    · simp [candidate?, Device.node?_of_unnamed hk] at hx
    · exact (candidate?_device hk hx).1

theorem value_candidates :
    (candidates c later ds).value = ds.filterMap (claimOf c later) := by
  unfold candidates claimOf
  cases c.claimDir with
  | none => simp
  | some dir => rw [Traced.value_filterMap]

theorem settle_congr (H : h.SameButListing h') :
    settle c spec s h' ds = settle c spec s h ds := by
  obtain ⟨⟨files, openExclusive⟩, run, publish, now, later⟩ := h
  obtain ⟨⟨files', openExclusive'⟩, run', publish', now', later'⟩ := h'
  obtain ⟨rfl, rfl, rfl, rfl, -⟩ := H
  rfl

/-! ### The same devices in another order -/

theorem isOld_noted_of_perm (H : ds.Perm ds') {k : String} :
    (s.noted h.now ds').isOld c.minAge h.now k = (s.noted h.now ds).isOld c.minAge h.now k := by
  simp only [AgeRecord.isOld, State.noted, AgeRecord.firstSeen?_noteAll, (H.map _).mem_iff]

/-- Each list is made by keeping entries, whatever their order. -/
theorem sort_noted_of_perm (c : Config) (spec : VolumeSetSpec) (s : State) (h : Host)
    (H : ds.Perm ds') :
    let x := (sort c spec (s.noted h.now ds) h ds).value
    let x' := (sort c spec (s.noted h.now ds') h ds').value
    x.valid.Perm x'.valid ∧ x.delayed.Perm x'.delayed ∧ x.excluded.Perm x'.excluded := by
  simp only [sort, Traced.value_bind, Traced.value_pure, Filter.partition_passed,
    Filter.partition_excluded, isOld_noted_of_perm H]
  refine ⟨((H.filter _).filter _).filter _, (H.filter _).filter _, List.Perm.append ?_ ?_⟩
  · exact (H.filter _).map _
  · exact (((H.filter _).filter _).filter _).map _

theorem orphans_of_perm (H : ds.Perm ds') : orphans c files ds = orphans c files ds' := by
  simp only [orphans, Claim.orphans_congr fun _ => (H.map (·.kname)).mem_iff]

theorem settle_permutes (H : ds.Perm ds') :
    (settle c spec s h ds).value.1.Permutes (settle c spec s h ds').value.1 := by
  obtain ⟨hvalid, hdelayed, hexcluded⟩ := sort_noted_of_perm c spec s h H
  exact {
    valid := hvalid
    delayed := hdelayed
    excluded := hexcluded
    claims := by
      rw [settle_claims, settle_claims, value_candidates, value_candidates]
      exact hvalid.filterMap _
    orphaned := orphans_of_perm hvalid
    requeueAfter := congrArg (fun empty => if empty then c.requeueAfter else youngDelay c.minAge)
      hdelayed.isEmpty_eq }

/-! ### Two listings -/

theorem judgesApart_of_sameButListing :
    JudgesApart found rows rows'
      (settle c spec s h (Inventory.merged found (Inventory.ofRows rows)).devices).value.1
      (settle c spec s h (Inventory.merged found (Inventory.ofRows rows')).devices).value.1 where
  shared raw hraw hraw' d hd := by
    refine ⟨place c spec s h d, fun q => settle_puts_iff ?_, fun q => settle_puts_iff ?_⟩
    · exact Inventory.mem_merged_ofRows_iff.mpr ⟨raw, hraw, hd⟩
    · exact Inventory.mem_merged_ofRows_iff.mpr ⟨raw, hraw', hd⟩
  claims := ⟨claimOf c h.later, fun d x => claimOf_forgetLink, value_candidates, value_candidates⟩
  permuted H := settle_permutes (Inventory.merged_ofRows_perm H)

/-- Devices are judged apart from what is listed beside them. -/
theorem reconcile_judges_apart (hsame : h.SameButListing h') (hrows : Inventory.Usable h rows)
    (hrows' : Inventory.Usable h' rows') : EndAlike c spec labels s h h' rows rows' := by
  have hsignatures := Inventory.signatures_congr hsame
  cases hpicked : NodeSelector.picks labels spec.nodeSelector with
  | error e =>
    have hpass (h : Host) : (reconcile c spec labels s h).value = (.error e, s) := by
      simp [reconcile, hpicked]
    exact .faulty hpicked (hpass h) (hpass h')
  | ok applies =>
    cases applies with
    | false =>
      have hpass (h : Host) : (reconcile c spec labels s h).value = (.ok (.skip c), s) := by
        simp [reconcile, hpicked, Outcome.skip]
      exact .skipped hpicked (hpass h) (hpass h')
    | true =>
      cases hfound : (Inventory.signatures h []).value with
      | error e =>
        have hfound' : (Inventory.signatures h' []).value = .error e := by rw [hsignatures, hfound]
        exact .unsigned hpicked hfound
          (reconcile_of_survey_error hpicked (Inventory.survey_of_signatures_error hfound))
          (reconcile_of_survey_error hpicked (Inventory.survey_of_signatures_error hfound'))
      | ok found =>
        have hfound' : (Inventory.signatures h' []).value = .ok found := by rw [hsignatures, hfound]
        have hpass := reconcile_of_finds (c := c) (s := s) ⟨hpicked, (hrows.reads hfound).survey⟩
        have hpass' := reconcile_of_finds (c := c) (s := s)
          ⟨hpicked, (hrows'.reads hfound').survey⟩
        rw [settle_congr hsame] at hpass'
        exact .settled hpicked hfound hpass settle_skipped hpass' settle_skipped
          judgesApart_of_sameButListing

/-! ### Nodes in memory -/

theorem listingNode_sameButListing :
    (listingNode rows).host.SameButListing (listingNode rows').host where
  files := rfl
  openExclusive := rfl
  later := rfl
  now := rfl
  signatures := rfl

theorem listingNode_usable {raw : Json}
    (hrows : Inventory.rows? (Json.object [("blockdevices", .array rows)]).compact = some rows)
    (hraw : raw ∈ rows) (hd : Inventory.readRow raw = .ok d) :
    Inventory.Usable (listingNode rows).host rows where
  listed := ⟨⟨some 0, _⟩, rfl, rfl, hrows⟩
  usable := ⟨raw, hraw, d, hd⟩

/-- The row of a disk as it is read back, with its columns in order. -/
def diskRow : Json := .object [("kname", .text "a"), ("name", .text "a"), ("type", .text "disk")]

/-- A row with the same names that is not eligible. -/
def readOnlyRow : Json := .object [("kname", .text "a"), ("name", .text "a"), ("ro", .bool true)]

theorem rows?_diskRow : Inventory.rows? (Json.object [("blockdevices", .array [diskRow])]).compact =
    some [diskRow] := by rfl

theorem rows?_readOnlyRow_diskRow :
    Inventory.rows? (Json.object [("blockdevices", .array [.null, readOnlyRow, diskRow])]).compact =
      some [.null, readOnlyRow, diskRow] := by rfl

/-- The names in an outcome, and the identities that it has claims about. -/
def Outcome.names (o : Outcome) : List String × List String × List String :=
  (o.valid.map (·.kname), o.excluded.map (·.1.kname), o.claims.map (·.deviceId))

/-- Beside a disk stand a bad row and a read-only disk of the same name, or nothing. -/
theorem reconcile_judges_apart_one_disk :
    let rows := [diskRow]
    let rows' := [.null, readOnlyRow, diskRow]
    let h := (listingNode rows).host
    let h' := (listingNode rows').host
    h.SameButListing h' ∧ Inventory.Usable h rows ∧ Inventory.Usable h' rows' ∧
      ∃ found o o' s₁ s₂,
        (reconcile claimingConfig anySize [] .initial h).value = (.ok o, s₁) ∧
        (reconcile claimingConfig anySize [] .initial h').value = (.ok o', s₂) ∧
        JudgesApart found rows rows' o o' ∧ o.names = (["a"], [], ["/dev/a"]) ∧
        o'.names = (["a"], ["a"], ["/dev/a"]) := by
  intro rows rows' h h'
  have hread : Inventory.readRow diskRow =
      .ok { Device.blank with name := "a", kname := "a", type := "disk" } := by rfl
  have hrows : Inventory.Usable h rows := listingNode_usable rows?_diskRow (.head _) hread
  have hrows' : Inventory.Usable h' rows' :=
    listingNode_usable rows?_readOnlyRow_diskRow (.tail _ (.tail _ (.head _))) hread
  obtain ⟨o, ho, hnames⟩ := exists_ok_of_map
    (r := (reconcile claimingConfig anySize [] .initial h).value.1) (f := Outcome.names)
    (b := (["a"], [], ["/dev/a"])) (by decide +kernel)
  obtain ⟨o', ho', hnames'⟩ := exists_ok_of_map
    (r := (reconcile claimingConfig anySize [] .initial h').value.1) (f := Outcome.names)
    (b := (["a"], ["a"], ["/dev/a"])) (by decide +kernel)
  have hends : EndAlike claimingConfig anySize [] .initial h h' rows rows' :=
    reconcile_judges_apart listingNode_sameButListing hrows hrows'
  refine ⟨listingNode_sameButListing, hrows, hrows', ?_⟩
  cases hends with
  | faulty hpicked => cases hpicked
  | skipped hpicked => cases hpicked
  | unsigned _ _ hpass =>
    rw [hpass] at ho
    cases ho
  | settled _ _ hpass _ hpass' _ hapart =>
    rw [hpass] at ho
    rw [hpass'] at ho'
    cases ho
    cases ho'
    exact ⟨_, _, _, _, _, hpass, hpass', hapart, hnames, hnames'⟩

end VolumeSet

end NodeDisks
