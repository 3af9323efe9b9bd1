import NodeDisks.Proofs.VolumeSet.Pass

/-!
Rows that are set aside, and surveys that fail.
-/

/-!
## Names

Names of listed devices. A row at the top of a listing is usable only with a name, and without one it
is set aside as a bad row. What is stacked on a usable row is not asked for a name, so a nameless
device gets into an inventory exactly by standing on one that has a name (`survey_names_iff`).
-/

namespace NodeDisks.Inventory

variable {h : Host} {only : List String} {inv listing : Inventory} {raw : Json} {rows : List Json}
  {bad : BadRow} {d x : Device}

/-! ### Rows -/

theorem readRow_eq_ok_iff : readRow raw = .ok d ↔
    Device.ofJson raw = .ok d ∧ Text.blank d.name = false := by
  unfold readRow
  constructor
  · intro H
    split at H
    case h_1 => cases H
    case h_2 d' hd' =>
      split at H
      case isTrue => cases H
      case isFalse hnamed =>
        cases H
        exact ⟨hd', by simpa using hnamed⟩
  · rintro ⟨hd, hnamed⟩
    simp [hd, hnamed]

theorem readRow_of_nameless (hd : Device.ofJson raw = .ok d) (hblank : Text.blank d.name = true) :
    readRow raw = .error ⟨raw, "empty name"⟩ := by
  simp [readRow, hd, hblank]

theorem mem_ofRows_devices_iff : d ∈ (ofRows rows).devices ↔ ∃ raw ∈ rows, readRow raw = .ok d := by
  induction rows with
  | nil => simp [ofRows]
  | cons raw rows ih =>
    rw [ofRows]
    cases hread : readRow raw with
    | error bad => simp [hread, ih]
    | ok d' => simp [hread, ih, eq_comm]

theorem ofRows_devices_eq_filterMap :
    (ofRows rows).devices = rows.filterMap fun raw => (readRow raw).toOption := by
  induction rows with
  | nil => rfl
  | cons raw rows ih =>
    rw [ofRows, List.filterMap_cons, ← ih]
    cases readRow raw <;> rfl

theorem mem_ofRows_badRows (hraw : raw ∈ rows) (hbad : readRow raw = .error bad) :
    bad ∈ (ofRows rows).badRows := by
  induction rows with
  | nil => cases hraw
  | cons raw' rows ih =>
    rw [ofRows]
    rcases List.mem_cons.mp hraw with rfl | hraw
    · rw [hbad]
      exact .head _
    · have hrest := ih hraw
      cases readRow raw' with
      | ok d => exact hrest
      | error bad' => exact .tail _ hrest

/-! ### Listings -/

/-- The listing tool shows these rows at the top. -/
def Lists (h : Host) (only : List String) (rows : List Json) : Prop :=
  ∃ o, h.run (listCommand only) = .ok o ∧ rows? o.output = some rows

theorem exists_rows_of_ofListing {output : String} (hl : ofListing output = .ok listing) :
    ∃ rows, rows? output = some rows ∧ listing = ofRows rows := by
  unfold ofListing at hl
  split at hl
  case h_1 => cases hl
  case h_2 rows hrows =>
    dsimp only at hl
    split at hl
    · cases hl
    · exact ⟨rows, hrows, (Except.ok.inj hl).symm⟩

theorem exists_lists_of_survey (hinv : (survey h only).value = .ok inv) :
    ∃ rows found, Lists h only rows ∧ inv = merged found (ofRows rows) := by
  obtain ⟨found, listing, H, rfl⟩ := exists_reads_of_survey hinv
  obtain ⟨o, hrun, -, hlisting⟩ := H.listed
  obtain ⟨rows, hrows, rfl⟩ := exists_rows_of_ofListing hlisting
  exact ⟨rows, found, ⟨o, hrun, hrows⟩, rfl⟩

/-- Merging and flattening keep names, so the inventory has the names of the rows at all depths. -/
theorem forall_merged_name_iff {found : Signatures} {p : String → Prop} :
    (∀ y ∈ (merged found listing).devices, p y.name) ↔
      ∀ d ∈ listing.devices, ∀ x : Device, x.Within d → p x.name := by
  constructor
  · intro H d hd x hx
    have hmem : found.mergeInto x ∈ (merged found listing).devices := (found.kept _).entry d hd x hx
    rw [← Signatures.mergeInto_name (s := found)]
    exact H _ hmem
  · intro H y hy
    obtain ⟨d, hd, x, hx, rfl⟩ := Signatures.mem_flattened_mergeIntoAll_iff.mp hy
    rw [Signatures.mergeInto_name]
    exact H d hd x hx

/-! ### Nameless devices -/

/-- A partition without a name on a disk that has one. -/
def namelessPartition : MemoryNode :=
  let partition := Json.object [("kname", .text "b"), ("type", .text "part")]
  VolumeSet.listingNode [VolumeSet.listingRow "a" "disk" [("children", .array [partition])]]

theorem exists_survey_namelessPartition : ∃ inv,
    (survey namelessPartition.host []).value = .ok inv ∧
      ¬(∀ x ∈ inv.devices, Text.blank x.name = false) ∧ inv.badRows = [] := by
  obtain ⟨inv, hinv, hreport⟩ := exists_ok_of_map
    (r := (survey namelessPartition.host []).value)
    (f := fun inv => (inv.devices.map (·.name), inv.badRows.length))
    (b := (["a", ""], 0)) (by decide +kernel)
  obtain ⟨hnames, hbad⟩ := Prod.mk.inj hreport
  refine ⟨inv, hinv, fun hnamed => ?_, List.eq_nil_of_length_eq_zero hbad⟩
  have hmem : "" ∈ inv.devices.map (·.name) := by simp [hnames]
  obtain ⟨x, hx, hname⟩ := List.mem_map.mp hmem
  have hblank := hnamed x hx
  rw [hname] at hblank
  exact absurd hblank (by decide)

/-- Nameless rows at the top are bad rows, and the inventory is free of nameless devices exactly when
nothing nameless stands on a row that is usable. -/
theorem survey_names_iff (hinv : (survey h only).value = .ok inv) :
    ∃ rows, Lists h only rows ∧
      (∀ raw ∈ rows, ∀ d, Device.ofJson raw = .ok d → Text.blank d.name = true →
        ⟨raw, "empty name"⟩ ∈ inv.badRows) ∧
      ((∀ x ∈ inv.devices, Text.blank x.name = false) ↔
        ∀ raw ∈ rows, ∀ d, Device.ofJson raw = .ok d → Text.blank d.name = false →
          ∀ c ∈ d.children, ∀ x : Device, x.Within c → Text.blank x.name = false) := by
  obtain ⟨rows, found, hlists, rfl⟩ := exists_lists_of_survey hinv
  refine ⟨rows, hlists, fun raw hraw d hd hblank => ?_, ?_⟩
  · exact mem_ofRows_badRows hraw (readRow_of_nameless hd hblank)
  rw [forall_merged_name_iff (p := fun name => Text.blank name = false)]
  constructor
  · intro H raw hraw d hd hnamed c hc x hx
    have husable : d ∈ (ofRows rows).devices :=
      mem_ofRows_devices_iff.mpr ⟨raw, hraw, readRow_eq_ok_iff.mpr ⟨hd, hnamed⟩⟩
    exact H d husable x (.child hc hx)
  · intro H d husable x hx
    obtain ⟨raw, hraw, hread⟩ := mem_ofRows_devices_iff.mp husable
    obtain ⟨hd, hnamed⟩ := readRow_eq_ok_iff.mp hread
    rcases Device.within_iff.mp hx with rfl | ⟨c, hc, hx⟩
    · exact hnamed
    · exact H raw hraw d hd hnamed c hc x hx

/-- The listing with the nameless partition, which stands on a usable row. -/
theorem survey_names_iff_namelessPartition : ∃ inv rows,
    (survey namelessPartition.host []).value = .ok inv ∧ Lists namelessPartition.host [] rows ∧
      inv.badRows = [] ∧ ¬(∀ x ∈ inv.devices, Text.blank x.name = false) ∧
      ¬∀ raw ∈ rows, ∀ d, Device.ofJson raw = .ok d → Text.blank d.name = false →
        ∀ c ∈ d.children, ∀ x : Device, x.Within c → Text.blank x.name = false := by
  obtain ⟨inv, hinv, hnameless, hbad⟩ := exists_survey_namelessPartition
  obtain ⟨rows, hlists, -, hiff⟩ := survey_names_iff hinv
  exact ⟨inv, rows, hinv, hlists, hbad, hnameless, fun H => hnameless (hiff.mpr H)⟩

/-- It is not so that a listed device without a name is a bad row instead. -/
theorem survey_not_always_named : ¬∀ inv,
    (survey namelessPartition.host []).value = .ok inv →
      ∀ x ∈ inv.devices, Text.blank x.name = false := by
  intro hall
  obtain ⟨inv, hinv, hnameless, -⟩ := exists_survey_namelessPartition
  exact hnameless (hall inv hinv)

end NodeDisks.Inventory

/-!
## Failures

When a survey fails. Every reason is one of a tool: it cannot be run, its exit code says that it
failed, or its listing cannot be read or has rows of which none is usable (`survey_error_iff`). It does
not matter what the other tool answers, and nothing but the tools is asked.
-/

namespace NodeDisks.Inventory

/-- One of the tools keeps the devices from being listed. -/
inductive Unlistable (h : Host) (only : List String) : Prop where
  | signatureTool {e : IoError} : h.run (signatureCommand only) = .error e → Unlistable h only
  | signatureExit {o : CommandOutput} : h.run (signatureCommand only) = .ok o →
    o.code ≠ some 0 → o.code ≠ some 2 → Unlistable h only
  | listTool {e : IoError} : h.run (listCommand only) = .error e → Unlistable h only
  | listExit {o : CommandOutput} : h.run (listCommand only) = .ok o → o.code ≠ some 0 →
    Unlistable h only
  | unreadable {o : CommandOutput} : h.run (listCommand only) = .ok o → rows? o.output = none →
    Unlistable h only
  | noUsableRow {o : CommandOutput} {rows : List Json} : h.run (listCommand only) = .ok o →
    rows? o.output = some rows → rows ≠ [] → (∀ raw ∈ rows, ∃ bad, readRow raw = .error bad) →
    Unlistable h only

variable {h : Host} {only : List String} {found : Signatures} {e : Error}
  {rows : List Json} {o : CommandOutput}

theorem success_iff : o.success = true ↔ o.code = some 0 := by
  simp [CommandOutput.success]

/-! ### Each tool -/

theorem signatures_error_iff : (∃ e, (signatures h only).value = .error e) ↔
    (∃ e, h.run (signatureCommand only) = .error e) ∨
      ∃ o, h.run (signatureCommand only) = .ok o ∧ o.code ≠ some 0 ∧ o.code ≠ some 2 := by
  simp only [signatures, Traced.value_bind, Host.value_execute, nothingFound]
  cases h.run (signatureCommand only) with
  | error e => simp
  | ok o =>
    by_cases h0 : o.code = some 0
    · simp [h0]
    · by_cases h2 : o.code = some 2 <;> simp [h0, h2]

theorem ofRows_devices_eq_nil_iff :
    (ofRows rows).devices = [] ↔ ∀ raw ∈ rows, ∃ bad, readRow raw = .error bad := by
  rw [List.eq_nil_iff_forall_not_mem]
  constructor
  · intro H raw hraw
    cases hread : readRow raw with
    | error bad => exact ⟨bad, rfl⟩
    | ok d => exact absurd (mem_ofRows_devices_iff.mpr ⟨raw, hraw, hread⟩) (H d)
  · intro H d hd
    obtain ⟨raw, hraw, hread⟩ := mem_ofRows_devices_iff.mp hd
    obtain ⟨bad, hbad⟩ := H raw hraw
    rw [hbad] at hread
    cases hread

theorem ofListing_error_iff {output : String} : (∃ e, ofListing output = .error e) ↔
    rows? output = none ∨ ∃ rows, rows? output = some rows ∧ rows ≠ [] ∧
      ∀ raw ∈ rows, ∃ bad, readRow raw = .error bad := by
  unfold ofListing
  cases rows? output with
  | none => simp
  | some rows =>
    simp only [← ofRows_devices_eq_nil_iff]
    by_cases hrows : rows = [] <;> by_cases hnone : (ofRows rows).devices = [] <;>
      simp [hrows, hnone, ofRows]

/-! ### The survey -/

theorem survey_of_signatures_error (he : (signatures h only).value = .error e) :
    (survey h only).value = .error e := by
  simp [survey, he]

/-- With signatures found it is up to the listing tool. -/
theorem survey_error_iff_of_signatures (hfound : (signatures h only).value = .ok found) :
    (∃ e, (survey h only).value = .error e) ↔
      (∃ e, h.run (listCommand only) = .error e) ∨
        ∃ o, h.run (listCommand only) = .ok o ∧
          (o.code ≠ some 0 ∨ ∃ e, ofListing o.output = .error e) := by
  simp only [survey, Traced.value_bind, hfound, Host.value_execute]
  cases h.run (listCommand only) with
  | error e => simp
  | ok o =>
    by_cases hsuccess : o.code = some 0
    · have hsuccess' : o.success = true := success_iff.mpr hsuccess
      cases hlisting : ofListing o.output <;> simp [hsuccess, hsuccess', hlisting]
    · have hfailed : o.success = false := by
        rw [← Bool.not_eq_true, success_iff]
        exact hsuccess
      simp [hsuccess, hfailed]

/-- A listing tool that does not do its part fails the survey, whatever the signature tool does. -/
theorem exists_survey_error (H : (∃ e, h.run (listCommand only) = .error e) ∨
    ∃ o, h.run (listCommand only) = .ok o ∧
      (o.code ≠ some 0 ∨ ∃ e, ofListing o.output = .error e)) :
    ∃ e, (survey h only).value = .error e := by
  cases hfound : (signatures h only).value with
  | error e => exact ⟨e, survey_of_signatures_error hfound⟩
  | ok found => exact (survey_error_iff_of_signatures hfound).mpr H

theorem survey_error_iff : (∃ e, (survey h only).value = .error e) ↔ Unlistable h only := by
  constructor
  · intro H
    cases hfound : (signatures h only).value with
    | error e =>
      rcases signatures_error_iff.mp ⟨e, hfound⟩ with ⟨e, he⟩ | ⟨o, ho, h0, h2⟩
      · exact .signatureTool he
      · exact .signatureExit ho h0 h2
    | ok found =>
      rcases (survey_error_iff_of_signatures hfound).mp H with ⟨e, he⟩ | ⟨o, ho, hexit | hlisting⟩
      · exact .listTool he
      · exact .listExit ho hexit
      · rcases ofListing_error_iff.mp hlisting with hnone | ⟨rows, hrows, hne, hbad⟩
        · exact .unreadable ho hnone
        · exact .noUsableRow ho hrows hne hbad
  · intro H
    cases H with
    | signatureTool he =>
      obtain ⟨e', he'⟩ := signatures_error_iff.mpr (.inl ⟨_, he⟩)
      exact ⟨e', survey_of_signatures_error he'⟩
    | signatureExit ho h0 h2 =>
      obtain ⟨e', he'⟩ := signatures_error_iff.mpr (.inr ⟨_, ho, h0, h2⟩)
      exact ⟨e', survey_of_signatures_error he'⟩
    | listTool he => exact exists_survey_error (.inl ⟨_, he⟩)
    | listExit ho hexit => exact exists_survey_error (.inr ⟨_, ho, .inl hexit⟩)
    | unreadable ho hnone =>
      have hlisting := ofListing_error_iff.mpr (.inl hnone)
      exact exists_survey_error (.inr ⟨_, ho, .inr hlisting⟩)
    | noUsableRow ho hrows hne hbad =>
      have hlisting := ofListing_error_iff.mpr (.inr ⟨_, hrows, hne, hbad⟩)
      exact exists_survey_error (.inr ⟨_, ho, .inr hlisting⟩)

/-- Nothing of a node counts for its survey but the answers to commands. -/
theorem survey_congr {h' : Host} (hrun : h'.run = h.run) : survey h' only = survey h only := by
  simp only [survey, signatures, Host.execute, hrun]

end NodeDisks.Inventory
