import NodeDisks.Proofs.Inventory.Failure
import NodeDisks.Proofs.Json.Recognition

/-!
Rows of a listing are read apart from each other. A row is usable when it `Decodes`, and any other is
set aside with what is `Faulty` about it; devices and bad rows together are the rows in their order
(`Interleaves`). A listing fails only when none of its rows is usable, or when its text does not hold
rows at all by the grammar of JSON (`ofListing_isolates`).
-/

namespace NodeDisks.Inventory

/-- The row reads as the device, and the device has a name. -/
structure Decodes (raw : Json) (d : Device) : Prop where
  read : Device.ofJson raw = .ok d
  named : Text.blank d.name = false

/-- What is wrong with a row. -/
inductive Faulty (raw : Json) : String → Prop where
  | unreadable {e : DecodeError} : Device.ofJson raw = .error e → Faulty raw e.message
  | nameless {d : Device} : Device.ofJson raw = .ok d → Text.blank d.name = true →
    Faulty raw "empty name"

/-- The rows are, in their order, those of the devices and the bad ones. -/
inductive Interleaves : List Json → List Device → List BadRow → Prop where
  | nil : Interleaves [] [] []
  | device {raw : Json} {d : Device} {rows : List Json} {ds : List Device} {bad : List BadRow} :
    Decodes raw d → Interleaves rows ds bad → Interleaves (raw :: rows) (d :: ds) bad
  | bad {raw : Json} {reason : String} {rows : List Json} {ds : List Device} {bad : List BadRow} :
    (¬∃ d, Decodes raw d) → Faulty raw reason → Interleaves rows ds bad →
    Interleaves (raw :: rows) ds (⟨raw, reason⟩ :: bad)

/-- The second list is the first with one more row, which cannot be used. -/
inductive Inserts : List Json → List Json → Prop where
  | mk {before after : List Json} {raw : Json} : (¬∃ d, Decodes raw d) →
    Inserts (before ++ after) (before ++ raw :: after)

/-- The output is a JSON record whose block devices, if it has that field, are an array of these
rows. -/
def Holds (output : String) (rows : List Json) : Prop :=
  Json.Grammar.RecordOf "blockdevices" (Text.trim output).toList rows

/-- What becomes of a listing, row by row. -/
structure Isolates (output : String) : Prop where
  /-- Unless there are rows and all are bad, the devices and the bad rows make up the rows. -/
  sorted : ∀ rows, Holds output rows → (rows = [] ∨ ∃ raw ∈ rows, ∃ d, Decodes raw d) →
    ∃ inv, ofListing output = .ok inv ∧ Interleaves rows inv.devices inv.badRows
  /-- Bad rows that are put in or taken out do not count for the devices. -/
  unaffected : ∀ rows output' rows', Holds output rows → Holds output' rows' →
    Relation.EqvGen Inserts rows rows' →
      (∀ inv inv', ofListing output = .ok inv → ofListing output' = .ok inv' →
        inv'.devices = inv.devices) ∧
      ((∃ raw ∈ rows, ∃ d, Decodes raw d) →
        (∃ inv, ofListing output = .ok inv) ∧ ∃ inv', ofListing output' = .ok inv')
  allBad : ∀ n, ofListing output = .error (.noParsableRows n) ↔
    ∃ rows, Holds output rows ∧ rows ≠ [] ∧ (¬∃ raw ∈ rows, ∃ d, Decodes raw d) ∧ n = rows.length
  unreadable : (∃ f, ofListing output = .error (.enumeration f)) ↔ ¬∃ rows, Holds output rows

variable {raw : Json} {rows rows' : List Json} {output : String} {d : Device} {bad : BadRow}
  {inv : Inventory}

theorem rows?_eq_some_iff : rows? output = some rows ↔ Holds output rows :=
  Json.arrayField?_eq_some_iff

theorem readRow_ok_iff_decodes : readRow raw = .ok d ↔ Decodes raw d := by
  rw [readRow_eq_ok_iff]
  exact ⟨fun ⟨hread, hnamed⟩ => ⟨hread, hnamed⟩, fun ⟨hread, hnamed⟩ => ⟨hread, hnamed⟩⟩

theorem faulty_of_readRow (H : readRow raw = .error bad) :
    ∃ reason, Faulty raw reason ∧ bad = ⟨raw, reason⟩ := by
  unfold readRow at H
  split at H
  case h_1 e he =>
    cases H
    exact ⟨_, .unreadable he, rfl⟩
  case h_2 d hd =>
    split at H
    case isTrue hblank =>
      cases H
      exact ⟨_, .nameless hd hblank, rfl⟩
    case isFalse => cases H

theorem not_decodes_iff : (¬∃ d, Decodes raw d) ↔ ∃ bad, readRow raw = .error bad := by
  simp only [← readRow_ok_iff_decodes]
  cases readRow raw <;> simp

theorem interleaves_ofRows (rows : List Json) :
    Interleaves rows (ofRows rows).devices (ofRows rows).badRows := by
  induction rows with
  | nil => exact .nil
  | cons raw rows ih =>
    rw [ofRows]
    cases hread : readRow raw with
    | ok d => exact .device (readRow_ok_iff_decodes.mp hread) ih
    | error bad =>
      obtain ⟨reason, hfaulty, rfl⟩ := faulty_of_readRow hread
      exact .bad (not_decodes_iff.mpr ⟨_, hread⟩) hfaulty ih

theorem Inserts.devices_eq (H : Inserts rows rows') :
    (ofRows rows').devices = (ofRows rows).devices := by
  obtain ⟨hraw⟩ := H
  obtain ⟨bad, hbad⟩ := not_decodes_iff.mp hraw
  simp [ofRows_devices_eq_filterMap, hbad, Except.toOption]

theorem devices_eq_of_eqvGen (H : Relation.EqvGen Inserts rows rows') :
    (ofRows rows').devices = (ofRows rows).devices := by
  induction H with
  | rel _ _ h => exact h.devices_eq
  | refl => rfl
  | symm _ _ _ ih => exact ih.symm
  | trans _ _ _ _ _ ih ih' => exact ih'.trans ih

theorem exists_decodes_iff : (∃ raw ∈ rows, ∃ d, Decodes raw d) ↔ (ofRows rows).devices ≠ [] := by
  rw [Ne, ofRows_devices_eq_nil_iff]
  simp only [← not_decodes_iff, not_forall, not_not, exists_prop]

/-! ### Listings -/

theorem ofListing_of_usable (H : Holds output rows)
    (hrows : rows = [] ∨ ∃ raw ∈ rows, ∃ d, Decodes raw d) :
    ofListing output = .ok (ofRows rows) := by
  rw [exists_decodes_iff] at hrows
  simp only [ofListing, rows?_eq_some_iff.mpr H]
  rcases hrows with rfl | hrows <;> simp [*]

theorem ofListing_of_allBad (H : Holds output rows) (hne : rows ≠ [])
    (hrows : ¬∃ raw ∈ rows, ∃ d, Decodes raw d) :
    ofListing output = .error (.noParsableRows rows.length) := by
  rw [exists_decodes_iff, not_not] at hrows
  simp [ofListing, rows?_eq_some_iff.mpr H, hne, hrows]

theorem ofListing_of_unreadable (H : ¬∃ rows, Holds output rows) :
    ofListing output = .error (.enumeration (.unreadable output)) := by
  have hrows : rows? output = none := by
    simpa only [← rows?_eq_some_iff, Option.eq_none_iff_forall_ne_some, not_exists] using H
  rw [ofListing, hrows]

/-- A listing goes one of three ways. -/
theorem ofListing_cases (output : String) :
    (¬∃ rows, Holds output rows) ∨ ∃ rows, Holds output rows ∧
      ((rows = [] ∨ ∃ raw ∈ rows, ∃ d, Decodes raw d) ∨
        rows ≠ [] ∧ ¬∃ raw ∈ rows, ∃ d, Decodes raw d) := by
  by_cases H : ∃ rows, Holds output rows
  · obtain ⟨rows, H⟩ := H
    refine .inr ⟨rows, H, ?_⟩
    by_cases hrows : rows = [] ∨ ∃ raw ∈ rows, ∃ d, Decodes raw d
    · exact .inl hrows
    · exact .inr (not_or.mp hrows)
  · exact .inl H

theorem Holds.unique (H : Holds output rows) (H' : Holds output rows') : rows = rows' :=
  Option.some.inj ((rows?_eq_some_iff.mpr H).symm.trans (rows?_eq_some_iff.mpr H'))

theorem ofListing_eq_ok_iff (H : Holds output rows) : ofListing output = .ok inv ↔
    (rows = [] ∨ ∃ raw ∈ rows, ∃ d, Decodes raw d) ∧ inv = ofRows rows := by
  constructor
  · intro hinv
    by_cases hrows : rows = [] ∨ ∃ raw ∈ rows, ∃ d, Decodes raw d
    · rw [ofListing_of_usable H hrows] at hinv
      cases hinv
      exact ⟨hrows, rfl⟩
    · obtain ⟨hne, hbad⟩ := not_or.mp hrows
      rw [ofListing_of_allBad H hne hbad] at hinv
      cases hinv
  · rintro ⟨hrows, rfl⟩
    exact ofListing_of_usable H hrows

theorem ofListing_eq_noParsableRows_iff {n : Nat} : ofListing output = .error (.noParsableRows n) ↔
    ∃ rows, Holds output rows ∧ rows ≠ [] ∧ (¬∃ raw ∈ rows, ∃ d, Decodes raw d) ∧
      n = rows.length := by
  constructor
  · intro herror
    rcases ofListing_cases output with H | ⟨rows, H, hrows | ⟨hne, hbad⟩⟩
    · rw [ofListing_of_unreadable H] at herror
      cases herror
    · rw [ofListing_of_usable H hrows] at herror
      cases herror
    · rw [ofListing_of_allBad H hne hbad] at herror
      cases herror
      exact ⟨rows, H, hne, hbad, rfl⟩
  · rintro ⟨rows, H, hne, hbad, rfl⟩
    exact ofListing_of_allBad H hne hbad

theorem ofListing_eq_enumeration_iff :
    (∃ f, ofListing output = .error (.enumeration f)) ↔ ¬∃ rows, Holds output rows := by
  constructor
  · rintro ⟨f, herror⟩ ⟨rows, H⟩
    by_cases hrows : rows = [] ∨ ∃ raw ∈ rows, ∃ d, Decodes raw d
    · rw [ofListing_of_usable H hrows] at herror
      cases herror
    · obtain ⟨hne, hbad⟩ := not_or.mp hrows
      rw [ofListing_of_allBad H hne hbad] at herror
      cases herror
  · intro H
    exact ⟨_, ofListing_of_unreadable H⟩

theorem exists_decodes_of_eqvGen (H : Relation.EqvGen Inserts rows rows') :
    (∃ raw ∈ rows', ∃ d, Decodes raw d) ↔ ∃ raw ∈ rows, ∃ d, Decodes raw d := by
  rw [exists_decodes_iff, exists_decodes_iff, devices_eq_of_eqvGen H]

/-- A bad row costs a listing nothing but itself. -/
theorem ofListing_isolates (output : String) : Isolates output where
  sorted rows H hrows := ⟨_, (ofListing_eq_ok_iff H).mpr ⟨hrows, rfl⟩, interleaves_ofRows rows⟩
  unaffected rows output' rows' H H' hinserts := by
    constructor
    · intro inv inv' hinv hinv'
      obtain ⟨-, rfl⟩ := (ofListing_eq_ok_iff H).mp hinv
      obtain ⟨-, rfl⟩ := (ofListing_eq_ok_iff H').mp hinv'
      exact devices_eq_of_eqvGen hinserts
    · intro husable
      have husable' := (exists_decodes_of_eqvGen hinserts).mpr husable
      exact ⟨⟨_, (ofListing_eq_ok_iff H).mpr ⟨.inr husable, rfl⟩⟩,
        _, (ofListing_eq_ok_iff H').mpr ⟨.inr husable', rfl⟩⟩
  allBad n := ofListing_eq_noParsableRows_iff
  unreadable := ofListing_eq_enumeration_iff

/-- A row that is no record and one without a name stand around a usable one. -/
example :
    let output := "\x7b\"blockdevices\": [7, \x7b\"name\": \"a\"\x7d, \x7b\"name\": \" \"\x7d]\x7d"
    (ofListing output).toOption.map (fun inv => (inv.devices.map (·.name), inv.badRows.length)) =
      some (["a"], 2) := by
  decide +kernel

end NodeDisks.Inventory
