import NodeDisks.Device
import NodeDisks.Proofs.Json.Codec
import NodeDisks.Proofs.Text

/-!
## Predicates

Readings of a device: when it has a node, and what its predicates say about its columns.
-/

namespace NodeDisks.Device

variable {d : Device}

theorem node?_of_unnamed (hk : d.kname = "") : d.node? = .error (.emptyKernelName d.name) := by
  simp [node?, hk]

theorem node?_of_named (hk : d.kname ≠ "") : d.node? = .ok ("/dev/" ++ d.kname) := by
  simp [node?, hk]

theorem hasBootLabel_iff : d.hasBootLabel = true ↔
    Text.MentionsAnyCase "bios" d.partLabel ∨ Text.MentionsAnyCase "boot" d.partLabel := by
  simp only [hasBootLabel, Bool.or_eq_true, Text.occursIn_lower_iff]

theorem hasBootLabel_eq_false_iff : d.hasBootLabel = false ↔
    ¬Text.MentionsAnyCase "bios" d.partLabel ∧ ¬Text.MentionsAnyCase "boot" d.partLabel := by
  rw [← Bool.not_eq_true, hasBootLabel_iff, not_or]

theorem hasFilesystem_eq_false_iff : d.hasFilesystem = false ↔ d.fsType = "" := by
  simp [hasFilesystem]

theorem isSuspended_eq_false_iff : d.isSuspended = false ↔ d.state ≠ "suspended" := by
  simp [isSuspended]

end NodeDisks.Device

/-!
## Rows

Rows of devices, read and written. Whatever form a row has, the device that is read from it is trimmed
(`trimmed_of_ofJson`), because every column leaves a trimmed device trimmed; and a trimmed device is
read as it was written (`Trimmed.reread`), by induction on the devices stacked on it.
-/

namespace NodeDisks

namespace Device

/-- The texts of the columns that the listing fills. -/
def columnTexts (d : Device) : List String :=
  [d.name, d.kname, d.type, d.model, d.vendor, d.serial, d.state, d.partLabel, d.wwn]

/-- No blanks around these texts, in the device and in those stacked on it. -/
inductive Trimmed : Device → Prop where
  | mk {d : Device} : (∀ s ∈ d.columnTexts, Text.Trimmed s) → (∀ c ∈ d.children, Trimmed c) →
    Trimmed d

/-- At most so many devices are stacked one on another. -/
inductive Nests : Nat → Device → Prop where
  | mk {height : Nat} {d : Device} : (∀ c ∈ d.children, Nests height c) → Nests (height + 1) d

/-- A value in a row that is read as one. -/
def cellOf (j : Json) : Cell := ⟨j, listed j⟩

theorem cellsOfEntries_eq (es : List (String × Json)) :
    cellsOfEntries es = es.map fun e => (e.1, cellOf e.2) := by
  induction es with
  | nil => rfl
  | cons e es ih => rw [cellsOfEntries, ih, List.map_cons, cellOf]

theorem ofElements_eq (js : List Json) : ofElements js = js.mapM ofJson := by
  induction js with
  | nil => rfl
  | cons j js ih =>
    rw [ofElements, List.mapM_cons, ← ih]
    cases ofJson j with
    | error e => rfl
    | ok d => cases ofElements js <;> rfl

theorem childrenJson_eq (ds : List Device) : childrenJson ds = ds.map toJson := by
  induction ds with
  | nil => rfl
  | cons d ds ih => rw [childrenJson, ih, List.map_cons]

theorem columns_commute : columns.Pairwise Field.Commutes := by
  simp only [columns, List.pairwise_cons, List.forall_mem_cons, List.not_mem_nil,
    false_imp_iff, implies_true, and_true, List.Pairwise.nil]
  and_intros <;> exact Field.commutes_of_sets rfl rfl fun _ _ _ => rfl

/-! ### What is read is trimmed -/

theorem trimmed_of_textColumn {j : Json} {s : String} (H : textColumn j = .ok s) :
    Text.Trimmed s := by
  cases j with
  | null =>
    cases H
    decide
  | text t =>
    cases H
    exact Text.trimmed_trim t
  | _ => cases H

/-- The devices that the cell lists are trimmed. -/
def Cell.ListsTrimmed (cell : Cell) : Prop := ∀ ds, cell.listed = .ok ds → ∀ d ∈ ds, d.Trimmed

/-- Reading the field leaves a trimmed device trimmed. -/
def KeepsTrimmed (f : Field Cell Device) : Prop :=
  ∀ cell d d', cell.ListsTrimmed → d.Trimmed → f.read cell d = .ok d' → d'.Trimmed

section Columns

variable {α : Type} {key : String} {aliases : List String} {set : α → Device → Device}

theorem keepsTrimmed_of_set {f : Field Cell Device} {read : Cell → Except DecodeError α}
    (hf : f.read = fun cell d => (read cell).map fun a => set a d)
    (H : ∀ cell a d, cell.ListsTrimmed → read cell = .ok a → d.Trimmed → (set a d).Trimmed) :
    KeepsTrimmed f := by
  intro cell d d' hcell hd hread
  rw [hf] at hread
  cases ha : read cell with
  | error e => simp [ha, Except.map] at hread
  | ok a =>
    obtain rfl : set a d = d' := by simpa [ha, Except.map] using hread
    exact H cell a d hcell ha hd

theorem keepsTrimmed_textColumn {set : String → Device → Device} (H : ∀ s d,
    (set s d).columnTexts ⊆ s :: d.columnTexts ∧ (set s d).children = d.children) :
    KeepsTrimmed (column key aliases textColumn set) := by
  apply keepsTrimmed_of_set rfl
  rintro cell s d - hs ⟨htexts, hchildren⟩
  refine .mk (fun t ht => ?_) (by rwa [(H s d).2])
  rcases List.mem_cons.mp ((H s d).1 ht) with rfl | ht
  · exact trimmed_of_textColumn hs
  · exact htexts t ht

theorem keepsTrimmed_column {read : Json → Except DecodeError α} (H : ∀ a d,
    (set a d).columnTexts = d.columnTexts ∧ (set a d).children = d.children) :
    KeepsTrimmed (column key aliases read set) := by
  apply keepsTrimmed_of_set rfl
  rintro cell a d - - ⟨htexts, hchildren⟩
  exact .mk (by rwa [(H a d).1]) (by rwa [(H a d).2])

theorem keepsTrimmed_children : KeepsTrimmed
    { key, aliases, required := false
      read := fun cell d => cell.listed.map fun ds => { d with children := ds } } := by
  apply keepsTrimmed_of_set rfl
  rintro cell ds d hcell hds ⟨htexts, -⟩
  exact .mk htexts (hcell ds hds)

theorem keepsTrimmed_of_mem : ∀ f ∈ columns, KeepsTrimmed f := by
  simp only [columns, List.forall_mem_cons, List.not_mem_nil, false_imp_iff, implies_true,
    and_true]
  and_intros
  -- The columns of text differ from the others in what they do to `columnTexts`.
  all_goals first
    | exact keepsTrimmed_textColumn fun _ _ =>
        ⟨by simp only [columnTexts, List.cons_subset, List.nil_subset, List.mem_cons, true_or,
          or_true, and_self], rfl⟩
    | exact keepsTrimmed_column fun _ _ => ⟨rfl, rfl⟩
    | exact keepsTrimmed_children

end Columns

theorem trimmed_blank : blank.Trimmed := by
  refine .mk ?_ ?_
  · decide
  · simp [blank]

mutual

theorem trimmed_of_ofJson : ∀ j d, ofJson j = .ok d → d.Trimmed
  | .object es, _, H =>
    row.ofEntries_keeps keepsTrimmed_of_mem (listsTrimmed_of_entry es) trimmed_blank H
  | .array vs, _, H =>
    row.readElements_keeps keepsTrimmed_of_mem (listsTrimmed_of_element vs) trimmed_blank H
  | .null, _, H | .bool _, _, H | .number _, _, H | .text _, _, H => by cases H

theorem trimmed_of_listed : ∀ j ds, listed j = .ok ds → ∀ d ∈ ds, d.Trimmed
  | .array vs, ds, H => trimmed_of_ofElements vs ds H
  | .null, _, H => by
    cases H
    simp
  | .object _, _, H | .bool _, _, H | .number _, _, H | .text _, _, H => by cases H

theorem trimmed_of_ofElements : ∀ js ds, ofElements js = .ok ds → ∀ d ∈ ds, d.Trimmed
  | [], ds, H => by
    cases H
    simp
  | j :: js, ds, H => by
    rw [ofElements] at H
    cases hj : ofJson j with
    | error e => simp [hj] at H
    | ok d =>
      cases hjs : ofElements js with
      | error e => simp [hj, hjs, Except.map] at H
      | ok ds' =>
        obtain rfl : d :: ds' = ds := by simpa [hj, hjs, Except.map] using H
        exact List.forall_mem_cons.mpr ⟨trimmed_of_ofJson j d hj, trimmed_of_ofElements js ds' hjs⟩

theorem listsTrimmed_of_entry : ∀ es, ∀ e ∈ cellsOfEntries es, e.2.ListsTrimmed
  | [], e, he => absurd he List.not_mem_nil
  | (_, j) :: es, e, he => by
    rcases List.mem_cons.mp he with rfl | he
    · exact trimmed_of_listed j
    · exact listsTrimmed_of_entry es e he

theorem listsTrimmed_of_element : ∀ vs, ∀ cell ∈ cellsOfElements vs, cell.ListsTrimmed
  | [], cell, hcell => absurd hcell List.not_mem_nil
  | j :: vs, cell, hcell => by
    rcases List.mem_cons.mp hcell with rfl | hcell
    · exact trimmed_of_listed j
    · exact listsTrimmed_of_element vs cell hcell

end

/-! ### What is trimmed is read as it was written -/

theorem rereads_trimmed {s : String} (H : Text.Trimmed s) :
    ∀ j, Json.Alike (.text s) j → textColumn j = .ok s := by
  intro j hj
  rw [Json.alike_text_iff.mp hj]
  simp [textColumn, Json.toText, Except.map, Text.trim_eq_self H]

theorem rereads_flag (b : Bool) : ∀ j, Json.Alike (.bool b) j → flagColumn j = .ok b := by
  intro j hj
  rw [Json.alike_bool_iff.mp hj, flagColumn]

theorem rereads_size (n : UInt64) : ∀ j, Json.Alike (Json.natural n) j → sizeColumn j = .ok n := by
  intro j hj
  rw [Json.alike_natural_iff.mp hj]
  rfl

/-- Reading gives the device back, whatever the order of the columns. -/
def Reread (d : Device) : Prop := ∀ j, Json.Alike d.toJson j → ofJson j = .ok d

theorem rereads_children {ds : List Device} (H : ∀ d ∈ ds, Reread d) :
    ∀ j, Json.Alike (.array (childrenJson ds)) j → listed j = .ok ds := by
  intro j hj
  obtain ⟨ys, hys, rfl⟩ := Json.alike_array_iff.mp hj
  rw [childrenJson_eq] at hys
  rw [listed, ofElements_eq]
  exact Json.mapM_of_alike H hys

/-- The persistent path is left out when there is none. -/
theorem entries_pathById (s : String) :
    (if s.isEmpty then [] else [("pathByID", Json.text s)]) = [("pathByID", .text s)] ∨
      (if s.isEmpty then [] else [("pathByID", Json.text s)]) = [] ∧ s = "" := by
  by_cases hs : s = "" <;> simp [hs]

theorem Trimmed.reread {d : Device} (H : d.Trimmed) : Reread d := by
  induction H with
  | @mk d htexts _ ih =>
    intro j hj
    obtain ⟨name, kname, type, size, model, vendor, serial, rotational, readOnly, removable, state,
      partLabel, wwn, fsType, pathById, children⟩ := d
    simp only [columnTexts, List.forall_mem_cons] at htexts
    obtain ⟨hname, hkname, htype, hmodel, hvendor, hserial, hstate, hpartLabel, hwwn, -⟩ := htexts
    have hchildren := rereads_children ih
    rw [toJson] at hj
    obtain ⟨_, es, _, _, rfl⟩ := Json.alike_object_iff.mp hj
    rw [ofJson, cellsOfEntries_eq]
    exact Record.Restores.ofCells
      (.cons rfl rfl (rereads_trimmed hname) <|
        .cons rfl rfl (rereads_trimmed hkname) <|
        .cons rfl rfl (rereads_trimmed htype) <|
        .cons rfl rfl (rereads_size size) <|
        .cons rfl rfl (rereads_trimmed hmodel) <|
        .cons rfl rfl (rereads_trimmed hvendor) <|
        .cons rfl rfl (rereads_trimmed hserial) <|
        .cons rfl rfl (rereads_flag rotational) <|
        .cons rfl rfl (rereads_flag readOnly) <|
        .cons rfl rfl (rereads_flag removable) <|
        .cons rfl rfl (rereads_trimmed hstate) <|
        .cons rfl rfl (rereads_trimmed hpartLabel) <|
        .cons rfl rfl (rereads_trimmed hwwn) <|
        .cons rfl rfl (Json.rereads_text fsType) <|
        .cons_optional (entries_pathById pathById) rfl rfl
          (Json.rereads_text pathById) rfl <|
        .cons rfl rfl hchildren .nil)
      (by decide) (by decide) columns_commute hj

/-! ### Texts -/

theorem Nests.regular {height : Nat} {d : Device} (H : d.Nests height) :
    Json.Regular (2 * height + 1) d.toJson := by
  induction H with
  | @mk height d _ ih =>
    obtain ⟨name, kname, type, size, model, vendor, serial, rotational, readOnly, removable, state,
      partLabel, wwn, fsType, pathById, children⟩ := d
    have hchildren : Json.Regular (2 * (height + 1)) (.array (childrenJson children)) := by
      refine .array fun x hx => ?_
      rw [childrenJson_eq] at hx
      obtain ⟨c, hc, rfl⟩ := List.mem_map.mp hx
      exact ih c hc
    rw [toJson]
    by_cases hpath : pathById = "" <;> simp [Json.regular_object_iff, hpath, hchildren]

/-- Written, a device is read again: from the value, with the columns in any order, and from the texts of
it, as long as devices are not stacked too deep for a text to be read at all. -/
structure RoundTrips (d : Device) : Prop where
  value : Reread d
  compact : d.Nests 63 → ∃ j, Json.parse? d.toJson.compact = some j ∧ ofJson j = .ok d
  pretty : d.Nests 63 → ∃ j, Json.parse? d.toJson.pretty = some j ∧ ofJson j = .ok d

theorem Trimmed.roundTrips {d : Device} (H : d.Trimmed) : RoundTrips d where
  value := H.reread
  compact hd := Json.parse?_compact_of_alike hd.regular H.reread
  pretty hd := Json.parse?_pretty_of_alike hd.regular H.reread

theorem rows_round_trip :
    (∀ j d, ofJson j = .ok d → RoundTrips d) ∧ ∀ d, d.Trimmed → RoundTrips d :=
  ⟨fun j d H => (trimmed_of_ofJson j d H).roundTrips, fun _ H => H.roundTrips⟩

/-- A row in the older dialect, with a partition in the newer one. -/
def legacyRow : Json :=
  .object [("NAME", .text " sda"), ("KNAME", .text "sda"), ("SIZE", .text " 4096 "),
    ("MODEL", .null), ("ROTA", .text "1"), ("RM", .natural 1),
    ("children", .array [.object [("ro", .bool true), ("name", .text "sda1 ")]])]

def legacyDevice : Device :=
  { blank with
    name := "sda", kname := "sda", size := 4096, rotational := true, removable := true
    children := [{ blank with name := "sda1", readOnly := true }] }

/-- The signature and the persistent path may have blanks around them. -/
theorem rows_round_trip_legacyRow :
    let signed : Device := { legacyDevice with fsType := " ext4 ", pathById := "/dev/a " }
    ofJson legacyRow = .ok legacyDevice ∧ RoundTrips legacyDevice ∧
      signed.Trimmed ∧ signed.Nests 63 ∧ RoundTrips signed := by
  intro signed
  have hread : ofJson legacyRow = .ok legacyDevice := rfl
  have hsigned : signed.Trimmed := by
    refine .mk (by decide) fun c hc => ?_
    obtain rfl := List.mem_singleton.mp hc
    exact .mk (by decide) fun c hc => absurd hc List.not_mem_nil
  have hnests : signed.Nests 63 := by
    refine .mk fun c hc => ?_
    obtain rfl := List.mem_singleton.mp hc
    exact .mk fun c hc => absurd hc List.not_mem_nil
  exact ⟨hread, rows_round_trip.1 _ _ hread, hsigned, hnests, rows_round_trip.2 _ hsigned⟩

end Device

end NodeDisks
