import NodeDisks.Proofs.Device
import NodeDisks.Proofs.Inventory.Survey
import NodeDisks.Proofs.Json.Order
import NodeDisks.Proofs.Text.Decimal

/-!
The dialects of the listing. A row that depicts a device has its columns in any order, each in a form of
the newer or of the older dialect, and so have the rows below it. Every such row is read as the device
(`ofJson_of_depicts`). The signature and the persistent path are no columns of the listing: they are
written one way only, without padding and without `null`.
-/

namespace NodeDisks

namespace Device

/-! ### Forms -/

/-- A column of text, with blanks around the text; `null` stands for no text. -/
inductive TextForm (s : String) : Json → Prop where
  | text {t : String} : Text.Padded s t → TextForm s (.text t)
  | null : s = "" → TextForm s .null

/-- A flag as such in the newer dialect, and as a digit or a text of one in the older. -/
inductive FlagForm (b : Bool) : Json → Prop where
  | bool : FlagForm b (.bool b)
  | number : FlagForm b (.natural (if b then 1 else 0))
  | text {t : String} : Text.Padded (if b then "1" else "0") t → FlagForm b (.text t)
  | null : b = false → FlagForm b .null

/-- A size as a number in the newer dialect, and as a text of its digits in the older. -/
inductive SizeForm (n : UInt64) : Json → Prop where
  | number : SizeForm n (.natural n)
  | text {digits : List Char} {t : String} : Text.Spells digits n.toNat →
    Text.Padded (String.ofList digits) t → SizeForm n (.text t)
  | null : n = 0 → SizeForm n .null

inductive RowsForm (rows : List Json) : Json → Prop where
  | array : RowsForm rows (.array rows)
  | null : rows = [] → RowsForm rows .null

/-- The text as it is. -/
def Verbatim (s : String) (j : Json) : Prop := j = .text s

/-- What may stand in a row of the device: for each column of the listing one value under its key in
lower or in upper case, or nothing when the column is empty. The signature and the persistent path are
`merged` into a row later, and the rows of the children have a key of their own. -/
def slots (merged : String → Json → Prop) (rows : List Json) (d : Device) : List Slot := [
  ⟨["name", "NAME"], d.name = "", TextForm d.name⟩,
  ⟨["kname", "KNAME"], d.kname = "", TextForm d.kname⟩,
  ⟨["type", "TYPE"], d.type = "", TextForm d.type⟩,
  ⟨["size", "SIZE"], d.size = 0, SizeForm d.size⟩,
  ⟨["model", "MODEL"], d.model = "", TextForm d.model⟩,
  ⟨["vendor", "VENDOR"], d.vendor = "", TextForm d.vendor⟩,
  ⟨["serial", "SERIAL"], d.serial = "", TextForm d.serial⟩,
  ⟨["rota", "ROTA"], d.rotational = false, FlagForm d.rotational⟩,
  ⟨["ro", "RO"], d.readOnly = false, FlagForm d.readOnly⟩,
  ⟨["rm", "RM"], d.removable = false, FlagForm d.removable⟩,
  ⟨["state", "STATE"], d.state = "", TextForm d.state⟩,
  ⟨["partlabel", "PARTLABEL"], d.partLabel = "", TextForm d.partLabel⟩,
  ⟨["wwn", "WWN"], d.wwn = "", TextForm d.wwn⟩,
  ⟨["fsType"], d.fsType = "", merged d.fsType⟩,
  ⟨["pathByID"], d.pathById = "", merged d.pathById⟩,
  ⟨["children"], rows = [], RowsForm rows⟩]

/-- The row shows the device in one of the dialects or in a mix of them, and the rows below it show the
devices stacked on it, each with a choice of its own. -/
inductive Depicts (merged : String → Json → Prop) : Device → Json → Prop where
  | mk {d : Device} {rows : List Json} {parts : List (List (String × Json))}
      {es : List (String × Json)} :
    List.Forall₂ (Depicts merged) d.children rows →
    List.Forall₂ Slot.Filled (slots merged rows d) parts → es.Perm parts.flatten →
    Depicts merged d (.object es)

/-! ### Every form is read -/

variable {d : Device} {j : Json} {rows : List Json}

theorem TextForm.read {s : String} (H : TextForm s j) (hs : Text.Trimmed s) :
    textColumn j = .ok s := by
  cases H with
  | text ht => simp [textColumn, Json.toText, Except.map, ht.trim_eq hs]
  | null h => rw [h, textColumn]

theorem FlagForm.read {b : Bool} (H : FlagForm b j) : flagColumn j = .ok b := by
  cases H with
  | bool => rfl
  | number => cases b <;> rfl
  | text ht =>
    have htrim := ht.trim_eq (by cases b <;> decide)
    cases b <;> simp [flagColumn, htrim]
  | null h => rw [h, flagColumn]

theorem SizeForm.read {n : UInt64} (H : SizeForm n j) : sizeColumn j = .ok n := by
  cases H with
  | number => rfl
  | @text digits t hdigits ht =>
    have hstrip : Text.strip t.toList = digits := by
      rw [ht.strip_eq hdigits.trimmed, String.toList_ofList]
    simp [sizeColumn, hstrip, hdigits.nonempty, hdigits.word?_eq]
  | null h => rw [h, sizeColumn]

theorem Verbatim.read {s : String} (H : Verbatim s j) : j.toText = .ok s := by
  rw [H, Json.toText]

theorem RowsForm.read {ds : List Device} (H : RowsForm rows j)
    (hrows : List.Forall₂ (fun d j => ofJson j = .ok d) ds rows) : listed j = .ok ds := by
  cases H with
  | array => rw [listed, ofElements_eq, Json.mapM_eq_ok hrows]
  | null h =>
    subst h
    cases hrows
    rfl

/-- The columns read the device from whatever fills the slots. -/
theorem columns_cover (hd : d.Trimmed)
    (hrows : List.Forall₂ (fun d j => ofJson j = .ok d) d.children rows) :
    Record.Covers cellOf (slots Verbatim rows d) columns blank d := by
  obtain ⟨htexts, -⟩ := hd
  obtain ⟨name, kname, type, size, model, vendor, serial, rotational, readOnly, removable, state,
    partLabel, wwn, fsType, pathById, children⟩ := d
  simp only [columnTexts, List.forall_mem_cons] at htexts
  obtain ⟨hname, hkname, htype, hmodel, hvendor, hserial, hstate, hpartLabel, hwwn, -⟩ := htexts
  have hchildren : rows = [] → children = [] := by
    rintro rfl
    cases hrows
    rfl
  exact .field rfl rfl id rfl (fun _ h => h.read hname) <|
    .field rfl rfl id rfl (fun _ h => h.read hkname) <|
    .field rfl rfl id rfl (fun _ h => h.read htype) <|
    .field rfl rfl id rfl (fun _ h => h.read) <|
    .field rfl rfl id rfl (fun _ h => h.read hmodel) <|
    .field rfl rfl id rfl (fun _ h => h.read hvendor) <|
    .field rfl rfl id rfl (fun _ h => h.read hserial) <|
    .field rfl rfl id rfl (fun _ h => h.read) <|
    .field rfl rfl id rfl (fun _ h => h.read) <|
    .field rfl rfl id rfl (fun _ h => h.read) <|
    .field rfl rfl id rfl (fun _ h => h.read hstate) <|
    .field rfl rfl id rfl (fun _ h => h.read hpartLabel) <|
    .field rfl rfl id rfl (fun _ h => h.read hwwn) <|
    .field rfl rfl id rfl (fun _ h => h.read) <|
    .field rfl rfl id rfl (fun _ h => h.read) <|
    .field rfl rfl hchildren rfl (fun _ h => h.read hrows) .nil

/-- Every row that depicts a trimmed device is read as that device. -/
theorem ofJson_of_depicts (d : Device) (j : Json) (hd : d.Trimmed) (H : Depicts Verbatim d j) :
    ofJson j = .ok d := by
  -- The rows of the children are read first; the column of children takes them up as a whole.
  induction d using stackInduction generalizing j with
  | step d ih =>
    obtain @⟨_, rows, parts, es, hrows, hparts, hperm⟩ := H
    have hread : List.Forall₂ (fun c j => ofJson j = .ok c) d.children rows := by
      obtain ⟨-, hchildren⟩ := hd
      have hih : ∀ c ∈ d.children, ∀ j, Depicts Verbatim c j → ofJson j = .ok c :=
        fun c hc j => ih c hc j (hchildren c hc)
      exact ((List.forall₂_and_left _ _).mpr ⟨hih, hrows⟩).imp fun c j h => h.1 j h.2
    rw [ofJson, cellsOfEntries_eq]
    exact (columns_cover hd hread).ofEntries (by decide) (by decide) (by decide) columns_commute
      hparts hperm

/-- Keys in either case, flags and sizes as texts, an empty column as `null` or not at all, and a
partition with its columns in another order and in the newer dialect. -/
theorem ofJson_of_depicts_legacyRow : legacyDevice.Trimmed ∧
    Depicts Verbatim legacyDevice legacyRow ∧ ofJson legacyRow = .ok legacyDevice := by
  have htrimmed : legacyDevice.Trimmed := by
    refine .mk (by decide) fun c hc => ?_
    obtain rfl := List.mem_singleton.mp hc
    exact .mk (by decide) fun c hc => absurd hc List.not_mem_nil
  have hblank : ∀ c ∈ [' '], Text.isBlank c = true := by simp [Text.isBlank]
  have hpartition : Depicts Verbatim { blank with name := "sda1", readOnly := true }
      (.object [("ro", .bool true), ("name", .text "sda1 ")]) :=
    .mk .nil
      (.cons (.value (.head _) (.text ⟨[], [' '], by simp, hblank, rfl⟩)) <|
        .cons (.leftOut rfl) <| .cons (.leftOut rfl) <| .cons (.leftOut rfl) <|
        .cons (.leftOut rfl) <| .cons (.leftOut rfl) <| .cons (.leftOut rfl) <|
        .cons (.leftOut rfl) <| .cons (.value (.head _) .bool) <| .cons (.leftOut rfl) <|
        .cons (.leftOut rfl) <| .cons (.leftOut rfl) <| .cons (.leftOut rfl) <|
        .cons (.leftOut rfl) <| .cons (.leftOut rfl) <| .cons (.leftOut rfl) .nil)
      (.swap _ _ _)
  have hsize : Text.Spells "4096".toList legacyDevice.size.toNat :=
    ⟨by decide, List.all_eq_true.mp rfl, by decide⟩
  have hdepicts : Depicts Verbatim legacyDevice legacyRow :=
    .mk (.cons hpartition .nil)
      (.cons (.value (.tail _ (.head _)) (.text ⟨[' '], [], hblank, by simp, rfl⟩)) <|
        .cons (.value (.tail _ (.head _)) (.text (.refl _))) <| .cons (.leftOut rfl) <|
        .cons (.value (.tail _ (.head _))
          (.text hsize ⟨[' '], [' '], hblank, hblank, rfl⟩)) <|
        .cons (.value (.tail _ (.head _)) (.null rfl)) <| .cons (.leftOut rfl) <|
        .cons (.leftOut rfl) <| .cons (.value (.tail _ (.head _)) (.text (.refl _))) <|
        .cons (.leftOut rfl) <| .cons (.value (.tail _ (.head _)) .number) <|
        .cons (.leftOut rfl) <| .cons (.leftOut rfl) <| .cons (.leftOut rfl) <|
        .cons (.leftOut rfl) <| .cons (.leftOut rfl) <| .cons (.value (.head _) .array) .nil)
      (.refl _)
  exact ⟨htrimmed, hdepicts, ofJson_of_depicts legacyDevice legacyRow htrimmed hdepicts⟩

/-- A signature is not given as `null` when there is none. -/
theorem merged_not_read_as_columns :
    ¬∀ d j, d.Trimmed → Depicts TextForm d j → ofJson j = .ok d := by
  intro H
  have hdepicts : Depicts TextForm { blank with name := "sda" }
      (.object [("name", .text "sda"), ("fsType", .null)]) :=
    .mk .nil
      (.cons (.value (.head _) (.text (.refl _))) <|
        .cons (.leftOut rfl) <| .cons (.leftOut rfl) <| .cons (.leftOut rfl) <|
        .cons (.leftOut rfl) <| .cons (.leftOut rfl) <| .cons (.leftOut rfl) <|
        .cons (.leftOut rfl) <| .cons (.leftOut rfl) <| .cons (.leftOut rfl) <|
        .cons (.leftOut rfl) <| .cons (.leftOut rfl) <| .cons (.leftOut rfl) <|
        .cons (.value (.head _) (.null rfl)) <| .cons (.leftOut rfl) <| .cons (.leftOut rfl) .nil)
      (.refl _)
  have hread := H _ _ (.mk (by decide) fun c hc => absurd hc List.not_mem_nil) hdepicts
  cases hread

end Device

end NodeDisks
