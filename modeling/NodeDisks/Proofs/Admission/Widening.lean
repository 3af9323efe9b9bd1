import NodeDisks.Proofs.Admission.Filter

/-!
The verdicts of the rules of a volume set, and what becomes of them when the set is widened. Of the
rules only the one about sizes can be impossible to carry out: it fails when nothing lies between the
bounds, for a device whose type was accepted, and the rules behind it are then not asked.

An empty list of vendors allows every vendor, and so it is with models and mechanical properties; an
empty list of types stands for the default ones. So widening adds to lists that have entries, and
empties any list but that of types (`Accepts.widen`).
-/

namespace NodeDisks

namespace Filter

variable {fs : List Filter} {d : Device} {name filter reason : String}

/-- The first test fails, or it answers yes and a later one fails. -/
theorem judge_ofDevice_failed_iff {test : Device → Except Error Bool} :
    (judge (ofDevice name test :: fs) d).value = .failed filter reason ↔
      (∃ e, test d = .error e ∧ name = filter ∧ e.message = reason) ∨
        test d = .ok true ∧ (judge fs d).value = .failed filter reason := by
  rw [judge_cons_value, value_check_ofDevice]
  rcases test d with e | _ | _ <;> simp [ofDevice]

theorem judge_ofBool_failed_iff {test : Device → Bool} :
    (judge (ofBool name test :: fs) d).value = .failed filter reason ↔
      test d = true ∧ (judge fs d).value = .failed filter reason := by
  simp [ofBool, judge_ofDevice_failed_iff]

end Filter

namespace InclusionSpec

/-- The largest size allowed is this one, and it is below the smallest. -/
def Inverted (s : InclusionSpec) (maxSize : UInt64) : Prop :=
  s.maxSize = some maxSize ∧ maxSize < s.effectiveMinSize

/-- What is said about inverted bounds when a device was to be judged by them. -/
def boundsFault (s : InclusionSpec) (maxSize : UInt64) (d : Device) : Error :=
  .filterEvaluation "inSizeRange" d.name
    ("maxSize " ++ Text.decimal maxSize.toNat ++ " is smaller than minSize "
      ++ Text.decimal s.effectiveMinSize.toNat)

/-- The new list is the old one, or that had entries and they are all in the new one. -/
def Extends {α : Type} (old new : List α) : Prop := new = old ∨ old ≠ [] ∧ old ⊆ new

/-- The second set comes from the first by adding entries to lists, emptying lists other than that of
types, giving a smaller minimum, and giving a larger maximum or none. -/
structure Widens (s s' : InclusionSpec) : Prop where
  types : Extends s.deviceTypes s'.deviceTypes
  minSize : s'.minSize = s.minSize ∨ ∃ least, s'.minSize = some least ∧ least ≤ s.effectiveMinSize
  maxSize : ∀ most, s'.maxSize = some most → ∃ most', s.maxSize = some most' ∧ most' ≤ most
  properties : s'.properties = [] ∨ Extends s.properties s'.properties
  vendors : s'.vendors = [] ∨ Extends s.vendors s'.vendors
  models : s'.models = [] ∨ Extends s.models s'.models

/-- The verdict on a device is what the rules of the set say about it. -/
structure Applies (s : InclusionSpec) (d : Device) (v : Verdict) : Prop where
  pass_iff : v = .pass ↔ s.Accepts d
  failed_iff : ∀ filter reason, v = .failed filter reason ↔
    filter = "inSizeRange" ∧ (∃ t ∈ s.effectiveTypes, d.type? = some t) ∧
      ∃ maxSize, s.Inverted maxSize ∧ reason = (s.boundsFault maxSize d).message
  /-- Between inverted bounds there is no device of any size. -/
  not_pass_of_inverted : ∀ maxSize, s.Inverted maxSize → v ≠ .pass
  pass_of_widens : v = .pass → ∀ s', s.Widens s' → (Filter.judge s'.filters d).value = .pass

variable {s s' : InclusionSpec} {d : Device} {maxSize : UInt64}

/-! ### Failures -/

theorem allowsSize_eq_error_iff {e : Error} : s.allowsSize d = .error e ↔
    ∃ maxSize, s.Inverted maxSize ∧ e = s.boundsFault maxSize d := by
  unfold allowsSize Inverted
  cases s.maxSize with
  | none => simp
  | some maxSize =>
    simp only [Option.some.injEq, and_assoc, exists_eq_left']
    by_cases hlt : maxSize < s.effectiveMinSize
    · rw [if_pos hlt, Except.error.injEq, eq_comm (b := e)]
      exact (and_iff_right hlt).symm
    · rw [if_neg hlt]
      simp [hlt]

theorem judge_filters_failed_iff {filter reason : String} :
    (Filter.judge s.filters d).value = .failed filter reason ↔
      filter = "inSizeRange" ∧ (∃ t ∈ s.effectiveTypes, d.type? = some t) ∧
        ∃ maxSize, s.Inverted maxSize ∧ reason = (s.boundsFault maxSize d).message := by
  have hnil : (Filter.judge [] d).value ≠ .failed filter reason := Verdict.noConfusion
  simp only [filters, Filter.judge_ofBool_failed_iff, Filter.judge_ofDevice_failed_iff, hnil,
    and_false, or_false, allowsType_iff, allowsSize_eq_error_iff]
  constructor
  · rintro ⟨htype, e, ⟨maxSize, hinverted, rfl⟩, rfl, rfl⟩
    exact ⟨rfl, htype, maxSize, hinverted, rfl⟩
  · rintro ⟨rfl, htype, maxSize, hinverted, rfl⟩
    exact ⟨htype, _, ⟨maxSize, hinverted, rfl⟩, rfl, rfl⟩

theorem Inverted.not_accepts (H : s.Inverted maxSize) : ¬s.Accepts d := by
  intro haccepts
  have hmax : d.size ≤ maxSize := haccepts.smallEnough maxSize H.1
  have hmin : s.effectiveMinSize ≤ maxSize := UInt64.le_trans haccepts.largeEnough hmax
  exact UInt64.not_lt.mpr hmin H.2

/-! ### Widening -/

theorem Extends.exists_mem {α : Type} {old new : List α} {p : α → Prop} (H : Extends old new)
    (hold : ∃ x ∈ old, p x) : ∃ x ∈ new, p x := by
  obtain ⟨x, hx, hp⟩ := hold
  rcases H with rfl | ⟨-, hsubset⟩
  · exact ⟨x, hx, hp⟩
  · exact ⟨x, hsubset hx, hp⟩

/-- A list that allows everything when it is empty allows no less when it is widened. -/
theorem allows_of_extends {α : Type} {old new : List α} {p : α → Prop}
    (H : new = [] ∨ Extends old new) (hold : old = [] ∨ ∃ x ∈ old, p x) :
    new = [] ∨ ∃ x ∈ new, p x := by
  rcases H with hnew | hextends
  · exact .inl hnew
  · rcases hold with rfl | hold
    · rcases hextends with hnew | ⟨hne, -⟩
      · exact .inl hnew
      · exact absurd rfl hne
    · exact .inr (hextends.exists_mem hold)

theorem Widens.effectiveTypes_subset (H : s.Widens s') : s.effectiveTypes ⊆ s'.effectiveTypes := by
  rcases H.types with htypes | ⟨hne, hsubset⟩
  · rw [effectiveTypes, effectiveTypes, htypes]
    exact List.Subset.refl _
  · have hne' : s'.deviceTypes ≠ [] := fun hnil => hne (List.subset_nil.mp (hnil ▸ hsubset))
    rw [effectiveTypes, effectiveTypes, if_neg (by simpa using hne), if_neg (by simpa using hne')]
    exact hsubset

theorem Widens.effectiveMinSize_le (H : s.Widens s') :
    s'.effectiveMinSize ≤ s.effectiveMinSize := by
  rcases H.minSize with hmin | ⟨least, hmin, hle⟩
  · rw [effectiveMinSize, effectiveMinSize, hmin]
    exact UInt64.le_refl _
  · rwa [effectiveMinSize, hmin]

/-- What a set accepts a wider one accepts as well. -/
theorem Accepts.widen (H : s.Accepts d) (hwider : s.Widens s') : s'.Accepts d where
  type := by
    obtain ⟨t, ht, hd⟩ := H.type
    exact ⟨t, hwider.effectiveTypes_subset ht, hd⟩
  largeEnough := UInt64.le_trans hwider.effectiveMinSize_le H.largeEnough
  smallEnough most hmost := by
    obtain ⟨most', hmost', hle⟩ := hwider.maxSize most hmost
    exact UInt64.le_trans (H.smallEnough most' hmost') hle
  property := by
    have hold : s.properties = [] ∨ ∃ p ∈ s.properties, d.mechanicalProperty = p := by
      simpa using H.property
    simpa using allows_of_extends hwider.properties hold
  vendor := allows_of_extends hwider.vendors H.vendor
  model := allows_of_extends hwider.models H.model

/-- The rules pass exactly the devices that they describe, fail on inverted bounds alone, and pass no
fewer devices when they are widened. -/
theorem judge_applies (s : InclusionSpec) (d : Device) :
    s.Applies d (Filter.judge s.filters d).value where
  pass_iff := filters_pass_iff
  failed_iff _ _ := judge_filters_failed_iff
  not_pass_of_inverted _ hinverted := mt filters_pass_iff.mp hinverted.not_accepts
  pass_of_widens hpass _ hwider :=
    filters_pass_iff.mpr ((filters_pass_iff.mp hpass).widen hwider)

/-- Without its only entry the list of types means the default ones, which is not a wider set. -/
example :
    let partition : Device := { Device.blank with type := "part", size := 4 }
    let s : InclusionSpec := ⟨[.part], [], some 1, none, [], []⟩
    (Filter.judge s.filters partition).value = .pass ∧
      (Filter.judge { s with deviceTypes := [] }.filters partition).value =
        .rejected "inTypeList" := by
  decide

end InclusionSpec

end NodeDisks
