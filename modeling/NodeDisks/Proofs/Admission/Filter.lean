import NodeDisks.Admission
import NodeDisks.Host.Memory
import NodeDisks.Proofs.Device
import NodeDisks.Proofs.Effects

/-!
Tests on devices: what a sequence of them decides, which devices the rules of a volume set accept,
and how much of this hangs on the order of the tests.
-/

/-!
## Sequences of tests

What a sequence of tests decides. A device passes when every test answers yes (`judge_pass_iff`), and
a partition keeps the devices that pass and sets the others aside with their verdicts, both in the
order of the devices (`partition_passed`, `partition_excluded`).

`Eligible` says what the tests on a device and its node let through, without the tests.
-/

namespace NodeDisks

theorem Verdict.isPass_iff {v : Verdict} : v.isPass = true ↔ v = .pass := by
  simp [Verdict.isPass]

namespace Filter

@[simp] theorem value_check_ofDevice (name : String) (test : Device → Except Error Bool)
    (d : Device) : ((ofDevice name test).check d).value = test d := rfl

@[simp] theorem value_check_ofBool (name : String) (test : Device → Bool) (d : Device) :
    ((ofBool name test).check d).value = .ok (test d) := rfl

theorem judge_cons_value (f : Filter) (fs : List Filter) (d : Device) :
    (judge (f :: fs) d).value =
      match (f.check d).value with
      | .ok true => (judge fs d).value
      | .ok false => .rejected f.name
      | .error e => .failed f.name e.message := by
  simp only [judge, Traced.value_bind]
  rcases (f.check d).value with e | _ | _ <;> rfl

theorem judge_pass_iff {fs : List Filter} {d : Device} :
    (judge fs d).value = .pass ↔ ∀ f ∈ fs, (f.check d).value = .ok true := by
  induction fs with
  | nil => simp [judge]
  | cons f fs ih =>
    rw [judge_cons_value, List.forall_mem_cons, ← ih]
    split <;> simp_all

@[simp] theorem partition_passed (fs : List Filter) (ds : List Device) :
    (partition fs ds).value.passed = ds.filter fun d => (judge fs d).value.isPass := by
  induction ds with
  | nil => rfl
  | cons d ds ih =>
    simp only [partition, Traced.value_bind, List.filter_cons, ← ih]
    split <;> rfl

@[simp] theorem partition_excluded (fs : List Filter) (ds : List Device) :
    (partition fs ds).value.excluded =
      (ds.filter fun d => !(judge fs d).value.isPass).map fun d => (d, (judge fs d).value) := by
  induction ds with
  | nil => rfl
  | cons d ds ih =>
    simp only [partition, Traced.value_bind, List.filter_cons]
    cases (judge fs d).value.isPass with
    | true => simpa using ih
    | false => simpa using ih

theorem partition_perm (fs : List Filter) (ds : List Device) :
    ((partition fs ds).value.passed ++ (partition fs ds).value.excluded.map Prod.fst).Perm ds := by
  rw [partition_passed, partition_excluded, List.map_map]
  have hfst : (Prod.fst ∘ fun d => (d, (judge fs d).value)) = id := rfl
  rw [hfst, List.map_id]
  exact List.filter_append_perm _ ds

theorem mem_partition_passed_iff {fs : List Filter} {ds : List Device} {d : Device} :
    d ∈ (partition fs ds).value.passed ↔ d ∈ ds ∧ (judge fs d).value = .pass := by
  rw [partition_passed, List.mem_filter, Verdict.isPass_iff]

theorem mem_partition_excluded_iff {fs : List Filter} {ds : List Device} {d : Device}
    {v : Verdict} : (d, v) ∈ (partition fs ds).value.excluded ↔
      d ∈ ds ∧ (judge fs d).value ≠ .pass ∧ v = (judge fs d).value := by
  simp only [partition_excluded, List.mem_map, List.mem_filter, Bool.not_eq_true',
    ← Bool.not_eq_true, Verdict.isPass_iff, Prod.mk.injEq]
  constructor
  · rintro ⟨d', ⟨hmem, hne⟩, rfl, rfl⟩
    exact ⟨hmem, hne, rfl⟩
  · rintro ⟨hmem, hne, rfl⟩
    exact ⟨d, ⟨hmem, hne⟩, rfl, rfl⟩

/-! ### The tests on a device and its node -/

/-- What a device and its node have to be for the standard tests to let it through. -/
structure Eligible (h : Host) (mountTable : Path) (d : Device) : Prop where
  writable : d.readOnly = false
  fixed : d.removable = false
  running : d.state ≠ "suspended"
  noBios : ¬Text.MentionsAnyCase "bios" d.partLabel
  noBoot : ¬Text.MentionsAnyCase "boot" d.partLabel
  noSignature : d.fsType = ""
  noChildren : d.children = []
  /-- The mount table can be read and has no mount of the device. -/
  notMounted : ∃ table, h.files.read mountTable = .ok table ∧
    MountReference.find? table d.kname = none
  named : d.kname ≠ ""
  free : h.openExclusive ⟨"/dev/" ++ d.kname⟩ = .acquired

theorem noBindMounts_ok_iff {h : Host} {mountTable : Path} {d : Device} :
    ((noBindMounts h mountTable).check d).value = .ok true ↔
      ∃ table, h.files.read mountTable = .ok table ∧
        MountReference.find? table d.kname = none := by
  simp only [noBindMounts, value_check_ofDevice]
  cases h.files.read mountTable <;> simp

theorem canOpenExclusively_ok_iff {h : Host} {d : Device} :
    ((canOpenExclusively h).check d).value = .ok true ↔
      d.kname ≠ "" ∧ h.openExclusive ⟨"/dev/" ++ d.kname⟩ = .acquired := by
  by_cases hk : d.kname = ""
  · simp [canOpenExclusively, Device.node?_of_unnamed hk, hk]
  · simp only [canOpenExclusively, Device.node?_of_named hk, Traced.value_bind,
      Scene.value_openDevice]
    cases h.openExclusive ⟨"/dev/" ++ d.kname⟩ <;> simp [hk]

theorem standardFilters_pass_iff {h : Host} {mountTable : Path} {d : Device} :
    (judge (standardFilters h mountTable) d).value = .pass ↔ Eligible h mountTable d := by
  rw [judge_pass_iff]
  simp only [standardFilters, List.forall_mem_cons, List.not_mem_nil, false_implies,
    implies_true, and_true, value_check_ofBool, noBindMounts_ok_iff, canOpenExclusively_ok_iff,
    Except.ok.injEq, Bool.not_eq_true', Device.isSuspended_eq_false_iff,
    Device.hasBootLabel_eq_false_iff, Device.hasFilesystem_eq_false_iff, List.isEmpty_iff]
  constructor
  · rintro ⟨hro, hrm, hs, ⟨hbios, hboot⟩, hfs, hc, hm, hk, ho⟩
    exact ⟨hro, hrm, hs, hbios, hboot, hfs, hc, hm, hk, ho⟩
  · rintro ⟨hro, hrm, hs, hbios, hboot, hfs, hc, hm, hk, ho⟩
    exact ⟨hro, hrm, hs, ⟨hbios, hboot⟩, hfs, hc, hm, hk, ho⟩

end Filter

end NodeDisks

/-!
## Rules

What the rules of a volume set accept. `Accepts` states the rules on their own: an empty list allows
everything except for types, where it stands for whole disks and multipath devices, and bounds with
nothing between them accept no size.
-/

namespace NodeDisks.InclusionSpec

/-- The list of vendors or models allows the text. -/
def AllowsText (allowed : List String) (s : String) : Prop :=
  allowed = [] ∨ ∃ entry ∈ allowed, (Text.trim entry).toList <:+: (Text.trim s).toList

/-- What a device has to be for the rules to accept it. -/
structure Accepts (s : InclusionSpec) (d : Device) : Prop where
  type : ∃ t ∈ s.effectiveTypes, d.type? = some t
  largeEnough : s.effectiveMinSize ≤ d.size
  smallEnough : ∀ maxSize, s.maxSize = some maxSize → d.size ≤ maxSize
  property : s.properties = [] ∨ d.mechanicalProperty ∈ s.properties
  vendor : AllowsText s.vendors d.vendor
  model : AllowsText s.models d.model

variable {s : InclusionSpec} {d : Device}

theorem allowsText_iff {allowed : List String} {text : String} :
    allowsText allowed text = true ↔ AllowsText allowed text := by
  simp [allowsText, AllowsText, Text.contains_iff]

theorem allowsType_iff : s.allowsType d = true ↔ ∃ t ∈ s.effectiveTypes, d.type? = some t := by
  unfold allowsType
  cases d.type? <;> simp [eq_comm]

/-- Bounds the wrong way round are a fault, and no size lies between them. -/
theorem allowsSize_iff : s.allowsSize d = .ok true ↔
    s.effectiveMinSize ≤ d.size ∧ ∀ maxSize, s.maxSize = some maxSize → d.size ≤ maxSize := by
  unfold allowsSize
  cases hmax : s.maxSize with
  | none => simp
  | some maxSize =>
    by_cases hlt : maxSize < s.effectiveMinSize
    · have hnone : ¬(s.effectiveMinSize ≤ d.size ∧ d.size ≤ maxSize) := fun ⟨hmin, hle⟩ =>
        absurd (UInt64.lt_of_lt_of_le hlt (UInt64.le_trans hmin hle)) (UInt64.lt_irrefl _)
      simpa [hlt] using hnone
    · simp [hlt]

theorem allowsProperty_iff : s.allowsProperty d = true ↔
    s.properties = [] ∨ d.mechanicalProperty ∈ s.properties := by
  simp [allowsProperty]

theorem filters_pass_iff : (Filter.judge s.filters d).value = .pass ↔ s.Accepts d := by
  rw [Filter.judge_pass_iff]
  simp only [filters, List.forall_mem_cons, List.not_mem_nil, false_implies, implies_true,
    and_true, Filter.value_check_ofBool, Filter.value_check_ofDevice, Except.ok.injEq,
    allowsType_iff, allowsSize_iff, allowsProperty_iff, allowsText_iff]
  constructor
  · rintro ⟨htype, ⟨hmin, hmax⟩, hprop, hvendor, hmodel⟩
    exact ⟨htype, hmin, hmax, hprop, hvendor, hmodel⟩
  · rintro ⟨htype, hmin, hmax, hprop, hvendor, hmodel⟩
    exact ⟨htype, ⟨hmin, hmax⟩, hprop, hvendor, hmodel⟩

end NodeDisks.InclusionSpec

/-!
## Order

The order of the tests. Which devices a sequence of tests lets through depends on the set of the tests
alone (`partition_anyOrder`): a device passes when all of them answer yes, and it is set aside by the
first one that does not, whether that one answers no or cannot be carried out (`Blames`). A different
order can put the blame on a different test, and for a different kind of answer.
-/

namespace NodeDisks.Filter

/-- Every test answers yes. -/
def Admits (fs : List Filter) (d : Device) : Prop := ∀ f ∈ fs, (f.check d).value = .ok true

instance (f : Filter) (d : Device) : Decidable ((f.check d).value = .ok true) :=
  match (f.check d).value with
  | .ok true => isTrue rfl
  | .ok false => isFalse (by simp)
  | .error _ => isFalse (by simp)

instance (fs : List Filter) (d : Device) : Decidable (Admits fs d) := List.decidableBAll _ fs

/-- The verdict is about the first test that does not answer yes, and says what it answers. -/
inductive Blames (fs : List Filter) (d : Device) : Verdict → Prop
  | rejected {before after : List Filter} {f : Filter} (split : fs = before ++ f :: after)
      (before_admits : Admits before d) (no : (f.check d).value = .ok false) :
      Blames fs d (.rejected f.name)
  | failed {before after : List Filter} {f : Filter} {e : Error} (split : fs = before ++ f :: after)
      (before_admits : Admits before d) (fault : (f.check d).value = .error e) :
      Blames fs d (.failed f.name e.message)

/-- The devices are divided by what the tests answer: both parts keep the order of the devices, and
each device that is set aside has a verdict about the first test it does not pass. -/
structure Divides (fs : List Filter) (ds : List Device) (p : Partition) : Prop where
  passed : p.passed = ds.filter (Admits fs ·)
  excluded : p.excluded.map Prod.fst = ds.filter (¬Admits fs ·)
  blamed : ∀ d v, (d, v) ∈ p.excluded → Blames fs d v

variable {fs gs : List Filter} {d : Device} {v : Verdict}

theorem admits_nil : Admits [] d := by simp [Admits]

theorem admits_cons {f : Filter} :
    Admits (f :: fs) d ↔ (f.check d).value = .ok true ∧ Admits fs d := List.forall_mem_cons

theorem judge_pass_iff_admits : (judge fs d).value = .pass ↔ Admits fs d := judge_pass_iff

theorem Admits.congr (H : ∀ f, f ∈ gs ↔ f ∈ fs) : Admits gs d ↔ Admits fs d := by
  simp only [Admits, H]

/-- A test that answers yes is passed over. -/
theorem Blames.cons {f : Filter} (hf : (f.check d).value = .ok true) (H : Blames fs d v) :
    Blames (f :: fs) d v := by
  cases H with
  | @rejected before after g hsplit hbefore hno =>
    have hsplit : f :: fs = (f :: before) ++ g :: after := by rw [hsplit, List.cons_append]
    exact .rejected hsplit (admits_cons.mpr ⟨hf, hbefore⟩) hno
  | @failed before after g e hsplit hbefore hfault =>
    have hsplit : f :: fs = (f :: before) ++ g :: after := by rw [hsplit, List.cons_append]
    exact .failed hsplit (admits_cons.mpr ⟨hf, hbefore⟩) hfault

theorem blames_judge (hne : (judge fs d).value ≠ .pass) : Blames fs d (judge fs d).value := by
  induction fs with
  | nil => exact absurd rfl hne
  | cons f fs ih =>
    rw [judge_cons_value] at hne ⊢
    cases hcheck : (f.check d).value with
    | error e => exact .failed (List.nil_append _).symm admits_nil hcheck
    | ok answer =>
      cases answer with
      | false => exact .rejected (List.nil_append _).symm admits_nil hcheck
      | true =>
        rw [hcheck] at hne
        exact (ih hne).cons hcheck

theorem isPass_judge : (judge fs d).value.isPass = decide (Admits fs d) := by
  rw [Bool.eq_iff_iff, Verdict.isPass_iff, decide_eq_true_iff, judge_pass_iff_admits]

theorem divides_partition (fs : List Filter) (ds : List Device) :
    Divides fs ds (partition fs ds).value where
  passed := by simp only [partition_passed, isPass_judge]
  excluded := by
    simp only [partition_excluded, isPass_judge, List.map_map, decide_not]
    exact List.map_id _
  blamed := by
    intro d v hmem
    obtain ⟨-, hne, rfl⟩ := mem_partition_excluded_iff.mp hmem
    exact blames_judge hne

/-- The same tests in another order, some of them more than once, divide the devices the same way. -/
theorem partition_anyOrder (H : ∀ f, f ∈ gs ↔ f ∈ fs) (ds : List Device) :
    Divides fs ds (partition fs ds).value ∧ Divides gs ds (partition gs ds).value ∧
      (partition gs ds).value.passed = (partition fs ds).value.passed ∧
      (partition gs ds).value.excluded.map Prod.fst =
        (partition fs ds).value.excluded.map Prod.fst := by
  have hfs := divides_partition fs ds
  have hgs := divides_partition gs ds
  have hadmits : ∀ d, Admits gs d ↔ Admits fs d := fun d => Admits.congr H
  refine ⟨hfs, hgs, ?_, ?_⟩
  · rw [hgs.passed, hfs.passed]
    simp only [hadmits]
  · rw [hgs.excluded, hfs.excluded]
    simp only [hadmits]

/-- A drive that cannot be written and has no kernel name, next to one that can be used. The tests in
their own order refuse the first for being read-only; in the opposite order, and run twice, they fail on
the name it has no node for. Either way the second alone is let through. -/
theorem partition_reversedTwice :
    let node : MemoryNode :=
      { files := MemoryFiles.empty.addFile ⟨"/m"⟩ "", devices := .empty, script := default
        refusal := none, now := default }
    let locked : Device := { Device.blank with name := "sda", type := "disk", readOnly := true }
    let spare : Device := { Device.blank with name := "sdb", kname := "sdb", type := "disk" }
    let tests := standardFilters node.host ⟨"/m"⟩
    let backwards := tests.reverse ++ tests.reverse
    (∀ f, f ∈ backwards ↔ f ∈ tests) ∧
      (partition backwards [locked, spare]).value.passed = [spare] ∧
      (partition tests [locked, spare]).value.passed = [spare] ∧
      (partition tests [locked, spare]).value.excluded = [(locked, .rejected "notReadOnly")] ∧
      (judge backwards locked).value.filter? = some "canOpenExclusively" := by
  intro node locked spare tests backwards
  have H : ∀ f, f ∈ backwards ↔ f ∈ tests := by simp [backwards]
  obtain ⟨-, -, hpassed, -⟩ := partition_anyOrder H [locked, spare]
  have hfirst : (partition tests [locked, spare]).value.passed = [spare] := rfl
  exact ⟨H, hpassed.trans hfirst, hfirst, rfl, rfl⟩

end NodeDisks.Filter
