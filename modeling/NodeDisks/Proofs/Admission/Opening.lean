import NodeDisks.Proofs.Admission.Filter

/-!
What tests do to devices. Of the standard tests only the last one does anything, it opens the device,
and it is not reached before every other test has answered yes. So a device is opened exactly when it
is `Approachable`, and a partition opens such devices in their order (`opens_partition_standardFilters`).
-/

namespace NodeDisks

/-- The exclusive open of the node of a device, with its answer. -/
def Scene.opening (x : Scene) (d : Device) : Path × OpenAnswer :=
  (⟨"/dev/" ++ d.kname⟩, x.openExclusive ⟨"/dev/" ++ d.kname⟩)

namespace Filter

/-- The test does nothing but answer. -/
def Silent (f : Filter) : Prop := ∀ d, (f.check d).effects = .none

/-- The tests in front of the one that opens the device. -/
def beforeOpening (h : Host) (mountTable : Path) : List Filter :=
  (standardFilters h mountTable).dropLast

example (h : Host) (mountTable : Path) : (beforeOpening h mountTable).map (·.name) =
    ["notReadOnly", "notRemovable", "notSuspended", "noBiosBootInPartLabel",
      "noFilesystemSignature", "noChildren", "noBindMounts"] := rfl

/-- The tests come as far as opening the device: it passes those before the open, and has a node. -/
def ReachesOpen (h : Host) (mountTable : Path) (d : Device) : Prop :=
  (∀ f ∈ beforeOpening h mountTable, (f.check d).value = .ok true) ∧ d.kname ≠ ""

/-- What a device and its node have to be for the tests to come as far as opening it. -/
structure Approachable (h : Host) (mountTable : Path) (d : Device) : Prop where
  writable : d.readOnly = false
  fixed : d.removable = false
  running : d.state ≠ "suspended"
  noBios : ¬Text.MentionsAnyCase "bios" d.partLabel
  noBoot : ¬Text.MentionsAnyCase "boot" d.partLabel
  noSignature : d.fsType = ""
  noChildren : d.children = []
  notMounted : ∃ table, h.files.read mountTable = .ok table ∧
    MountReference.find? table d.kname = none
  named : d.kname ≠ ""

variable {h : Host} {mountTable : Path} {d : Device} {fs gs : List Filter} {ds : List Device}

/-! ### Sequences of tests -/

theorem silent_ofDevice (name : String) (test : Device → Except Error Bool) :
    (ofDevice name test).Silent := fun _ => rfl

theorem effects_judge_cons (f : Filter) (fs : List Filter) (d : Device) :
    (judge (f :: fs) d).effects = (f.check d).effects ++
      match (f.check d).value with
      | .ok true => (judge fs d).effects
      | _ => .none := by
  rw [judge, Traced.effects_bind]
  rcases (f.check d).value with e | _ | _ <;> rfl

/-- Behind silent tests, what is done is done for the devices that pass them. -/
theorem effects_judge_append (H : ∀ f ∈ fs, f.Silent) : (judge (fs ++ gs) d).effects =
    if (judge fs d).value = .pass then (judge gs d).effects else .none := by
  induction fs with
  | nil => rfl
  | cons f fs ih =>
    obtain ⟨hf, hfs⟩ := List.forall_mem_cons.mp H
    rw [List.cons_append, effects_judge_cons, hf d, Effects.none_append, judge_cons_value, ih hfs]
    rcases (f.check d).value with e | _ | _ <;> rfl

theorem effects_judge_of_silent (H : ∀ f ∈ fs, f.Silent) : (judge fs d).effects = .none := by
  rw [← List.append_nil fs, effects_judge_append H]
  split <;> rfl

theorem effects_partition_of_silent (H : ∀ f ∈ fs, f.Silent) :
    (partition fs ds).effects = .none := by
  induction ds with
  | nil => rfl
  | cons d ds ih =>
    rw [partition, Traced.effects_bind, Traced.effects_bind, effects_judge_of_silent H, ih]
    split <;> rfl

theorem opens_partition (fs : List Filter) (ds : List Device) :
    (partition fs ds).effects.opens = ds.flatMap fun d => (judge fs d).effects.opens := by
  induction ds with
  | nil => rfl
  | cons d ds ih =>
    rw [partition, Traced.effects_bind, Traced.effects_bind, Effects.opens_append,
      Effects.opens_append, ih, List.flatMap_cons]
    split <;> simp [Traced.effects_pure, Effects.none]

theorem devicesOnly_judge (H : ∀ f ∈ fs, (f.check d).effects.DevicesOnly) :
    (judge fs d).effects.DevicesOnly := by
  induction fs with
  | nil => exact .none
  | cons f fs ih =>
    obtain ⟨hf, hfs⟩ := List.forall_mem_cons.mp H
    rw [effects_judge_cons]
    refine hf.append ?_
    rcases (f.check d).value with e | _ | _
    · exact .none
    · exact .none
    · exact ih hfs

theorem devicesOnly_partition (H : ∀ f ∈ fs, ∀ d, (f.check d).effects.DevicesOnly) :
    (partition fs ds).effects.DevicesOnly := by
  induction ds with
  | nil => exact .none
  | cons d ds ih =>
    rw [partition, Traced.effects_bind, Traced.effects_bind]
    refine (devicesOnly_judge fun f hf => H f hf d).append (ih.append ?_)
    split <;> exact .none

/-! ### The tests on a device and its node -/

theorem standardFilters_eq_append (h : Host) (mountTable : Path) :
    standardFilters h mountTable = beforeOpening h mountTable ++ [canOpenExclusively h] := rfl

theorem silent_of_mem_beforeOpening : ∀ f ∈ beforeOpening h mountTable, f.Silent := by
  simp only [beforeOpening, standardFilters, List.dropLast, List.forall_mem_cons, ofBool,
    noBindMounts, silent_ofDevice, true_and, List.not_mem_nil, false_implies, implies_true]

theorem opens_canOpenExclusively :
    ((canOpenExclusively h).check d).effects.opens =
      if d.kname = "" then [] else [h.opening d] := by
  by_cases hk : d.kname = ""
  · rw [canOpenExclusively, if_pos hk]
    simp only [Device.node?_of_unnamed hk]
    rfl
  · rw [canOpenExclusively, if_neg hk]
    simp only [Device.node?_of_named hk, Traced.effects_bind, Scene.value_openDevice,
      Effects.opens_append]
    cases h.openExclusive ⟨"/dev/" ++ d.kname⟩ <;> rfl

theorem devicesOnly_canOpenExclusively (h : Host) (d : Device) :
    ((canOpenExclusively h).check d).effects.DevicesOnly := by
  by_cases hk : d.kname = ""
  · simp only [canOpenExclusively, Device.node?_of_unnamed hk]
    exact .none
  · simp only [canOpenExclusively, Device.node?_of_named hk, Traced.effects_bind,
      Scene.value_openDevice]
    refine (Scene.devicesOnly_openDevice _ _).append ?_
    cases h.openExclusive ⟨"/dev/" ++ d.kname⟩ with
    | acquired => exact (Host.closesOnly_closeDevice _).devicesOnly.append .none
    | busy => exact .none
    | failed e => exact .none

theorem devicesOnly_of_silent {f : Filter} (H : f.Silent) (d : Device) :
    (f.check d).effects.DevicesOnly := by
  rw [H d]
  exact .none

theorem devicesOnly_standardFilters :
    ∀ f ∈ standardFilters h mountTable, ∀ d, (f.check d).effects.DevicesOnly := by
  intro f hf d
  rw [standardFilters_eq_append, List.mem_append, List.mem_singleton] at hf
  rcases hf with hf | rfl
  · exact devicesOnly_of_silent (silent_of_mem_beforeOpening f hf) d
  · exact devicesOnly_canOpenExclusively h d

theorem approachable_iff : Approachable h mountTable d ↔ ReachesOpen h mountTable d := by
  simp only [ReachesOpen, beforeOpening, standardFilters, List.dropLast, List.forall_mem_cons,
    List.not_mem_nil, false_implies, implies_true, and_true, value_check_ofBool,
    noBindMounts_ok_iff, Except.ok.injEq, Bool.not_eq_true', Device.isSuspended_eq_false_iff,
    Device.hasBootLabel_eq_false_iff, Device.hasFilesystem_eq_false_iff, List.isEmpty_iff]
  constructor
  · rintro ⟨hro, hrm, hs, hbios, hboot, hfs, hc, hm, hk⟩
    exact ⟨⟨hro, hrm, hs, ⟨hbios, hboot⟩, hfs, hc, hm⟩, hk⟩
  · rintro ⟨⟨hro, hrm, hs, ⟨hbios, hboot⟩, hfs, hc, hm⟩, hk⟩
    exact ⟨hro, hrm, hs, hbios, hboot, hfs, hc, hm, hk⟩

/-- A device that passes all tests is opened on the way. -/
theorem Eligible.approachable (H : Eligible h mountTable d) : Approachable h mountTable d :=
  ⟨H.writable, H.fixed, H.running, H.noBios, H.noBoot, H.noSignature, H.noChildren, H.notMounted,
    H.named⟩

open Classical in
theorem opens_judge_standardFilters : (judge (standardFilters h mountTable) d).effects.opens =
    if Approachable h mountTable d then [h.opening d] else [] := by
  rw [standardFilters_eq_append, effects_judge_append silent_of_mem_beforeOpening,
    approachable_iff, ReachesOpen, ← judge_pass_iff]
  by_cases hpass : (judge (beforeOpening h mountTable) d).value = .pass
  · have hopens : (judge [canOpenExclusively h] d).effects.opens =
        ((canOpenExclusively h).check d).effects.opens := by
      rw [effects_judge_cons]
      rcases ((canOpenExclusively h).check d).value with e | _ | _ <;> exact List.append_nil _
    rw [if_pos hpass, hopens, opens_canOpenExclusively]
    by_cases hk : d.kname = "" <;> simp [hk, hpass]
  · rw [if_neg hpass, if_neg fun H => hpass H.1]
    rfl

open Classical in
/-- A partition by the standard tests opens the approachable devices, each once and in order. -/
theorem opens_partition_standardFilters (h : Host) (mountTable : Path) (ds : List Device) :
    (partition (standardFilters h mountTable) ds).effects.opens =
      (ds.filter fun d => Approachable h mountTable d).map h.opening := by
  rw [opens_partition]
  induction ds with
  | nil => rfl
  | cons d ds ih =>
    rw [List.flatMap_cons, ih, opens_judge_standardFilters, List.filter_cons]
    by_cases H : Approachable h mountTable d <;> simp [H]

end Filter

end NodeDisks
