import NodeDisks.Proofs.Admission.Opening
import NodeDisks.Proofs.Claim.Handles
import NodeDisks.Proofs.VolumeSet.Claims

/-!
Which devices a pass opens. The tests open what is approachable, in the order of the survey; the rules
of the set open nothing; and with a claim directory each valid device is opened once more to be locked,
whatever the locks before it met (`reconcile_opens_in_turn`). Between these two stretches a pass reports
what it delays, and that is all it does after its survey (`effects_settle`).
-/

namespace NodeDisks

theorem InclusionSpec.silent_of_mem_filters (s : InclusionSpec) : ∀ f ∈ s.filters, f.Silent := by
  simp only [filters, List.forall_mem_cons, Filter.ofBool, Filter.silent_ofDevice, true_and,
    List.not_mem_nil, false_implies, implies_true]

namespace VolumeSet

variable {c : Config} {spec : VolumeSetSpec} {labels : NodeLabels} {s : State} {h : Host}
  {later : Scene} {dir : Path} {d : Device} {o : Outcome} {ds : List Device} {inv : Inventory}
  {ages : AgeRecord}

/-! ### Sorting -/

theorem effects_sort : (sort c spec ages h ds).effects =
    (Filter.partition (Filter.standardFilters h c.mountTable) ds).effects := by
  rw [sort, Traced.effects_bind, Traced.effects_bind,
    Filter.effects_partition_of_silent spec.inclusion.silent_of_mem_filters, Traced.effects_pure,
    Effects.append_none, Effects.append_none]

theorem devicesOnly_sort : (sort c spec ages h ds).effects.DevicesOnly := by
  rw [effects_sort]
  exact Filter.devicesOnly_partition Filter.devicesOnly_standardFilters

/-! ### Candidates -/

theorem effects_candidate?_of_named (hk : d.kname ≠ "") : (candidate? c later dir d).effects =
    (Claim.evaluate later [dir] ("/dev/" ++ d.kname)).effects := by
  simp only [candidate?, Device.node?_of_named hk, Traced.effects_bind]
  cases (Claim.evaluate later [dir] ("/dev/" ++ d.kname)).value <;> exact Effects.append_none _

theorem opens_candidate? (hk : d.kname ≠ "") :
    (candidate? c later dir d).effects.opens = [later.opening d] := by
  obtain ⟨closes, heffects⟩ := Claim.effects_evaluate later [dir] ("/dev/" ++ d.kname)
  rw [effects_candidate?_of_named hk, heffects, Scene.opening]

theorem devicesOnly_candidate? : (candidate? c later dir d).effects.DevicesOnly := by
  by_cases hk : d.kname = ""
  · simp only [candidate?, Device.node?_of_unnamed hk]
    exact .none
  · obtain ⟨closes, heffects⟩ := Claim.effects_evaluate later [dir] ("/dev/" ++ d.kname)
    rw [effects_candidate?_of_named hk, heffects]
    rfl

theorem opens_candidates (hnamed : ∀ d ∈ ds, d.kname ≠ "") : (candidates c later ds).effects.opens =
    if c.claimDir.isSome then ds.map later.opening else [] := by
  unfold candidates
  cases c.claimDir with
  | none => rfl
  | some dir =>
    rw [Traced.opens_filterMap, Option.isSome_some, if_pos rfl, List.flatMap_def,
      List.map_congr_left fun d hd => opens_candidate? (hnamed d hd), ← List.flatMap_def]
    exact List.map_eq_flatMap.symm

theorem devicesOnly_candidates : (candidates c later ds).effects.DevicesOnly := by
  unfold candidates
  split
  · exact .none
  · exact Traced.devicesOnly_filterMap fun d _ => devicesOnly_candidate?

/-! ### The whole pass -/

/-- The names that a pass announces as delayed. -/
def news (c : Config) (spec : VolumeSetSpec) (s : State) (h : Host) (ds : List Device) :
    List String :=
  unheard s.announced ((settle c spec s h ds).value.1.delayed.map (·.kname))

/-- After its survey a pass sorts the devices, announces what is new among the delayed ones, and
decides on the candidates. -/
theorem effects_settle : (settle c spec s h ds).effects =
    (sort c spec (s.noted h.now ds) h ds).effects ++
      ({ events := (news c spec s h ds).map (announcement c) } ++
        (candidates c h.later (settle c spec s h ds).value.1.valid).effects) := by
  rw [settle, Traced.effects_bind, Traced.effects_bind, Traced.effects_bind, Traced.effects_pure,
    Effects.append_none, Traced.effects_report]
  rfl

theorem effects_reconcile_of_finds (H : Finds spec labels h inv) :
    (reconcile c spec labels s h).effects =
      { commands := (Inventory.survey h []).effects.commands
        events := Inventory.surveyEvents (.ok inv) } ++ (settle c spec s h inv.devices).effects := by
  rw [reconcile, H.picked]
  dsimp only
  rw [Traced.effects_bind, Inventory.value_reportedSurvey, H.surveyed,
    Inventory.effects_reportedSurvey, H.surveyed]
  dsimp only
  rw [Traced.effects_bind, Traced.effects_pure, Effects.append_none]

theorem events_reconcile_of_finds (H : Finds spec labels h inv) :
    (reconcile c spec labels s h).effects.events = Inventory.surveyEvents (.ok inv) ++
      (news c spec s h inv.devices).map (announcement c) := by
  rw [effects_reconcile_of_finds H, Effects.events_append, effects_settle, Effects.events_append,
    Effects.events_append, devicesOnly_sort.events, devicesOnly_candidates.events,
    List.nil_append, List.append_nil]

theorem opens_reconcile_of_finds (H : Finds spec labels h inv) :
    (reconcile c spec labels s h).effects.opens =
      (Filter.partition (Filter.standardFilters h c.mountTable) inv.devices).effects.opens ++
        if c.claimDir.isSome then
          (settle c spec s h inv.devices).value.1.valid.map h.later.opening
        else [] := by
  have hnamed : ∀ d ∈ (settle c spec s h inv.devices).value.1.valid, d.kname ≠ "" :=
    fun d hd => (eligible_of_mem_valid hd).named
  rw [effects_reconcile_of_finds H, Effects.opens_append, effects_settle, Effects.opens_append,
    Effects.opens_append, effects_sort, opens_candidates hnamed, List.nil_append, List.nil_append]

open Classical in
/-- The opens of a pass over the devices, with their answers. -/
structure OpensInTurn (c : Config) (spec : VolumeSetSpec) (s : State) (h : Host)
    (ds : List Device) (o : Outcome) (opens : List (Path × OpenAnswer)) : Prop where
  /-- First those of the devices that pass every test in front of the open and have a kernel name,
  then, later, the locks of the valid devices, if there is a claim directory, and nothing else. -/
  order : opens =
    (ds.filter fun d => Filter.ReachesOpen h c.mountTable d).map h.opening ++
      if c.claimDir.isSome then o.valid.map h.later.opening else []
  /-- Nothing is opened but for a device with nothing against it beforehand. -/
  approached : ∀ x ∈ opens, ∃ d ∈ ds, Filter.Approachable h c.mountTable d ∧
    (x = h.opening d ∨ x = h.later.opening d)
  /-- What is locked has come through the tests, the age gate and the rules of the set. -/
  locked : ∀ d ∈ o.valid, d ∈ ds ∧ Filter.Eligible h c.mountTable d ∧
    s.firstSeen h.now d.kname + c.minAge ≤ h.now ∧ spec.inclusion.Accepts d

theorem opensInTurn_of_finds (H : Finds spec labels h inv) :
    OpensInTurn c spec s h inv.devices (settle c spec s h inv.devices).value.1
      (reconcile c spec labels s h).effects.opens where
  order := by
    rw [opens_reconcile_of_finds H, Filter.opens_partition_standardFilters]
    refine congrArg (List.map h.opening · ++ _) (List.filter_congr fun d _ => ?_)
    exact decide_eq_decide.mpr Filter.approachable_iff
  approached x hx := by
    rw [opens_reconcile_of_finds H, Filter.opens_partition_standardFilters, List.mem_append] at hx
    rcases hx with hx | hx
    · obtain ⟨d, hd, rfl⟩ := List.mem_map.mp hx
      obtain ⟨hd, happroachable⟩ := List.mem_filter.mp hd
      exact ⟨d, hd, by simpa using happroachable, .inl rfl⟩
    · split at hx
      case isTrue =>
        obtain ⟨d, hd, rfl⟩ := List.mem_map.mp hx
        have hmem : d ∈ inv.devices := settle_sorts.valid_order.subset hd
        exact ⟨d, hmem, (eligible_of_mem_valid hd).approachable, .inr rfl⟩
      case isFalse => cases hx
  locked d hd := (settle_sorts.valid_iff d).mp hd

/-- A pass that is not skipped and does not fail opens exactly these devices, in this order. -/
theorem reconcile_opens_in_turn (ho : (reconcile c spec labels s h).value.1 = .ok o)
    (hskip : o.skipped = false) :
    ∃ inv, (Inventory.survey h []).value = .ok inv ∧
      OpensInTurn c spec s h inv.devices o (reconcile c spec labels s h).effects.opens := by
  rcases reconcile_ok_cases ho with rfl | ⟨inv, H, rfl⟩
  · cases hskip
  · exact ⟨inv, H.surveyed, opensInTurn_of_finds H⟩

/-- Of four disks one is new and one is read-only. The other two are opened twice, although someone
else has taken the first of them by the time of its lock. -/
theorem reconcile_opens_in_turn_four_disks :
    let c : Config := { minAge := 5, claimDir := some ⟨"/c"⟩, mountTable := ⟨"/m"⟩ }
    let s : State := ⟨⟨[("a", -5), ("d", -5)]⟩, []⟩
    let node := listingNode [listingRow "a" "disk" [], listingRow "b" "disk" [],
      listingRow "c" "disk" [("ro", .bool true)], listingRow "d" "disk" []]
    let h := { node.host with
      later := { node with devices := node.devices.insert ⟨"/dev/a"⟩ .busy }.scene }
    ∃ o inv, (reconcile c anySize [] s h).value.1 = .ok o ∧ o.skipped = false ∧
      (Inventory.survey h []).value = .ok inv ∧
      OpensInTurn c anySize s h inv.devices o (reconcile c anySize [] s h).effects.opens ∧
      (reconcile c anySize [] s h).effects.opens =
        [(⟨"/dev/a"⟩, .acquired), (⟨"/dev/b"⟩, .acquired), (⟨"/dev/d"⟩, .acquired),
          (⟨"/dev/a"⟩, .busy), (⟨"/dev/d"⟩, .acquired)] := by
  intro c s node h
  have hrun : ((reconcile c anySize [] s h).value.1.toOption.map (·.skipped),
      (reconcile c anySize [] s h).effects.opens) =
      (some false, [(⟨"/dev/a"⟩, .acquired), (⟨"/dev/b"⟩, .acquired), (⟨"/dev/d"⟩, .acquired),
        (⟨"/dev/a"⟩, .busy), (⟨"/dev/d"⟩, .acquired)]) := by decide +kernel
  obtain ⟨hreport, hopened⟩ := Prod.mk.inj hrun
  obtain ⟨o, ho, hskip⟩ := exists_ok_of_map hreport
  obtain ⟨inv, hinv, hopens⟩ := reconcile_opens_in_turn ho hskip
  exact ⟨o, inv, ho, hskip, hinv, hopens, hopened⟩

end VolumeSet

end NodeDisks
