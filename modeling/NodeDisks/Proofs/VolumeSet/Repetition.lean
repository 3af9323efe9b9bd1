import NodeDisks.Proofs.Notifications
import NodeDisks.Proofs.VolumeSet.Containment
import NodeDisks.Proofs.VolumeSet.Opening

/-!
A pass that is repeated at once. The first pass notes its names and keeps its announcements before
anything depends on them, so the second one sorts by the same record and has nothing new to announce:
it ends with the same outcome in the same state (`reconcile_repeats`).
-/

namespace NodeDisks.VolumeSet

variable {c : Config} {spec : VolumeSetSpec} {labels : NodeLabels} {s s' : State} {h : Host}
  {o : Outcome} {ds : List Device} {inv : Inventory}

/-- The names of a listing are noted once. -/
theorem noted_of_noted (hages : s'.ages = s.noted h.now ds) :
    s'.noted h.now ds = s.noted h.now ds := by
  rw [State.noted, hages]
  refine AgeRecord.noteAll_of_known fun k hk => ?_
  obtain ⟨d, hd, rfl⟩ := List.mem_map.mp hk
  rw [firstSeen?_noted hd]
  exact Option.some_ne_none _

/-- Of what is remembered, the outcome depends on the record with the names of the pass alone. -/
theorem settle_outcome_congr (hages : s'.noted h.now ds = s.noted h.now ds) :
    (settle c spec s' h ds).value.1 = (settle c spec s h ds).value.1 := by
  rw [State.noted, State.noted] at hages
  simp only [settle, Traced.value_bind, Traced.value_pure, hages]

theorem settle_state : (settle c spec s h ds).value.2 =
    ⟨s.noted h.now ds, s.announced ++ news c spec s h ds⟩ := rfl

section Again

variable (hs : (settle c spec s h ds).value.2 = s')

include hs

theorem settle_again_outcome : (settle c spec s' h ds).value.1 = (settle c spec s h ds).value.1 :=
  settle_outcome_congr (noted_of_noted (by rw [← hs, settle_ages]))

theorem news_again : news c spec s' h ds = [] := by
  have hannounced : s'.announced = s.announced ++ news c spec s h ds := by rw [← hs, settle_state]
  rw [news, settle_again_outcome hs, hannounced]
  exact unheard_append_unheard

theorem settle_again_state : (settle c spec s' h ds).value.2 = s' := by
  have hages : s'.noted h.now ds = s.noted h.now ds := noted_of_noted (by rw [← hs, settle_ages])
  rw [settle_state, news_again hs, List.append_nil, hages, ← hs, settle_state]

end Again

/-- A pass with an outcome, repeated on the same node at the same time, has the same outcome, leaves
the state as it is and announces nothing. -/
theorem reconcile_repeats (hpass : (reconcile c spec labels s h).value = (.ok o, s')) :
    (reconcile c spec labels s' h).value = (.ok o, s') ∧
      ∀ kname secs,
        .discoveredNewDevice kname secs ∉ (reconcile c spec labels s' h).effects.events := by
  by_cases H : ∃ inv, Finds spec labels h inv
  · obtain ⟨inv, H⟩ := H
    rw [reconcile_of_finds H] at hpass
    obtain ⟨ho, hs⟩ := Prod.mk.inj hpass
    cases Except.ok.inj ho
    constructor
    · rw [reconcile_of_finds H, settle_again_outcome hs, settle_again_state hs]
    · intro kname secs hmem
      rw [events_reconcile_of_finds H, news_again hs, List.map_nil, List.append_nil] at hmem
      cases Inventory.device?_of_mem_surveyEvents hmem
  · -- Nothing was found, so the second pass is the first one over again.
    have hidle : Idle (reconcile c spec labels s h) := fun o ho => by
      rw [(reconcile_of_not_finds H).2 o ho]
      rfl
    obtain ⟨hstate, -, hnone⟩ := (reconcile_ends c spec labels s h).of_idle hidle
    obtain rfl : s' = s := by rw [← hstate, hpass]
    exact ⟨hpass, hnone⟩

/-- A new disk is announced by the first pass and only delayed by the second. -/
theorem reconcile_repeats_three_disks :
    let c : Config := { minAge := 5, claimDir := some ⟨"/c"⟩, mountTable := ⟨"/m"⟩ }
    let s : State := ⟨⟨[("a", -5)]⟩, []⟩
    let s' : State := ⟨⟨[("a", -5), ("b", 0), ("c", 0)]⟩, ["b"]⟩
    let h := (listingNode [listingRow "a" "disk" [], listingRow "b" "disk" [],
      listingRow "c" "disk" [("ro", .bool true)]]).host
    ∃ o, (reconcile c anySize [] s h).value = (.ok o, s') ∧
      (reconcile c anySize [] s h).effects.events = [.discoveredNewDevice "b" 0] ∧
      (reconcile c anySize [] s' h).value = (.ok o, s') ∧
      (∀ kname secs,
        .discoveredNewDevice kname secs ∉ (reconcile c anySize [] s' h).effects.events) ∧
      (o.valid.map (·.kname), o.delayed.map (·.kname)) = (["a"], ["b"]) := by
  intro c s s' h
  have hrun : ((reconcile c anySize [] s h).value.1.toOption.map fun o =>
      (o.valid.map (·.kname), o.delayed.map (·.kname)), (reconcile c anySize [] s h).value.2,
        (reconcile c anySize [] s h).effects.events) =
      (some (["a"], ["b"]), s', [.discoveredNewDevice "b" 0]) := by decide +kernel
  obtain ⟨hreport, hrest⟩ := Prod.mk.inj hrun
  obtain ⟨hstate, hevents⟩ := Prod.mk.inj hrest
  obtain ⟨o, ho, hsorted⟩ := exists_ok_of_map hreport
  have hpass : (reconcile c anySize [] s h).value = (.ok o, s') := Prod.ext ho hstate
  obtain ⟨hagain, hnone⟩ := reconcile_repeats hpass
  exact ⟨o, hpass, hevents, hagain, hnone, hsorted⟩

end NodeDisks.VolumeSet
