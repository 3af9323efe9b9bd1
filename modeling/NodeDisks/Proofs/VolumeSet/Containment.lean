import NodeDisks.Proofs.Inventory.Failure
import NodeDisks.Proofs.VolumeSet.Pass

/-!
Errors in a pass. A pass has four ends (`Ends`): the selector is at fault, the set does not apply to
the node, the survey fails, or the found devices are settled. Only the first and the third are errors,
and in the first three nothing has happened yet but the commands of the survey and the report that it
failed. Whatever goes wrong with a single device comes later and is contained in the outcome
(`reconcile_contains_errors`).
-/

namespace NodeDisks.VolumeSet

/-- What is reported when the devices cannot be listed. -/
def listingFault (e : Error) : Event :=
  .errorRunningBlockList ("failed to list block devices: " ++ e.message)

/-- How a pass ends. -/
inductive Ends (c : Config) (spec : VolumeSetSpec) (labels : NodeLabels) (s : State) (h : Host)
    (pass : Traced (Except Error Outcome × State)) : Prop where
  | faulty {e : Error} : NodeSelector.picks labels spec.nodeSelector = .error e →
    pass = pure (.error e, s) → Ends c spec labels s h pass
  | skipped : NodeSelector.picks labels spec.nodeSelector = .ok false →
    pass = pure (.ok (.skip c), s) → Ends c spec labels s h pass
  | unlisted {e : Error} : NodeSelector.picks labels spec.nodeSelector = .ok true →
    (Inventory.survey h []).value = .error e → pass.value = (.error e, s) →
    pass.effects = { commands := (Inventory.survey h []).effects.commands
                     events := [listingFault e] } →
    Ends c spec labels s h pass
  | settled {inv : Inventory} : Finds spec labels h inv →
    pass.value = (.ok (settle c spec s h inv.devices).value.1,
      (settle c spec s h inv.devices).value.2) →
    Ends c spec labels s h pass

/-- The pass has failed or is skipped. -/
def Idle (pass : Traced (Except Error Outcome × State)) : Prop :=
  ∀ o, pass.value.1 = .ok o → o.skipped = true

/-- What a pass fails of, and what a pass leaves behind that fails or is skipped. -/
structure ContainsErrors (spec : VolumeSetSpec) (labels : NodeLabels) (s : State) (h : Host)
    (pass : Traced (Except Error Outcome × State)) : Prop where
  fails_iff : (∃ e, pass.value.1 = .error e) ↔
    (∃ e, NodeSelector.picks labels spec.nodeSelector = .error e) ∨
      NodeSelector.picks labels spec.nodeSelector = .ok true ∧ Inventory.Unlistable h []
  error_iff : ∀ e, pass.value.1 = .error e ↔
    NodeSelector.picks labels spec.nodeSelector = .error e ∨
      NodeSelector.picks labels spec.nodeSelector = .ok true ∧
        (Inventory.survey h []).value = .error e
  skips_iff : (∃ o, pass.value.1 = .ok o ∧ o.skipped = true) ↔
    NodeSelector.picks labels spec.nodeSelector = .ok false
  /-- Neither the files nor the devices of the node count for it, nor the clock, the rules for
  devices, the configuration and what is remembered. -/
  contained : ∀ c' spec' s' h', spec'.nodeSelector = spec.nodeSelector → h'.run = h.run →
    ∀ e, (reconcile c' spec' labels s' h').value.1 = .error e ↔ pass.value.1 = .error e
  unchanged : Idle pass → pass.value.2 = s
  unopened : Idle pass → pass.effects.opens = []
  unannounced : Idle pass → ∀ kname secs, .discoveredNewDevice kname secs ∉ pass.effects.events
  reported : ∀ e, NodeSelector.picks labels spec.nodeSelector = .ok true →
    pass.value.1 = .error e → pass.effects.events = [listingFault e]
  /-- A pass that does not apply to the node, or cannot tell, does nothing at all. -/
  silent : NodeSelector.picks labels spec.nodeSelector ≠ .ok true → pass.effects = .none

variable {c : Config} {spec : VolumeSetSpec} {labels : NodeLabels} {s : State} {h : Host}
  {pass : Traced (Except Error Outcome × State)}

theorem reconcile_ends (c : Config) (spec : VolumeSetSpec) (labels : NodeLabels) (s : State)
    (h : Host) : Ends c spec labels s h (reconcile c spec labels s h) := by
  cases hpicked : NodeSelector.picks labels spec.nodeSelector with
  | error e => exact .faulty hpicked (by rw [reconcile, hpicked])
  | ok applies =>
    cases applies with
    | false => exact .skipped hpicked (by rw [reconcile, hpicked]; rfl)
    | true =>
      cases hsurvey : (Inventory.survey h []).value with
      | ok inv => exact .settled ⟨hpicked, hsurvey⟩ (reconcile_of_finds ⟨hpicked, hsurvey⟩)
      | error e =>
        refine .unlisted hpicked hsurvey (reconcile_of_survey_error hpicked hsurvey) ?_
        rw [reconcile, hpicked]
        dsimp only
        rw [Traced.effects_bind, Inventory.value_reportedSurvey, hsurvey,
          Inventory.effects_reportedSurvey, hsurvey]
        exact Effects.append_none _

namespace Ends

variable (H : Ends c spec labels s h pass)

include H

theorem error_iff (e : Error) : pass.value.1 = .error e ↔
    NodeSelector.picks labels spec.nodeSelector = .error e ∨
      NodeSelector.picks labels spec.nodeSelector = .ok true ∧
        (Inventory.survey h []).value = .error e := by
  cases H with
  | faulty hpicked hpass => simp [hpicked, hpass]
  | skipped hpicked hpass => simp [hpicked, hpass]
  | unlisted hpicked hsurvey hvalue => simp [hpicked, hsurvey, hvalue]
  | settled hfinds hvalue => simp [hfinds.picked, hfinds.surveyed, hvalue]

theorem fails_iff : (∃ e, pass.value.1 = .error e) ↔
    (∃ e, NodeSelector.picks labels spec.nodeSelector = .error e) ∨
      NodeSelector.picks labels spec.nodeSelector = .ok true ∧ Inventory.Unlistable h [] := by
  rw [← Inventory.survey_error_iff, ← exists_and_left, ← exists_or]
  exact exists_congr H.error_iff

theorem skips_iff : (∃ o, pass.value.1 = .ok o ∧ o.skipped = true) ↔
    NodeSelector.picks labels spec.nodeSelector = .ok false := by
  cases H with
  | faulty hpicked hpass => simp [hpicked, hpass]
  | skipped hpicked hpass => simp [hpicked, hpass, Outcome.skip]
  | unlisted hpicked hsurvey hvalue => simp [hpicked, hvalue]
  | settled hfinds hvalue => simp [hfinds.picked, hvalue]

theorem not_idle_of_finds {inv : Inventory} (hfinds : Finds spec labels h inv) : ¬Idle pass := by
  intro hidle
  cases H with
  | faulty hpicked => cases hfinds.picked.symm.trans hpicked
  | skipped hpicked => cases hfinds.picked.symm.trans hpicked
  | unlisted _ hsurvey => cases hfinds.surveyed.symm.trans hsurvey
  | settled hfinds' hvalue =>
    have hskip := hidle _ (congrArg Prod.fst hvalue)
    rw [settle_skipped] at hskip
    cases hskip

/-- Before a pass has found any devices, nothing happens to the state or to a device. -/
theorem of_idle (hidle : Idle pass) : pass.value.2 = s ∧ pass.effects.opens = [] ∧
    ∀ kname secs, .discoveredNewDevice kname secs ∉ pass.effects.events := by
  cases H with
  | faulty _ hpass =>
    rw [hpass]
    exact ⟨rfl, rfl, fun _ _ => List.not_mem_nil⟩
  | skipped _ hpass =>
    rw [hpass]
    exact ⟨rfl, rfl, fun _ _ => List.not_mem_nil⟩
  | unlisted _ _ hvalue heffects =>
    rw [hvalue, heffects]
    refine ⟨rfl, rfl, fun kname secs hmem => ?_⟩
    cases List.mem_singleton.mp hmem
  | settled hfinds hvalue => exact absurd hidle (not_idle_of_finds (.settled hfinds hvalue) hfinds)

theorem events_of_unlisted {e : Error}
    (hpicked : NodeSelector.picks labels spec.nodeSelector = .ok true)
    (he : pass.value.1 = .error e) : pass.effects.events = [listingFault e] := by
  cases H with
  | faulty hfault => cases hpicked.symm.trans hfault
  | skipped hskip => cases hpicked.symm.trans hskip
  | unlisted _ _ hvalue heffects =>
    cases (congrArg Prod.fst hvalue).symm.trans he
    rw [heffects]
  | settled _ hvalue => cases (congrArg Prod.fst hvalue).symm.trans he

theorem effects_of_not_picked (hpicked : NodeSelector.picks labels spec.nodeSelector ≠ .ok true) :
    pass.effects = .none := by
  cases H with
  | faulty _ hpass => rw [hpass, Traced.effects_pure]
  | skipped _ hpass => rw [hpass, Traced.effects_pure]
  | unlisted hpicked' => exact absurd hpicked' hpicked
  | settled hfinds => exact absurd hfinds.picked hpicked

end Ends

/-- A pass fails of its selector or of its survey and of nothing else, and a pass that fails or is
skipped leaves everything as it was. -/
theorem reconcile_contains_errors (c : Config) (spec : VolumeSetSpec) (labels : NodeLabels)
    (s : State) (h : Host) : ContainsErrors spec labels s h (reconcile c spec labels s h) where
  fails_iff := (reconcile_ends c spec labels s h).fails_iff
  error_iff := (reconcile_ends c spec labels s h).error_iff
  skips_iff := (reconcile_ends c spec labels s h).skips_iff
  contained c' spec' s' h' hselector hrun e := by
    rw [(reconcile_ends c' spec' labels s' h').error_iff, (reconcile_ends c spec labels s h).error_iff,
      hselector, Inventory.survey_congr hrun]
  unchanged hidle := ((reconcile_ends c spec labels s h).of_idle hidle).1
  unopened hidle := ((reconcile_ends c spec labels s h).of_idle hidle).2.1
  unannounced hidle := ((reconcile_ends c spec labels s h).of_idle hidle).2.2
  reported _ hpicked he := (reconcile_ends c spec labels s h).events_of_unlisted hpicked he
  silent hpicked := (reconcile_ends c spec labels s h).effects_of_not_picked hpicked

/-- A device that is taken between the probe and the claim is in use, and one that cannot be opened any
more is left out. -/
example :
    let c : Config := { minAge := 0, claimDir := some ⟨"/c"⟩, mountTable := ⟨"/m"⟩ }
    let early := (listingNode [listingRow "a" "disk" []]).host
    let report (answer : OpenAnswer) :=
      let h : Host := { early with later := { early.later with openExclusive := fun _ => answer } }
      (reconcile c anySize [] .initial h).value.1.toOption.map fun o =>
        (o.valid.map (·.kname), o.claims.map (·.decision))
    report .acquired = some (["a"], [.claimable]) ∧ report .busy = some (["a"], [.inUse]) ∧
      report (.failed ⟨.permissionDenied, "denied"⟩) = some (["a"], []) := by
  decide +kernel

end NodeDisks.VolumeSet
