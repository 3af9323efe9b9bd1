import NodeDisks.Proofs.VolumeSet.Pass

/-!
The age gate over runs. Between passes everything may change but the configuration: the devices, the
rest of the node, the set, the labels and the clock, which may also go back. The record of a process
holds exactly the first sightings of its run (`runFrom_firstSeen?_iff`): one step notes what a pass
lists (`next_firstSeen?_iff`), and what is noted stays.
-/

namespace NodeDisks.VolumeSet

/-- A pass of a run: what it is asked for, and what it sees. -/
structure Pass where
  spec : VolumeSetSpec
  labels : NodeLabels
  host : Host

namespace Pass

def result (c : Config) (s : State) (p : Pass) : Except Error Outcome :=
  (reconcile c p.spec p.labels s p.host).value.1

def next (c : Config) (s : State) (p : Pass) : State :=
  (reconcile c p.spec p.labels s p.host).value.2

/-- The pass is neither skipped nor failed, and its survey lists the device. -/
def Lists (c : Config) (s : State) (p : Pass) (d : Device) : Prop :=
  ∃ o inv, p.result c s = .ok o ∧ o.skipped = false ∧
    (Inventory.survey p.host []).value = .ok inv ∧ d ∈ inv.devices

/-- The pass lists a device of this name. -/
def Sights (c : Config) (s : State) (p : Pass) (k : String) : Prop :=
  ∃ d, p.Lists c s d ∧ d.kname = k

end Pass

def runFrom (c : Config) (s : State) (run : List Pass) : State :=
  run.foldl (fun s p => p.next c s) s

/-- What a process remembers after a run. -/
def after (c : Config) (run : List Pass) : State := runFrom c .initial run

/-- No pass of the run sights the name. -/
def Unsighted (c : Config) (s : State) (run : List Pass) (k : String) : Prop :=
  ∀ before p later, run = before ++ p :: later → ¬p.Sights c (runFrom c s before) k

/-- Time `t` is that of the first pass of the run that sights the name. -/
def FirstSighting (c : Config) (s : State) (run : List Pass) (k : String) (t : Instant) : Prop :=
  ∃ before p later, run = before ++ p :: later ∧ p.Sights c (runFrom c s before) k ∧
    p.host.now = t ∧ Unsighted c s before k

variable {c : Config} {s : State} {p : Pass} {d : Device} {o : Outcome} {k : String}
  {t : Instant} {run : List Pass}

/-! ### One pass -/

theorem Pass.result_of_finds {inv : Inventory} (H : Finds p.spec p.labels p.host inv) :
    p.result c s = .ok (settle c p.spec s p.host inv.devices).value.1 := by
  rw [Pass.result, reconcile_of_finds H]

theorem Pass.lists_iff : p.Lists c s d ↔
    ∃ inv, Finds p.spec p.labels p.host inv ∧ d ∈ inv.devices := by
  constructor
  · rintro ⟨o, inv, ho, hskip, hinv, hd⟩
    rcases reconcile_ok_cases ho with rfl | ⟨inv', H, -⟩
    · cases hskip
    · cases Except.ok.inj (hinv.symm.trans H.surveyed)
      exact ⟨inv, H, hd⟩
  · rintro ⟨inv, H, hd⟩
    exact ⟨_, inv, result_of_finds H, settle_skipped, H.surveyed, hd⟩

theorem Pass.sights_iff_of_finds {inv : Inventory} (H : Finds p.spec p.labels p.host inv) :
    p.Sights c s k ↔ k ∈ inv.devices.map (·.kname) := by
  rw [List.mem_map]
  refine exists_congr fun d => and_congr_left fun _ => ?_
  rw [lists_iff]
  exact ⟨fun ⟨inv', H', hd⟩ => H.eq H' ▸ hd, fun hd => ⟨inv, H, hd⟩⟩

/-- A pass gives the names it sights for the first time its own time, and changes no other. -/
theorem Pass.next_firstSeen?_iff : (p.next c s).ages.firstSeen? k = some t ↔
    s.ages.firstSeen? k = some t ∨
      s.ages.firstSeen? k = none ∧ p.Sights c s k ∧ p.host.now = t := by
  by_cases H : ∃ inv, Finds p.spec p.labels p.host inv
  · obtain ⟨inv, H⟩ := H
    rw [Pass.next, reconcile_of_finds H, settle_ages, State.noted, AgeRecord.firstSeen?_noteAll,
      sights_iff_of_finds H]
    cases s.ages.firstSeen? k with
    | some first => simp
    | none => simp
  · have hnext : p.next c s = s := (reconcile_of_not_finds H).1
    have hnone : ¬p.Sights c s k := by
      rintro ⟨d, hd, -⟩
      obtain ⟨inv, H', -⟩ := lists_iff.mp hd
      exact H ⟨inv, H'⟩
    simp [hnext, hnone]

theorem Pass.next_firstSeen?_eq_none_iff : (p.next c s).ages.firstSeen? k = none ↔
    s.ages.firstSeen? k = none ∧ ¬p.Sights c s k := by
  simp only [Option.eq_none_iff_forall_ne_some, ne_eq, next_firstSeen?_iff, not_or, not_and]
  constructor
  · intro H
    exact ⟨fun t => (H t).1, fun hp => (H p.host.now).2 (fun t => (H t).1) hp rfl⟩
  · rintro ⟨hs, hp⟩ t
    exact ⟨hs t, fun _ hp' => absurd hp' hp⟩

/-! ### First sightings -/

theorem unsighted_cons : Unsighted c s (p :: run) k ↔
    ¬p.Sights c s k ∧ Unsighted c (p.next c s) run k := by
  constructor
  · intro H
    refine ⟨H [] p run rfl, fun before q later hrun => ?_⟩
    exact H (p :: before) q later (by rw [hrun]; rfl)
  · rintro ⟨hp, H⟩ before q later hrun
    cases before with
    | nil =>
      obtain ⟨rfl, rfl⟩ := List.cons.inj hrun
      exact hp
    | cons p' before =>
      obtain ⟨rfl, htail⟩ := List.cons.inj hrun
      exact H before q later htail

theorem not_firstSighting_nil : ¬FirstSighting c s [] k t := by
  rintro ⟨before, p, later, hrun, -⟩
  simp at hrun

theorem firstSighting_cons : FirstSighting c s (p :: run) k t ↔
    p.Sights c s k ∧ p.host.now = t ∨
      ¬p.Sights c s k ∧ FirstSighting c (p.next c s) run k t := by
  constructor
  · rintro ⟨before, q, later, hrun, hq, ht, hnone⟩
    cases before with
    | nil =>
      obtain ⟨rfl, rfl⟩ := List.cons.inj hrun
      exact .inl ⟨hq, ht⟩
    | cons p' before =>
      obtain ⟨rfl, htail⟩ := List.cons.inj hrun
      obtain ⟨hp, hrest⟩ := unsighted_cons.mp hnone
      exact .inr ⟨hp, before, q, later, htail, hq, ht, hrest⟩
  · rintro (⟨hp, ht⟩ | ⟨hp, before, q, later, hrun, hq, ht, hnone⟩)
    · exact ⟨[], p, run, rfl, hp, ht, by simp [Unsighted]⟩
    · exact ⟨p :: before, q, later, by rw [hrun]; rfl, hq, ht, unsighted_cons.mpr ⟨hp, hnone⟩⟩

theorem FirstSighting.append (H : FirstSighting c s run k t) (more : List Pass) :
    FirstSighting c s (run ++ more) k t := by
  obtain ⟨before, p, later, hrun, hp, ht, hnone⟩ := H
  exact ⟨before, p, later ++ more, by rw [hrun]; simp, hp, ht, hnone⟩

/-- The record after a run: what it held at the start, and the first sightings of all other names. -/
theorem runFrom_firstSeen?_iff : (runFrom c s run).ages.firstSeen? k = some t ↔
    s.ages.firstSeen? k = some t ∨
      s.ages.firstSeen? k = none ∧ FirstSighting c s run k t := by
  induction run generalizing s with
  | nil => simp [runFrom, not_firstSighting_nil]
  | cons p run ih =>
    have hstep : runFrom c s (p :: run) = runFrom c (p.next c s) run := rfl
    rw [hstep, ih, firstSighting_cons, Pass.next_firstSeen?_iff, Pass.next_firstSeen?_eq_none_iff]
    by_cases hs : s.ages.firstSeen? k = none
    · by_cases hp : p.Sights c s k <;> simp [hs, hp]
    · simp [hs]

theorem after_firstSeen?_iff : (after c run).ages.firstSeen? k = some t ↔
    FirstSighting c .initial run k t := by
  simp [after, runFrom_firstSeen?_iff, State.initial]

theorem after_snoc : after c (run ++ [p]) = p.next c (after c run) := by
  simp [after, runFrom]

/-- What the record holds right after a pass is a first sighting of the whole run. -/
theorem firstSighting_of_next {before later : List Pass}
    (ht : (p.next c (after c before)).ages.firstSeen? k = some t) :
    FirstSighting c .initial (before ++ p :: later) k t := by
  rw [← after_snoc, after_firstSeen?_iff] at ht
  have hrun := ht.append later
  rwa [List.append_assoc] at hrun

/-! ### The gate -/

/-- The gate for a listed device stands at the time that the pass leaves in the record. -/
theorem Pass.gate {inv : Inventory} (H : Finds p.spec p.labels p.host inv)
    (hd : d ∈ inv.devices) :
    ∃ first, (p.next c s).ages.firstSeen? d.kname = some first ∧
      (d ∈ (settle c p.spec s p.host inv.devices).value.1.valid →
        first + c.minAge ≤ p.host.now) ∧
      (Filter.Eligible p.host c.mountTable d →
        (d ∈ (settle c p.spec s p.host inv.devices).value.1.delayed ↔
          p.host.now < first + c.minAge)) := by
  have hsorts : Sorts c p.spec s p.host inv.devices
      (settle c p.spec s p.host inv.devices).value.1.sorting := settle_sorts
  refine ⟨s.firstSeen p.host.now d.kname, ?_, fun hvalid => ?_, fun heligible => ?_⟩
  · rw [Pass.next, reconcile_of_finds H, settle_ages, firstSeen?_noted hd]
  · obtain ⟨-, -, hold, -⟩ := (hsorts.valid_iff d).mp hvalid
    exact hold
  · constructor
    · intro hdelayed
      obtain ⟨-, -, hyoung⟩ := (hsorts.delayed_iff d).mp hdelayed
      exact hyoung
    · intro hyoung
      exact (hsorts.delayed_iff d).mpr ⟨hd, heligible, hyoung⟩

/-- The gate in every pass of a run stands at the first sighting of the name in the run. -/
structure AgeGated (c : Config) (run : List Pass) : Prop where
  valid : ∀ before p later o, run = before ++ p :: later → p.result c (after c before) = .ok o →
    ∀ d ∈ o.valid, ∃ t, FirstSighting c .initial run d.kname t ∧ t + c.minAge ≤ p.host.now
  /-- Of the devices that pass every filter, the pass delays those whose name is too young. -/
  delayed : ∀ before p later o d, run = before ++ p :: later →
    p.result c (after c before) = .ok o → p.Lists c (after c before) d →
    (∀ f ∈ Filter.standardFilters p.host c.mountTable, (f.check d).value = .ok true) →
    ∃ t, FirstSighting c .initial run d.kname t ∧ (d ∈ o.delayed ↔ p.host.now < t + c.minAge)
  unique : ∀ k t t', FirstSighting c .initial run k t → FirstSighting c .initial run k t' → t = t'
  /-- A sighting in some part of the run is the one of the whole run, and stays in the record. -/
  kept : ∀ before later k t, run = before ++ later → FirstSighting c .initial before k t →
    FirstSighting c .initial run k t ∧ (after c run).ages.firstSeen? k = some t

theorem run_ageGated (c : Config) (run : List Pass) : AgeGated c run where
  valid := by
    rintro before p later o rfl ho d hvalid
    rcases reconcile_ok_cases ho with rfl | ⟨inv, H, rfl⟩
    · cases hvalid
    have hd : d ∈ inv.devices := settle_sorts.valid_order.subset hvalid
    obtain ⟨t, ht, hold, -⟩ := Pass.gate (s := after c before) H hd
    exact ⟨t, firstSighting_of_next ht, hold hvalid⟩
  delayed := by
    rintro before p later o d rfl ho hlists hpass
    obtain ⟨inv, H, hd⟩ := Pass.lists_iff.mp hlists
    cases ho.symm.trans (Pass.result_of_finds H)
    have heligible : Filter.Eligible p.host c.mountTable d :=
      Filter.standardFilters_pass_iff.mp (Filter.judge_pass_iff.mpr hpass)
    obtain ⟨t, ht, -, hyoung⟩ := Pass.gate (s := after c before) H hd
    exact ⟨t, firstSighting_of_next ht, hyoung heligible⟩
  unique k t t' ht ht' := by
    have ht := after_firstSeen?_iff.mpr ht
    have ht' := after_firstSeen?_iff.mpr ht'
    exact Option.some.inj (ht.symm.trans ht')
  kept := by
    rintro before later k t rfl ht
    have hrun := ht.append later
    exact ⟨hrun, after_firstSeen?_iff.mpr hrun⟩

end NodeDisks.VolumeSet
