import Mathlib.Data.List.Chain
import NodeDisks.Proofs.Notifications
import NodeDisks.Proofs.VolumeSet.Independence
import NodeDisks.Proofs.VolumeSet.Run

/-!
## The wait after a pass

The wait after a pass. A pass that delays a device asks to be repeated after half the minimum age, and
any other one after the configured wait; which of the two is longer is a matter of the configuration.
So a new disk shortens the wait exactly where half the minimum age is no longer than the configured
wait (`delaysShorten_iff`). One disk is enough to find out: a node that lists it, and is otherwise like
one that lists nothing, delays it in the first pass (`exists_disk_delayed`).
-/

namespace NodeDisks.VolumeSet

/-- From whatever state, a pass that delays devices asks for no longer wait than one that delays none,
on nodes that differ at most in what is listed. -/
def DelaysShorten (c : Config) : Prop :=
  ∀ (run : List Pass) (spec : VolumeSetSpec) (labels : NodeLabels) (h h' : Host) (o o' : Outcome),
    h.SameButListing h' →
    (reconcile c spec labels (after c run) h).value.1 = .ok o →
    (reconcile c spec labels (after c run) h').value.1 = .ok o' →
    o.delayed = [] → o'.delayed ≠ [] → o'.requeueAfter ≤ o.requeueAfter

/-- A node that lists the rows, with nothing mounted according to the table. -/
def quietNode (table : Path) (rows : List Json) : MemoryNode :=
  { listingNode rows with files := MemoryFiles.empty.addFile table "" }

/-- The disk of `diskRow`. -/
def newDisk : Device := { Device.blank with name := "a", kname := "a", type := "disk" }

variable {c : Config} {spec : VolumeSetSpec} {labels : NodeLabels} {s : State} {h : Host}
  {o : Outcome} {table : Path} {rows rows' : List Json} {ds : List Device}

theorem requeueAfter_of_reconcile (ho : (reconcile c spec labels s h).value.1 = .ok o) :
    o.requeueAfter = wait c o.delayed := by
  rcases reconcile_ok_cases ho with rfl | ⟨inv, -, rfl⟩
  · rfl
  · rfl

theorem wait_of_delayed (hds : ds ≠ []) : wait c ds = c.minAge / 2 :=
  if_neg (mt List.isEmpty_iff.mp hds)

/-- A pass that finds an inventory ends with an outcome that sorts it. -/
theorem exists_outcome_of_finds {inv : Inventory} (c : Config) (s : State)
    (H : Finds spec labels h inv) : ∃ o,
    (reconcile c spec labels s h).value.1 = .ok o ∧ Sorts c spec s h inv.devices o.sorting :=
  ⟨_, congrArg Prod.fst (reconcile_of_finds H), settle_sorts⟩

/-! ### A new disk -/

theorem ofListing_nothing :
    Inventory.ofListing (Json.object [("blockdevices", .array [])]).compact = .ok ⟨[], []⟩ := by
  have hrows : Inventory.rows? (Json.object [("blockdevices", .array [])]).compact = some [] := by
    rfl
  simp [Inventory.ofListing, hrows, Inventory.ofRows]

theorem ofListing_diskRow :
    Inventory.ofListing (Json.object [("blockdevices", .array [diskRow])]).compact =
      .ok ⟨[newDisk], []⟩ := by
  have hread : Inventory.readRow diskRow = .ok newDisk := by rfl
  simp [Inventory.ofListing, rows?_diskRow, Inventory.ofRows, hread]

theorem quietNode_sameButListing :
    (quietNode table rows).host.SameButListing (quietNode table rows').host where
  files := rfl
  openExclusive := rfl
  later := rfl
  now := rfl
  signatures := rfl

theorem finds_quietNode {listing : Inventory}
    (hlisting : Inventory.ofListing (Json.object [("blockdevices", .array rows)]).compact =
      .ok listing) :
    Finds anySize [] (quietNode table rows).host (Inventory.merged [] listing) where
  picked := rfl
  surveyed := Inventory.Reads.survey ⟨rfl, ⟨some 0, _⟩, rfl, rfl, hlisting⟩

theorem finds_nothing (table : Path) : Finds anySize [] (quietNode table []).host ⟨[], []⟩ :=
  finds_quietNode ofListing_nothing

theorem finds_newDisk (table : Path) :
    Finds anySize [] (quietNode table [diskRow]).host ⟨[newDisk], []⟩ := by
  have hmerged : Inventory.merged [] ⟨[newDisk], []⟩ = ⟨[newDisk], []⟩ := by
    simp [Inventory.merged, Signatures.mergeIntoAll_eq_map, Signatures.mergeInto_eq,
      Inventory.flattenedAll_eq_flatMap, Inventory.flattened_eq, Signatures.find?, newDisk,
      Device.blank]
  rw [← hmerged]
  exact finds_quietNode ofListing_diskRow

theorem read_quietNode : (quietNode table rows).host.files.read table = .ok "" := by
  have hresolve : (quietNode table rows).files.resolve table = .ok table := rfl
  have hcontent : (quietNode table rows).files.files.get? table = some "" := by
    simp [quietNode, MemoryFiles.addFile, MemoryFiles.empty, PathTable.empty, PathTable.insert,
      PathTable.insertEntry, PathTable.get?]
  have hread : (quietNode table rows).files.read table = .ok "" := by
    simp only [MemoryFiles.read, hresolve, hcontent]
  exact hread

theorem eligible_newDisk : Filter.Eligible (quietNode table rows).host table newDisk :=
  have hlabel := Device.hasBootLabel_eq_false_iff.mp (rfl : newDisk.hasBootLabel = false)
  { writable := rfl
    fixed := rfl
    running := by decide
    noBios := hlabel.1
    noBoot := hlabel.2
    noSignature := rfl
    noChildren := rfl
    notMounted := ⟨"", read_quietNode, rfl⟩
    named := by decide
    free := rfl }

/-- With any minimum age the first pass that lists a disk delays it, and without the disk there is
nothing to delay. -/
theorem exists_disk_delayed (hage : (0 : Nat) < c.minAge) : ∃ o o',
    (reconcile c anySize [] .initial (quietNode c.mountTable []).host).value.1 = .ok o ∧
      (reconcile c anySize [] .initial (quietNode c.mountTable [diskRow]).host).value.1 = .ok o' ∧
      o.delayed = [] ∧ newDisk ∈ o'.delayed := by
  obtain ⟨o, ho, hsorts⟩ := exists_outcome_of_finds c .initial (finds_nothing c.mountTable)
  obtain ⟨o', ho', hsorts'⟩ := exists_outcome_of_finds c .initial (finds_newDisk c.mountTable)
  have hnone : o.delayed = [] := List.sublist_nil.mp hsorts.delayed_order
  have hyoung (now : Instant) : now < State.initial.firstSeen now newDisk.kname + c.minAge :=
    Int.lt_add_of_pos_right now (by omega)
  have hdisk : newDisk ∈ o'.sorting.delayed := by
    rw [hsorts'.delayed_iff newDisk]
    exact ⟨List.mem_singleton_self newDisk, eligible_newDisk, hyoung _⟩
  exact ⟨o, o', ho, ho', hnone, hdisk⟩

/-! ### All passes -/

theorem delaysShorten_of_le (H : c.minAge / 2 ≤ c.requeueAfter) : DelaysShorten c := by
  intro run spec labels h h' o o' _ ho ho' hnone hsome
  rw [requeueAfter_of_reconcile ho, requeueAfter_of_reconcile ho', hnone, wait_of_delayed hsome]
  exact H

theorem DelaysShorten.le (H : DelaysShorten c) : c.minAge / 2 ≤ c.requeueAfter := by
  rcases Nat.eq_zero_or_pos c.minAge with hage | hage
  · rw [hage]
    exact Nat.zero_le _
  · obtain ⟨o, o', ho, ho', hnone, hdisk⟩ := exists_disk_delayed hage
    have hsome : o'.delayed ≠ [] := List.ne_nil_of_mem hdisk
    -- The states are made the same term, so that comparing the passes does not run them.
    have hstart : after c [] = .initial := rfl
    rw [← hstart] at ho ho'
    have hle := H [] anySize [] _ _ o o' quietNode_sameButListing ho ho' hnone hsome
    rw [requeueAfter_of_reconcile ho, requeueAfter_of_reconcile ho', hnone,
      wait_of_delayed hsome] at hle
    exact hle

/-- A delayed device never lengthens the wait exactly when half the minimum age is no longer than the
wait without it. -/
theorem delaysShorten_iff (c : Config) : DelaysShorten c ↔ c.minAge / 2 ≤ c.requeueAfter :=
  ⟨DelaysShorten.le, delaysShorten_of_le⟩

/-- A disk that has to be there for ten minutes is looked at after five, and one minute would have been
the wait without it. -/
theorem delays_notAlwaysShorten : ¬∀ c, DelaysShorten c := by
  intro hall
  have hle := (hall { minAge := Duration.ofSeconds 600 }).le
  exact absurd hle (by decide)

end NodeDisks.VolumeSet

/-!
## Delays in a run

How often a device is put off. A pass that delays anything asks to be repeated after half the minimum
age. In a run whose clock never goes back and that keeps the waits it is asked for, the passes that
delay a name are therefore at least that far apart, and they all lie within the minimum age from the
first sighting of the name on (`delayed_before`). There is room for three of them, and not for four:
rounding half an age down loses less than one nanosecond of it.
-/

namespace NodeDisks.VolumeSet

/-- A pass of a run with the state that the earlier ones left. -/
structure Visit where
  before : State
  pass : Pass

def visits (c : Config) (s : State) : List Pass → List Visit
  | [] => []
  | p :: run => ⟨s, p⟩ :: visits c (p.next c s) run

def Visit.time (v : Visit) : Int := v.pass.host.now

/-- The wait that the outcome asks for; a failed pass asks for none. -/
def Visit.pause (c : Config) (v : Visit) : Duration :=
  match v.pass.result c v.before with
  | .ok o => o.requeueAfter
  | .error _ => 0

def Visit.Delays (c : Config) (k : String) (v : Visit) : Prop := v.pass.Delays c v.before k

instance (c : Config) (k : String) (v : Visit) : Decidable (v.Delays c k) :=
  match h : v.pass.result c v.before with
  | .ok o => decidable_of_iff (∃ d ∈ o.delayed, d.kname = k) (by simp [Visit.Delays, Pass.Delays, h])
  | .error _ => isFalse (by simp [Visit.Delays, Pass.Delays, h])

/-- The clock never goes back, and from pass to pass the wait that was asked for goes by. -/
def Paced (c : Config) (run : List Pass) : Prop :=
  (visits c .initial run).IsChain fun v w : Visit => v.time + v.pause c ≤ w.time

variable {c : Config} {s : State} {p : Pass} {k : String} {v : Visit} {t : Instant}
  {run : List Pass}

/-! ### One pass -/

theorem Pass.Delays.sights (H : p.Delays c s k) : p.Sights c s k := by
  obtain ⟨o, ho, d, hd, hk⟩ := H
  obtain ⟨inv, hfinds, hlisted, -⟩ := delayed_of_reconcile ho hd
  exact ⟨d, lists_iff.mpr ⟨inv, hfinds, hlisted⟩, hk⟩

theorem Pass.Delays.now_lt (H : p.Delays c s k) (ht : s.ages.firstSeen? k = some t) :
    p.host.now < t + c.minAge := by
  obtain ⟨o, ho, d, hd, rfl⟩ := H
  obtain ⟨inv, -, -, -, hyoung⟩ := delayed_of_reconcile ho hd
  rwa [State.firstSeen, ht] at hyoung

theorem Visit.Delays.pause_eq (H : v.Delays c k) : v.pause c = youngDelay c.minAge := by
  obtain ⟨o, ho, d, hd, -⟩ := H
  have hpause : v.pause c = o.requeueAfter := by rw [pause, ho]
  rw [hpause]
  rcases reconcile_ok_cases ho with rfl | ⟨inv, -, rfl⟩
  · cases hd
  · exact if_neg fun hnil => List.ne_nil_of_mem hd (List.isEmpty_iff.mp hnil)

/-! ### Runs -/

/-- Once a name has a first sighting, it is only delayed before it comes of age. -/
theorem delayed_before (ht : s.ages.firstSeen? k = some t) :
    ∀ v ∈ visits c s run, v.Delays c k → v.time < t + c.minAge := by
  induction run generalizing s with
  | nil => exact fun v hv => absurd hv List.not_mem_nil
  | cons p run ih =>
    intro v hv hdelays
    rcases List.mem_cons.mp hv with rfl | hv
    · exact Pass.Delays.now_lt hdelays ht
    · exact ih (Pass.next_firstSeen?_iff.mpr (.inl ht)) v hv hdelays

/-- Visits that are `gap` apart after each delay: all delays but the last take up a gap each before
`deadline`. -/
theorem countP_delays_lt {vs : List Visit} {gap : Duration} {start deadline : Int}
    (hchain : vs.IsChain fun v w : Visit => v.time + v.pause c ≤ w.time)
    (hgap : ∀ v ∈ vs, v.Delays c k → v.pause c = gap ∧ v.time < deadline)
    (hstart : ∀ v ∈ vs.head?, start ≤ v.time) :
    vs.countP (·.Delays c k) = 0 ∨
      start + (vs.countP (·.Delays c k) : Int) * gap < deadline + gap := by
  induction vs generalizing start with
  | nil => exact .inl rfl
  | cons v vs ih =>
    obtain ⟨hnext, htail⟩ := List.isChain_cons.mp hchain
    have hv : start ≤ v.time := hstart v rfl
    have hvs : ∀ w ∈ vs, w.Delays c k → w.pause c = gap ∧ w.time < deadline :=
      fun w hw => hgap w (.tail _ hw)
    by_cases hdelays : v.Delays c k
    · obtain ⟨hpause, hdeadline⟩ := hgap v (.head _) hdelays
      rw [hpause] at hnext
      right
      rw [List.countP_cons_of_pos (by simpa using hdelays), Int.natCast_add, Int.add_mul]
      rcases ih htail hvs hnext with hzero | hrest
      · rw [hzero]
        omega
      · omega
    · rw [List.countP_cons_of_neg (by simpa using hdelays)]
      refine ih htail hvs fun w hw => ?_
      have := hnext w hw
      omega

theorem le_three_of_mul_youngDelay_lt {age n : Nat} (hage : 2 ≤ age)
    (H : n * youngDelay age < age + youngDelay age) : n ≤ 3 := by
  unfold youngDelay at H
  by_contra hmore
  have hfour : 4 * (age / 2) ≤ n * (age / 2) := Nat.mul_le_mul_right _ (by omega)
  omega

/-- Before its first sighting a name is not delayed, and from there on at most three times. -/
theorem countP_delays_le (hage : (2 : Nat) ≤ c.minAge) (hnew : s.ages.firstSeen? k = none)
    (hchain : (visits c s run).IsChain fun v w : Visit => v.time + v.pause c ≤ w.time) :
    (visits c s run).countP (·.Delays c k) ≤ 3 := by
  induction run generalizing s with
  | nil => exact Nat.zero_le _
  | cons p run ih =>
    by_cases hsights : p.Sights c s k
    · -- the name is of age at `p.host.now + c.minAge`
      have hseen : (p.next c s).ages.firstSeen? k = some p.host.now :=
        Pass.next_firstSeen?_iff.mpr (.inr ⟨hnew, hsights, rfl⟩)
      have hgap : ∀ v ∈ visits c s (p :: run), v.Delays c k →
          v.pause c = youngDelay c.minAge ∧ v.time < p.host.now + c.minAge := by
        intro v hv hdelays
        refine ⟨hdelays.pause_eq, ?_⟩
        rcases List.mem_cons.mp hv with rfl | hv
        · exact Int.lt_add_of_pos_right _ (by omega)
        · exact delayed_before hseen v hv hdelays
      have hhead : ∀ v ∈ (visits c s (p :: run)).head?, p.host.now ≤ v.time := by
        rintro v ⟨⟩
        exact Int.le_refl _
      apply le_three_of_mul_youngDelay_lt hage
      rcases countP_delays_lt hchain hgap hhead with hzero | hroom
      · rw [hzero, Nat.zero_mul]
        omega
      · rw [Int.add_assoc] at hroom
        exact_mod_cast Int.lt_of_add_lt_add_left hroom
    · have hdelays : ¬(⟨s, p⟩ : Visit).Delays c k := fun H => hsights (Pass.Delays.sights H)
      rw [visits, List.countP_cons_of_neg (by simpa using hdelays)]
      exact ih (Pass.next_firstSeen?_eq_none_iff.mpr ⟨hnew, hsights⟩)
        (List.isChain_cons.mp hchain).2

/-- In a run that is paced by its own outcomes no name is delayed more than three times. -/
theorem run_delays_at_most_three (c : Config) (hage : 2 ≤ c.minAge) (run : List Pass)
    (hpaced : Paced c run) (k : String) :
    (visits c .initial run).countP (·.Delays c k) ≤ 3 :=
  countP_delays_le hage rfl hpaced

/-- Half of three nanoseconds is one, so a new disk is delayed at 0, 1 and 2, and valid at 3. -/
theorem run_delays_at_most_three_new_disk :
    let c : Config := { minAge := 3, mountTable := ⟨"/m"⟩ }
    let disk := listingNode [listingRow "a" "disk" []]
    let run := [0, 1, 2, 3].map fun now => ⟨anySize, [], { disk with now }.host⟩
    2 ≤ c.minAge ∧ Paced c run ∧ (visits c .initial run).countP (·.Delays c "a") = 3 ∧
      (visits c .initial run).countP (·.Delays c "a") ≤ 3 := by
  intro c disk run
  have hpaced : Paced c run := by
    simp only [Paced]
    decide +kernel
  exact ⟨by decide, hpaced, by decide +kernel, run_delays_at_most_three c (by decide) run hpaced "a"⟩

end NodeDisks.VolumeSet
