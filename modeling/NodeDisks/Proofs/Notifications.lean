import NodeDisks.Discovery
import NodeDisks.Proofs.Discovery
import NodeDisks.Proofs.Identity.Outcome
import NodeDisks.Proofs.VolumeSet.Containment
import NodeDisks.Proofs.VolumeSet.Opening
import NodeDisks.Proofs.VolumeSet.Run

/-!
## Notices

Notices that are given once. A process that keeps the names it has given notice of, and in each step
gives notice of those due names that it has not kept yet (`GivesNotice`), gives notice of a name at
most once in its life, in the first step in which it is due (`GivesNotice.noticesOnce`). One step adds
its notices to what is kept, so after a run the kept names are the notices of the run in their order
(`GivesNotice.heard_run`).
-/

namespace NodeDisks

/-! ### Names that were not heard yet -/

section Unheard

variable {known names : List String} {k : String}

theorem unheard_cons : unheard known (k :: names) =
    if k ∈ known then unheard known names else k :: unheard (k :: known) names := by
  simp only [unheard, List.contains_iff_mem]

theorem mem_unheard_iff : k ∈ unheard known names ↔ k ∈ names ∧ k ∉ known := by
  induction names generalizing known with
  | nil => simp [unheard]
  | cons name names ih =>
    rw [unheard_cons, List.mem_cons, or_and_right]
    split
    case isTrue hknown =>
      rw [ih]
      refine (or_iff_right ?_).symm
      rintro ⟨rfl, hnew⟩
      exact hnew hknown
    case isFalse hnew =>
      rw [List.mem_cons, ih, List.mem_cons, not_or]
      by_cases hk : k = name
      · simp [hk, hnew]
      · simp [hk]

theorem nodup_unheard : (unheard known names).Nodup := by
  induction names generalizing known with
  | nil => exact .nil
  | cons name names ih =>
    rw [unheard_cons]
    split
    · exact ih
    · refine List.nodup_cons.mpr ⟨fun hmem => ?_, ih⟩
      exact (mem_unheard_iff.mp hmem).2 (.head _)

theorem nodup_append_unheard (H : known.Nodup) : (known ++ unheard known names).Nodup := by
  refine List.nodup_append.mpr ⟨H, nodup_unheard, ?_⟩
  rintro k hknown _ hnew rfl
  exact (mem_unheard_iff.mp hnew).2 hknown

theorem unheard_append_unheard : unheard (known ++ unheard known names) names = [] := by
  refine List.eq_nil_iff_forall_not_mem.mpr fun k hk => ?_
  obtain ⟨hmem, hnew⟩ := mem_unheard_iff.mp hk
  rw [List.mem_append, not_or] at hnew
  exact hnew.2 (mem_unheard_iff.mpr ⟨hmem, hnew.1⟩)

end Unheard

/-- The kernel names in the events with this reason, as often as they occur. -/
def noticed (reason : String) (events : List Event) : List String :=
  events.filterMap fun e => if e.reason = reason then e.device? else none

@[simp] theorem noticed_append (reason : String) (es es' : List Event) :
    noticed reason (es ++ es') = noticed reason es ++ noticed reason es' := List.filterMap_append

/-- Events of one kind about some devices are notices of just these. -/
theorem noticed_map {reason : String} {f : String → Event} (hreason : ∀ k, (f k).reason = reason)
    (hdevice : ∀ k, (f k).device? = some k) (names : List String) :
    noticed reason (names.map f) = names := by
  induction names with
  | nil => rfl
  | cons k names ih =>
    rw [List.map_cons, noticed, List.filterMap_cons, if_pos (hreason k), hdevice]
    exact congrArg (k :: ·) ih

/-! ### Runs of a process -/

/-- A process that remembers something from step to step and reports events. -/
structure Process (σ ι : Type) where
  start : σ
  next : σ → ι → σ
  events : σ → ι → List Event

namespace Process

variable {σ ι : Type}

/-- What the process remembers after a run that starts with `s`. -/
def runFrom (P : Process σ ι) (s : σ) (run : List ι) : σ := run.foldl P.next s

/-- The events of a run that starts with `s`. -/
def eventsFrom (P : Process σ ι) (s : σ) : List ι → List Event
  | [] => []
  | p :: run => P.events s p ++ P.eventsFrom (P.next s p) run

/-- What is due in some step of a run that starts with `s`. -/
def DueIn (P : Process σ ι) (due : σ → ι → String → Prop) (s : σ) (run : List ι) (k : String) :
    Prop :=
  ∃ before p later, run = before ++ p :: later ∧ due (P.runFrom s before) p k

/-- In a run from the start each name is noticed at most once, and that when it is first due. -/
structure NoticesOnce (P : Process σ ι) (reason : String) (due : σ → ι → String → Prop)
    (run : List ι) : Prop where
  once : (noticed reason (P.eventsFrom P.start run)).Nodup
  first : ∀ before p later k, run = before ++ p :: later →
    (k ∈ noticed reason (P.events (P.runFrom P.start before) p) ↔
      due (P.runFrom P.start before) p k ∧ ¬P.DueIn due P.start before k)
  noticed_iff : ∀ k, k ∈ noticed reason (P.eventsFrom P.start run) ↔ P.DueIn due P.start run k

/-- In each step the process gives notice of the due names that it has not kept, and keeps them. -/
structure GivesNotice (P : Process σ ι) (reason : String) (due : σ → ι → String → Prop)
    (heard : σ → List String) : Prop where
  start : heard P.start = []
  step : ∀ s p, ∃ names, (∀ k, k ∈ names ↔ due s p k) ∧
    noticed reason (P.events s p) = unheard (heard s) names ∧
    heard (P.next s p) = heard s ++ unheard (heard s) names

variable {P : Process σ ι} {reason : String} {due : σ → ι → String → Prop}
  {heard : σ → List String} {s : σ} {p : ι} {run : List ι} {k : String}

theorem not_dueIn_nil : ¬P.DueIn due s [] k := by
  rintro ⟨before, p, later, hrun, -⟩
  simp at hrun

theorem dueIn_cons : P.DueIn due s (p :: run) k ↔ due s p k ∨ P.DueIn due (P.next s p) run k := by
  constructor
  · rintro ⟨before, q, later, hrun, hdue⟩
    cases before with
    | nil =>
      obtain ⟨rfl, rfl⟩ := List.cons.inj hrun
      exact .inl hdue
    | cons p' before =>
      obtain ⟨rfl, htail⟩ := List.cons.inj hrun
      exact .inr ⟨before, q, later, htail, hdue⟩
  · rintro (hdue | ⟨before, q, later, rfl, hdue⟩)
    · exact ⟨[], p, run, rfl, hdue⟩
    · exact ⟨p :: before, q, later, rfl, hdue⟩

namespace GivesNotice

variable (H : P.GivesNotice reason due heard)

include H

/-! One step -/

theorem mem_noticed_iff :
    k ∈ noticed reason (P.events s p) ↔ due s p k ∧ k ∉ heard s := by
  obtain ⟨names, hnames, hevents, -⟩ := H.step s p
  rw [hevents, mem_unheard_iff, hnames]

theorem heard_next : heard (P.next s p) = heard s ++ noticed reason (P.events s p) := by
  obtain ⟨names, -, hevents, hheard⟩ := H.step s p
  rw [hheard, hevents]

theorem nodup_heard_next (hs : (heard s).Nodup) : (heard (P.next s p)).Nodup := by
  obtain ⟨names, -, -, hheard⟩ := H.step s p
  rw [hheard]
  exact nodup_append_unheard hs

theorem mem_heard_next_iff : k ∈ heard (P.next s p) ↔ k ∈ heard s ∨ due s p k := by
  rw [H.heard_next, List.mem_append, H.mem_noticed_iff]
  by_cases hk : k ∈ heard s <;> simp [hk]

/-! Runs -/

theorem heard_run : heard (P.runFrom s run) = heard s ++ noticed reason (P.eventsFrom s run) := by
  induction run generalizing s with
  | nil => exact (List.append_nil _).symm
  | cons p run ih =>
    have hstep : P.runFrom s (p :: run) = P.runFrom (P.next s p) run := rfl
    rw [hstep, ih, H.heard_next, eventsFrom, noticed_append, List.append_assoc]

theorem nodup_heard_run (hs : (heard s).Nodup) : (heard (P.runFrom s run)).Nodup := by
  induction run generalizing s with
  | nil => exact hs
  | cons p run ih => exact ih (H.nodup_heard_next hs)

theorem mem_heard_run_iff :
    k ∈ heard (P.runFrom s run) ↔ k ∈ heard s ∨ P.DueIn due s run k := by
  induction run generalizing s with
  | nil => simp [runFrom, not_dueIn_nil]
  | cons p run ih =>
    have hstep : P.runFrom s (p :: run) = P.runFrom (P.next s p) run := rfl
    rw [hstep, ih, H.mem_heard_next_iff, dueIn_cons, or_assoc]

theorem noticesOnce (run : List ι) : P.NoticesOnce reason due run where
  once := by
    have hnodup : (heard (P.runFrom P.start run)).Nodup :=
      H.nodup_heard_run (by rw [H.start]; exact .nil)
    rwa [H.heard_run, H.start, List.nil_append] at hnodup
  first before p later k _ := by
    rw [H.mem_noticed_iff, H.mem_heard_run_iff, H.start]
    simp
  noticed_iff k := by
    have hmem : k ∈ heard (P.runFrom P.start run) ↔
        k ∈ heard P.start ∨ P.DueIn due P.start run k := H.mem_heard_run_iff
    rw [H.heard_run, H.start, List.nil_append] at hmem
    simpa using hmem

end GivesNotice

end Process

end NodeDisks

/-!
## Both controllers

Notifications over runs. Both controllers tell of a kernel name once in their lives: the passes over a
volume set when the name is first delayed, the discoveries when its device first has no persistent link
(`notifications_once`). Each of them is a process that gives notice; what is left to show is one step,
where passes that fail or are skipped add nothing, and a failed publication changes nothing.
-/

namespace NodeDisks

theorem Inventory.noticed_surveyEvents (reason : String) (result : Except Error Inventory) :
    noticed reason (surveyEvents result) = [] := by
  refine List.filterMap_eq_nil_iff.mpr fun e he => ?_
  rw [device?_of_mem_surveyEvents he, ite_self]

namespace VolumeSet

/-- The events of a pass. -/
def Pass.events (c : Config) (s : State) (p : Pass) : List Event :=
  (reconcile c p.spec p.labels s p.host).effects.events

/-- The pass delays a device of this name. -/
def Pass.Delays (c : Config) (s : State) (p : Pass) (k : String) : Prop :=
  ∃ o, p.result c s = .ok o ∧ ∃ d ∈ o.delayed, d.kname = k

/-- The passes of one process. -/
def process (c : Config) : Process State Pass := ⟨.initial, fun s p => p.next c s, Pass.events c⟩

variable {c : Config} {s : State} {p : Pass} {k : String} {inv : Inventory}

theorem noticed_events_of_finds (H : Finds p.spec p.labels p.host inv) :
    noticed "DiscoveredNewDevice" (p.events c s) = news c p.spec s p.host inv.devices := by
  rw [Pass.events, events_reconcile_of_finds H, noticed_append, Inventory.noticed_surveyEvents,
    List.nil_append]
  exact noticed_map (f := announcement c) (fun _ => rfl) (fun _ => rfl) _

theorem Pass.delays_iff_of_finds (H : Finds p.spec p.labels p.host inv) : p.Delays c s k ↔
    k ∈ (settle c p.spec s p.host inv.devices).value.1.delayed.map (·.kname) := by
  rw [List.mem_map, Delays, result_of_finds H]
  constructor
  · rintro ⟨o, ho, hd⟩
    cases Except.ok.inj ho
    exact hd
  · exact fun hd => ⟨_, rfl, hd⟩

theorem noticed_events_of_not_finds (H : ¬∃ inv, Finds p.spec p.labels p.host inv) :
    noticed "DiscoveredNewDevice" (p.events c s) = [] := by
  rw [Pass.events]
  cases reconcile_ends c p.spec p.labels s p.host with
  | faulty _ hpass =>
    rw [hpass]
    rfl
  | skipped _ hpass =>
    rw [hpass]
    rfl
  | unlisted _ _ _ heffects =>
    rw [heffects]
    exact Inventory.noticed_surveyEvents "DiscoveredNewDevice" (.error _)
  | settled hfinds => exact absurd ⟨_, hfinds⟩ H

theorem Pass.not_delays_of_not_finds (H : ¬∃ inv, Finds p.spec p.labels p.host inv) :
    ¬p.Delays c s k := by
  rintro ⟨o, ho, d, hd, -⟩
  obtain rfl : o = .skip c := (reconcile_of_not_finds H).2 o ho
  cases hd

theorem Pass.announced_next_of_finds (H : Finds p.spec p.labels p.host inv) :
    (p.next c s).announced = s.announced ++ news c p.spec s p.host inv.devices := by
  rw [Pass.next, reconcile_of_finds H]
  rfl

/-- One pass announces the delayed names that were not announced before, and keeps them in mind. -/
theorem process_givesNotice (c : Config) : (process c).GivesNotice "DiscoveredNewDevice"
    (fun s p => p.Delays c s) State.announced where
  start := rfl
  step s p := by
    by_cases H : ∃ inv, Finds p.spec p.labels p.host inv
    · obtain ⟨inv, H⟩ := H
      let delayed := (settle c p.spec s p.host inv.devices).value.1.delayed.map (·.kname)
      have hdelayed : ∀ k, k ∈ delayed ↔ p.Delays c s k := fun k =>
        (Pass.delays_iff_of_finds H).symm
      exact ⟨delayed, hdelayed, noticed_events_of_finds H, Pass.announced_next_of_finds H⟩
    · have hnext : p.next c s = s := (reconcile_of_not_finds H).1
      have hheard : (p.next c s).announced = s.announced ++ unheard s.announced [] := by
        rw [hnext]
        exact (List.append_nil _).symm
      exact ⟨[], fun k => iff_of_false List.not_mem_nil (Pass.not_delays_of_not_finds H),
        noticed_events_of_not_finds H, hheard⟩

end VolumeSet

namespace Discovery

/-- The pass surveys the device and does not ignore it. -/
def Vets (c : Config) (h : Host) (d : Device) : Prop :=
  ∃ inv, (Inventory.survey h []).value = .ok inv ∧ d ∈ inv.devices ∧ ignores h.files c d = false

/-- A vetted device of this name has no persistent link. -/
def Misses (c : Config) (h : Host) (k : String) : Prop :=
  ∃ d, Vets c h d ∧ d.kname = k ∧
    ∃ fallback, (Identity.resolve h.files c.links none d).1 = .ok (.notFound fallback)

/-- The discoveries of one process. -/
def process (c : Config) : Process State Host :=
  ⟨.initial, fun s h => (discover c s h).value.2, fun s h => (discover c s h).effects.events⟩

variable {c : Config} {s : State} {h : Host} {files : FileView} {d : Device} {ds : List Device}
  {k : String} {inv : Inventory}

/-- The names that a pass over the listed devices finds without a persistent link. -/
def lacking (c : Config) (h : Host) (ds : List Device) : List String :=
  missingNames h.files c (ds.filter fun d => !ignores h.files c d)

theorem mem_missingNames_iff : k ∈ missingNames files c ds ↔ ∃ d ∈ ds, d.kname = k ∧
    ∃ fallback, (Identity.resolve files c.links none d).1 = .ok (.notFound fallback) := by
  simp only [missingNames, List.mem_map, List.mem_filter, and_assoc]
  refine exists_congr fun d => and_congr_right fun _ => and_comm.trans (and_congr_right fun _ => ?_)
  by_cases hk : d.kname = ""
  · rw [recordOf?_of_unnamed hk]
    refine iff_of_false Bool.false_ne_true ?_
    rintro ⟨fallback, hmissing⟩
    exact Identity.named_of_notFound hmissing hk
  · simp only [recordOf?, Device.node?_of_named hk]
    rcases (Identity.resolve files c.links none d).1 with e | ⟨path⟩ | ⟨fallback⟩ <;>
      simp [Resolution.isFound]

theorem mem_lacking_iff (hinv : (Inventory.survey h []).value = .ok inv) :
    k ∈ lacking c h inv.devices ↔ Misses c h k := by
  simp only [lacking, mem_missingNames_iff, List.mem_filter, Bool.not_eq_true', Misses, Vets, hinv,
    Except.ok.injEq, exists_eq_left', and_assoc]

/-- A pass reports what is missing and was not reported before, and keeps it in mind whether or not
the publication succeeds. -/
theorem discover_reports (hinv : (Inventory.survey h []).value = .ok inv) :
    (discover c s h).effects.events = Inventory.surveyEvents (.ok inv) ++
        (unheard s.missing (lacking c h inv.devices)).map .deviceIdNotFound ∧
      (discover c s h).value.2.missing =
        s.missing ++ unheard s.missing (lacking c h inv.devices) := by
  have hstatus : (⟨some h.now.text, DeviceRecord.unique (records c s h
      (inv.devices.filter fun d => !ignores h.files c d)).value.1⟩ : DiscoveryStatus) =
        statusOf c h inv.devices := rfl
  have hevents : (records c s h (inv.devices.filter fun d => !ignores h.files c d)).effects.events =
      (unheard s.missing (lacking c h inv.devices)).map .deviceIdNotFound := List.append_nil _
  have hpublished : (h.publishResult (statusOf c h inv.devices)).effects.events = [] := rfl
  simp only [discover, Traced.effects_bind, Traced.value_bind, Inventory.value_reportedSurvey, hinv,
    Inventory.effects_reportedSurvey, Effects.events_append, hevents, Host.value_publishResult,
    hstatus, hpublished, List.nil_append]
  cases h.publish (statusOf c h inv.devices) with
  | error e => exact ⟨congrArg _ (List.append_nil _), rfl⟩
  | ok u => exact ⟨congrArg _ (List.append_nil _), rfl⟩

theorem discover_reports_of_survey_error {e : Error}
    (he : (Inventory.survey h []).value = .error e) :
    (discover c s h).effects.events = Inventory.surveyEvents (.error e) := by
  simp only [discover, Traced.effects_bind, Inventory.value_reportedSurvey, he,
    Inventory.effects_reportedSurvey, Traced.effects_pure, Effects.append_none]

/-- One discovery reports the missing names that were not reported before, and keeps them in mind. -/
theorem process_givesNotice (c : Config) : (process c).GivesNotice "DeviceIdNotFound"
    (fun _ h => Misses c h) State.missing where
  start := rfl
  step s h := by
    have hevents : (process c).events s h = (discover c s h).effects.events := rfl
    have hnext : (process c).next s h = (discover c s h).value.2 := rfl
    rw [hevents, hnext]
    cases hsurvey : (Inventory.survey h []).value with
    | ok inv =>
      obtain ⟨hreports, hmissing⟩ := discover_reports (c := c) (s := s) hsurvey
      refine ⟨lacking c h inv.devices, fun k => mem_lacking_iff hsurvey, ?_, hmissing⟩
      rw [hreports, noticed_append, Inventory.noticed_surveyEvents, List.nil_append]
      exact noticed_map (f := .deviceIdNotFound) (fun _ => rfl) (fun _ => rfl) _
    | error e =>
      have hnone : ∀ k, ¬Misses c h k := by
        rintro k ⟨d, ⟨inv, hinv, -⟩, -⟩
        cases hsurvey.symm.trans hinv
      refine ⟨[], fun k => iff_of_false List.not_mem_nil (hnone k), ?_, ?_⟩
      · rw [discover_reports_of_survey_error hsurvey, Inventory.noticed_surveyEvents]
        rfl
      · rw [(discover_of_survey_error hsurvey).1]
        exact (List.append_nil _).symm

end Discovery

/-- What is told of the names over the runs of both controllers. -/
structure Notifications (c : VolumeSet.Config) (passes : List VolumeSet.Pass)
    (dc : Discovery.Config) (nodes : List Host) : Prop where
  /-- Each name is announced at most once, and that in the first pass that delays it. -/
  announced : (VolumeSet.process c).NoticesOnce "DiscoveredNewDevice"
    (fun s p => p.Delays c s) passes
  /-- Each name is reported as missing at most once, and that in the first discovery in which a
  vetted device of this name has no persistent link. -/
  missing : (Discovery.process dc).NoticesOnce "DeviceIdNotFound"
    (fun _ h => Discovery.Misses dc h) nodes
  /-- A name is not reported if what was vetted under it had a link each time, or could not be
  resolved. -/
  settled : ∀ k, (∀ h ∈ nodes, ∀ d, Discovery.Vets dc h d → d.kname = k →
      (∃ path, (Identity.resolve h.files dc.links none d).1 = .ok (.found path)) ∨
        ∃ e, (Identity.resolve h.files dc.links none d).1 = .error e) →
    k ∉ noticed "DeviceIdNotFound"
      ((Discovery.process dc).eventsFrom (Discovery.process dc).start nodes)

/-- Over every run of the passes on a volume set and every run of discoveries, whatever changes from
step to step, each kernel name is told of once. -/
theorem notifications_once (c : VolumeSet.Config) (passes : List VolumeSet.Pass)
    (dc : Discovery.Config) (nodes : List Host) : Notifications c passes dc nodes where
  announced := (VolumeSet.process_givesNotice c).noticesOnce passes
  missing := (Discovery.process_givesNotice dc).noticesOnce nodes
  settled k H hk := by
    have hmissing := (Discovery.process_givesNotice dc).noticesOnce nodes
    obtain ⟨before, h, later, rfl, d, hvets, hname, fallback, hnone⟩ :=
      (hmissing.noticed_iff k).mp hk
    have hh : h ∈ before ++ h :: later := List.mem_append_right _ (.head _)
    rcases H h hh d hvets hname with ⟨path, hfound⟩ | ⟨e, hfault⟩
    · cases hfound.symm.trans hnone
    · cases hfault.symm.trans hnone

end NodeDisks
