import NodeDisks.Claim
import NodeDisks.Proofs.Effects
import NodeDisks.Proofs.Path

/-!
## The search for links

The search for links to a device. It succeeds exactly when every claim directory can be listed and
every listed path can be compared with the device or is not there (`Scannable`), and it then finds
the listed paths that are the same file as the device, each once and in component order
(`ExactLinks`). A search that fails never looks like a busy device (`matchingLinks_of_not_scannable`),
so whoever reads its error cannot take it for one.
-/

namespace NodeDisks.Claim

/-- Path `p` is listed below one of the directories. -/
def ListedBelow (files : FileView) (dirs : List Path) (p : Path) : Prop :=
  ∃ dir ∈ dirs, ∃ ps, files.glob (belowPattern dir) = .ok ps ∧ p ∈ ps

/-- The comparison of `p` with `device` has an answer, or fails because something is not there. -/
def Comparable (files : FileView) (device p : Path) : Prop :=
  ∀ e, files.sameFile p device = .error e → e.kind = .notFound

/-- It can be told which links lead to `device`. -/
structure Scannable (files : FileView) (dirs : List Path) (device : Path) : Prop where
  listed : ∀ dir ∈ dirs, ∃ ps, files.glob (belowPattern dir) = .ok ps
  compared : ∀ p, ListedBelow files dirs p → Comparable files device p

/-- Path `p` is listed below one of the directories and is the same file as `device`. -/
def IsLink (files : FileView) (dirs : List Path) (device p : Path) : Prop :=
  ListedBelow files dirs p ∧ files.sameFile p device = .ok true

/-- The list holds the links to `device`, each once and in component order. -/
structure ExactLinks (files : FileView) (dirs : List Path) (device : Path)
    (links : List Path) : Prop where
  increasing : links.Pairwise fun a b => a.lt b = true
  isLink : ∀ p ∈ links, IsLink files dirs device p
  complete : ∀ p, IsLink files dirs device p → ∃ q ∈ links, q.same p = true

variable {files : FileView} {dirs : List Path} {dir device p : Path} {ps links : List Path}

theorem ExactLinks.eq_nil_iff (H : ExactLinks files dirs device links) :
    links = [] ↔ ∀ p, ¬IsLink files dirs device p := by
  constructor
  · rintro rfl p hp
    obtain ⟨q, hq, -⟩ := H.complete p hp
    cases hq
  · intro hnone
    exact List.eq_nil_iff_forall_not_mem.mpr fun p hp => hnone p (H.isLink p hp)

theorem listedBelow_cons : ListedBelow files (dir :: dirs) p ↔
    (∃ ps, files.glob (belowPattern dir) = .ok ps ∧ p ∈ ps) ∨ ListedBelow files dirs p := by
  simp [ListedBelow]

theorem scannable_cons : Scannable files (dir :: dirs) device ↔
    (∃ ps, files.glob (belowPattern dir) = .ok ps ∧ ∀ p ∈ ps, Comparable files device p) ∧
      Scannable files dirs device := by
  constructor
  · intro H
    obtain ⟨ps, hps⟩ := H.listed dir (.head _)
    refine ⟨⟨ps, hps, fun p hp => H.compared p ?_⟩, ⟨?_, ?_⟩⟩
    · exact listedBelow_cons.mpr (.inl ⟨ps, hps, hp⟩)
    · exact fun d hd => H.listed d (.tail _ hd)
    · exact fun p hp => H.compared p (listedBelow_cons.mpr (.inr hp))
  · rintro ⟨⟨ps, hps, hcmp⟩, H⟩
    refine ⟨fun d hd => ?_, fun p hp => ?_⟩
    · rcases List.mem_cons.mp hd with rfl | hd
      · exact ⟨ps, hps⟩
      · exact H.listed d hd
    · rcases listedBelow_cons.mp hp with ⟨qs, hqs, hp⟩ | hp
      · cases hps.symm.trans hqs
        exact hcmp p hp
      · exact H.compared p hp

/-- A search that fails, by the first fault it meets. -/
theorem not_scannable_iff : ¬Scannable files dirs device ↔
    (∃ dir ∈ dirs, ∃ e, files.glob (belowPattern dir) = .error e) ∨
      ∃ p e, ListedBelow files dirs p ∧ files.sameFile p device = .error e ∧
        e.kind ≠ .notFound := by
  constructor
  · intro H
    by_cases hlisted : ∀ dir ∈ dirs, ∃ ps, files.glob (belowPattern dir) = .ok ps
    · right
      have hcmp : ¬∀ p, ListedBelow files dirs p → Comparable files device p :=
        fun hcmp => H ⟨hlisted, hcmp⟩
      simp only [Comparable, Classical.not_forall] at hcmp
      obtain ⟨p, hp, e, he, hkind⟩ := hcmp
      exact ⟨p, e, hp, he, hkind⟩
    · left
      simp only [Classical.not_forall] at hlisted
      obtain ⟨d, hd, hnone⟩ := hlisted
      cases hg : files.glob (belowPattern d) with
      | ok qs => exact absurd ⟨qs, hg⟩ hnone
      | error e => exact ⟨d, hd, e, hg⟩
  · rintro (⟨d, hd, e, he⟩ | ⟨p, e, hp, he, hkind⟩) H
    · obtain ⟨qs, hqs⟩ := H.listed d hd
      rw [he] at hqs
      cases hqs
    · exact hkind (H.compared p hp e he)

/-! ### The search, directory by directory -/

/-- An error of a search: it is none that an attempt on a busy device ends with. -/
def Fault (e : Error) : Prop := ∀ node, e ≠ .deviceBusy node

theorem fault_of_glob {pattern : String} {e : Error} (h : files.glob pattern = .error e) :
    Fault e := by
  obtain ⟨reason, rfl⟩ := files.glob_fault h
  simp [Fault]

/-- The two are known to be the same file. -/
def isSame (files : FileView) (device p : Path) : Bool :=
  match files.sameFile p device with
  | .ok same => same
  | .error _ => false

theorem isSame_iff : isSame files device p = true ↔ files.sameFile p device = .ok true := by
  unfold isSame
  cases files.sameFile p device <;> simp

theorem sameAs_of_comparable (hcmp : ∀ p ∈ ps, Comparable files device p) :
    sameAs files device ps = .ok (ps.filter (isSame files device)) := by
  induction ps with
  | nil => rfl
  | cons q ps ih =>
    have ih := ih fun p hp => hcmp p (.tail _ hp)
    rw [sameAs, List.filter_cons]
    cases hq : files.sameFile q device with
    | error e => simp [isSame, hq, hcmp q (.head _) e hq, ih]
    | ok same => cases same <;> simp [isSame, hq, ih, Except.map]

theorem sameAs_fault (hq : ∃ p ∈ ps, ¬Comparable files device p) :
    ∃ e, sameAs files device ps = .error e ∧ Fault e := by
  induction ps with
  | nil => simp at hq
  | cons q ps ih =>
    rw [sameAs]
    by_cases hcmp : Comparable files device q
    · have hps : ∃ p ∈ ps, ¬Comparable files device p := by simpa [hcmp] using hq
      obtain ⟨e, he, hfault⟩ := ih hps
      cases hs : files.sameFile q device with
      | error e' => exact ⟨e, by simp [hcmp e' hs, he], hfault⟩
      | ok same => exact ⟨e, by cases same <;> simp [he, Except.map], hfault⟩
    · simp only [Comparable, Classical.not_forall] at hcmp
      obtain ⟨e, he, hkind⟩ := hcmp
      exact ⟨.symlinkEval q.text e.text, by simp [he, hkind], by simp [Fault]⟩

theorem linksBelow_of_scannable (H : Scannable files dirs device) :
    ∃ links, linksBelow files device dirs = .ok links ∧
      ∀ p, p ∈ links ↔ IsLink files dirs device p := by
  induction dirs with
  | nil => exact ⟨[], rfl, by simp [IsLink, ListedBelow]⟩
  | cons dir dirs ih =>
    obtain ⟨⟨ps, hps, hcmp⟩, H⟩ := scannable_cons.mp H
    obtain ⟨links, hlinks, hmem⟩ := ih H
    refine ⟨ps.filter (isSame files device) ++ links, ?_, fun p => ?_⟩
    · simp only [linksBelow, hps, sameAs_of_comparable hcmp, hlinks]
      rfl
    · rw [List.mem_append, List.mem_filter, isSame_iff, hmem, IsLink, IsLink, listedBelow_cons,
        or_and_right, hps]
      simp

theorem linksBelow_of_not_scannable (H : ¬Scannable files dirs device) :
    ∃ e, linksBelow files device dirs = .error e ∧ Fault e := by
  induction dirs with
  | nil => exact absurd ⟨by simp, by simp [ListedBelow]⟩ H
  | cons dir dirs ih =>
    rw [linksBelow]
    cases hps : files.glob (belowPattern dir) with
    | error e => exact ⟨e, rfl, fault_of_glob hps⟩
    | ok ps =>
      by_cases hcmp : ∀ p ∈ ps, Comparable files device p
      · have hrest : ¬Scannable files dirs device := fun hrest =>
          H (scannable_cons.mpr ⟨⟨ps, hps, hcmp⟩, hrest⟩)
        obtain ⟨e, he, hfault⟩ := ih hrest
        exact ⟨e, by simp only [sameAs_of_comparable hcmp, he]; rfl, hfault⟩
      · obtain ⟨e, he, hfault⟩ := sameAs_fault (by simpa using hcmp)
        exact ⟨e, by simp only [he], hfault⟩

/-! ### The whole search -/

theorem matchingLinks_of_scannable (H : Scannable files dirs device) :
    ∃ links, matchingLinks files dirs device = .ok links ∧
      ExactLinks files dirs device links := by
  obtain ⟨found, hfound, hmem⟩ := linksBelow_of_scannable H
  refine ⟨Path.keepFirst (Path.sort found), by simp [matchingLinks, hfound, Except.map], ?_⟩
  refine ⟨Path.pairwise_keepFirst_sort found, fun p hp => ?_, fun p hp => ?_⟩
  · exact (hmem p).mp (Path.mem_sort.mp (Path.mem_of_mem_keepFirst hp))
  · exact Path.exists_same_mem_keepFirst (Path.mem_sort.mpr ((hmem p).mpr hp))

theorem matchingLinks_of_not_scannable (H : ¬Scannable files dirs device) :
    ∃ e, matchingLinks files dirs device = .error e ∧ Fault e := by
  obtain ⟨e, he, hfault⟩ := linksBelow_of_not_scannable H
  exact ⟨e, by simp [matchingLinks, he, Except.map], hfault⟩

end NodeDisks.Claim

/-!
## The decision

The decision on one device, read off the answer of the open and the state of the claim directories.

`acquire` decides nothing yet: it fails on a busy device without links, and `evaluate` turns exactly
that failure back into a decision. No other failure is taken for it, since a search for links fails
with a `Fault`.
-/

namespace NodeDisks.Claim

variable {x : Scene} {dirs : List Path} {device : String}

/-- The lock of a device is taken, or someone else has it: the open had an answer. -/
def Answered (x : Scene) (device : String) : Prop :=
  x.openExclusive ⟨device⟩ = .acquired ∨ x.openExclusive ⟨device⟩ = .busy

theorem not_answered_iff :
    ¬Answered x device ↔ ∃ e, x.openExclusive ⟨device⟩ = .failed e := by
  unfold Answered
  cases x.openExclusive ⟨device⟩ <;> simp

/-! ### The value of an attempt -/

theorem acquire_of_failed {e : IoError} (ho : x.openExclusive ⟨device⟩ = .failed e) :
    (acquire x dirs device).value = .error (.io e) := by
  simp [acquire, Lock.on, Lock.take, ho]

theorem acquire_of_fault {e : Error} (ho : Answered x device)
    (hm : matchingLinks x.files dirs ⟨device⟩ = .error e) :
    (acquire x dirs device).value = .error e := by
  rcases ho with ho | ho <;> simp [acquire, Lock.on, Lock.take, ho, hm]

theorem acquire_of_acquired {links : List Path} (ho : x.openExclusive ⟨device⟩ = .acquired)
    (hm : matchingLinks x.files dirs ⟨device⟩ = .ok links) :
    (acquire x dirs device).value = .ok ⟨⟨⟨device⟩, true⟩, links⟩ := by
  simp [acquire, Lock.on, Lock.take, ho, hm]

theorem acquire_of_busy {links : List Path} (ho : x.openExclusive ⟨device⟩ = .busy)
    (hm : matchingLinks x.files dirs ⟨device⟩ = .ok links) :
    (acquire x dirs device).value =
      if links = [] then .error (.deviceBusy device) else .ok ⟨⟨⟨device⟩, false⟩, links⟩ := by
  by_cases hl : links = [] <;> simp [acquire, Lock.on, Lock.take, ho, hm, hl]

/-! ### The decision, case by case -/

theorem evaluate_of_attempt {a : Attempt} (ha : (acquire x dirs device).value = .ok a) :
    (evaluate x dirs device).value = .ok a.decision := by
  simp [evaluate, ha]

theorem evaluate_of_fault {e : Error} (he : (acquire x dirs device).value = .error e)
    (hfault : Fault e) : (evaluate x dirs device).value = .error e := by
  simp only [evaluate, Traced.value_bind, he]
  split
  case h_1 => contradiction
  case h_2 _ node heq => exact absurd (Except.error.inj heq) (hfault node)
  case h_3 heq =>
    cases heq
    rfl

theorem evaluate_of_not_answered (ho : ¬Answered x device) :
    ∃ e, (evaluate x dirs device).value = .error e := by
  obtain ⟨e, he⟩ := not_answered_iff.mp ho
  exact ⟨.io e, evaluate_of_fault (acquire_of_failed he) (by simp [Fault])⟩

theorem evaluate_of_not_scannable (H : ¬Scannable x.files dirs ⟨device⟩) :
    ∃ e, (evaluate x dirs device).value = .error e := by
  by_cases ho : Answered x device
  · obtain ⟨e, he, hfault⟩ := matchingLinks_of_not_scannable H
    exact ⟨e, evaluate_of_fault (acquire_of_fault ho he) hfault⟩
  · exact evaluate_of_not_answered ho

/-- A link that is there decides, whether the open succeeded or the device is busy. -/
theorem evaluate_of_link (ho : Answered x device) (H : Scannable x.files dirs ⟨device⟩)
    (hlink : ∃ p, IsLink x.files dirs ⟨device⟩ p) :
    ∃ links, (evaluate x dirs device).value = .ok (.alreadyClaimed links) ∧
      ExactLinks x.files dirs ⟨device⟩ links := by
  obtain ⟨links, hlinks, hexact⟩ := matchingLinks_of_scannable H
  have hne : links ≠ [] := by
    intro hnil
    obtain ⟨p, hp⟩ := hlink
    exact hexact.eq_nil_iff.mp hnil p hp
  refine ⟨links, ?_, hexact⟩
  rcases ho with ho | ho
  · rw [evaluate_of_attempt (acquire_of_acquired ho hlinks)]
    simp [Attempt.decision, hne]
  · have hacquire := acquire_of_busy ho hlinks
    rw [if_neg hne] at hacquire
    rw [evaluate_of_attempt hacquire]
    simp [Attempt.decision, hne]

theorem matchingLinks_of_no_link (H : Scannable x.files dirs ⟨device⟩)
    (hnone : ∀ p, ¬IsLink x.files dirs ⟨device⟩ p) :
    matchingLinks x.files dirs ⟨device⟩ = .ok [] := by
  obtain ⟨links, hlinks, hexact⟩ := matchingLinks_of_scannable H
  rw [hlinks, hexact.eq_nil_iff.mpr hnone]

theorem evaluate_of_free (ho : x.openExclusive ⟨device⟩ = .acquired)
    (H : Scannable x.files dirs ⟨device⟩) (hnone : ∀ p, ¬IsLink x.files dirs ⟨device⟩ p) :
    (evaluate x dirs device).value = .ok .claimable :=
  evaluate_of_attempt (acquire_of_acquired ho (matchingLinks_of_no_link H hnone))

theorem evaluate_of_busy (ho : x.openExclusive ⟨device⟩ = .busy)
    (H : Scannable x.files dirs ⟨device⟩) (hnone : ∀ p, ¬IsLink x.files dirs ⟨device⟩ p) :
    (evaluate x dirs device).value = .ok .inUse := by
  have hacquire := acquire_of_busy ho (matchingLinks_of_no_link H hnone)
  rw [if_pos rfl] at hacquire
  simp [evaluate, hacquire]

theorem answered_of_evaluate {decision : Decision}
    (hv : (evaluate x dirs device).value = .ok decision) : Answered x device := by
  apply Classical.byContradiction
  intro ho
  obtain ⟨e, he⟩ : ∃ e, (evaluate x dirs device).value = .error e := evaluate_of_not_answered ho
  cases he.symm.trans hv

theorem scannable_of_evaluate {decision : Decision}
    (hv : (evaluate x dirs device).value = .ok decision) : Scannable x.files dirs ⟨device⟩ := by
  apply Classical.byContradiction
  intro H
  obtain ⟨e, he⟩ := evaluate_of_not_scannable H
  cases he.symm.trans hv

theorem evaluate_claimable_iff : (evaluate x dirs device).value = .ok .claimable ↔
    x.openExclusive ⟨device⟩ = .acquired ∧ Scannable x.files dirs ⟨device⟩ ∧
      ∀ p, ¬IsLink x.files dirs ⟨device⟩ p := by
  refine ⟨fun hv => ?_, fun ⟨ho, H, hnone⟩ => evaluate_of_free ho H hnone⟩
  have ho := answered_of_evaluate hv
  have H := scannable_of_evaluate hv
  have hnone : ∀ p, ¬IsLink x.files dirs ⟨device⟩ p := fun p hp => by
    obtain ⟨links, hl, -⟩ := evaluate_of_link ho H ⟨p, hp⟩
    simp [hl] at hv
  rcases ho with ho | ho
  · exact ⟨ho, H, hnone⟩
  · simp [evaluate_of_busy ho H hnone] at hv

/-- The links that a decision names are all there are. -/
theorem exactLinks_of_evaluate {links : List Path}
    (hv : (evaluate x dirs device).value = .ok (.alreadyClaimed links)) :
    ExactLinks x.files dirs ⟨device⟩ links := by
  have ho := answered_of_evaluate hv
  have H := scannable_of_evaluate hv
  by_cases hlink : ∃ p, IsLink x.files dirs ⟨device⟩ p
  · obtain ⟨found, hfound, hexact⟩ := evaluate_of_link ho H hlink
    cases hfound.symm.trans hv
    exact hexact
  · have hnone : ∀ p, ¬IsLink x.files dirs ⟨device⟩ p := fun p hp => hlink ⟨p, hp⟩
    rcases ho with ho | ho
    · cases (evaluate_of_free ho H hnone).symm.trans hv
    · cases (evaluate_of_busy ho H hnone).symm.trans hv

/-- A device that could be opened is not in use. -/
theorem ne_inUse_of_evaluate {decision : Decision} (ho : x.openExclusive ⟨device⟩ = .acquired)
    (hv : (evaluate x dirs device).value = .ok decision) : decision ≠ .inUse := by
  have H := scannable_of_evaluate hv
  rintro rfl
  by_cases hlink : ∃ p, IsLink x.files dirs ⟨device⟩ p
  · obtain ⟨found, hfound, -⟩ := evaluate_of_link (.inl ho) H hlink
    cases hfound.symm.trans hv
  · have hnone : ∀ p, ¬IsLink x.files dirs ⟨device⟩ p := fun p hp => hlink ⟨p, hp⟩
    cases (evaluate_of_free ho H hnone).symm.trans hv

/-- What a decision, or the failure to make one, says about the device and the directories. -/
structure Decides (x : Scene) (dirs : List Path) (device : String)
    (result : Except Error Decision) : Prop where
  claimable : result = .ok .claimable ↔ x.openExclusive ⟨device⟩ = .acquired ∧
    Scannable x.files dirs ⟨device⟩ ∧ ∀ p, ¬IsLink x.files dirs ⟨device⟩ p
  alreadyClaimed : (∃ links, result = .ok (.alreadyClaimed links)) ↔ Answered x device ∧
    Scannable x.files dirs ⟨device⟩ ∧ ∃ p, IsLink x.files dirs ⟨device⟩ p
  exact : ∀ links, result = .ok (.alreadyClaimed links) → ExactLinks x.files dirs ⟨device⟩ links
  inUse : result = .ok .inUse ↔ x.openExclusive ⟨device⟩ = .busy ∧
    Scannable x.files dirs ⟨device⟩ ∧ ∀ p, ¬IsLink x.files dirs ⟨device⟩ p
  /-- The open fails, a directory cannot be listed, or a listed path cannot be compared although it
  is there. -/
  error : (∃ e, result = .error e) ↔ (∃ e, x.openExclusive ⟨device⟩ = .failed e) ∨
    (∃ dir ∈ dirs, ∃ e, x.files.glob (belowPattern dir) = .error e) ∨
    ∃ p e, ListedBelow x.files dirs p ∧ x.files.sameFile p ⟨device⟩ = .error e ∧
      e.kind ≠ .notFound

theorem evaluate_decides (x : Scene) (dirs : List Path) (device : String) :
    Decides x dirs device (evaluate x dirs device).value := by
  by_cases ho : Answered x device
  case neg =>
    obtain ⟨e, he⟩ : ∃ e, (evaluate x dirs device).value = .error e := evaluate_of_not_answered ho
    obtain ⟨io, hio⟩ := not_answered_iff.mp ho
    constructor <;> simp [he, ho, hio]
  by_cases H : Scannable x.files dirs ⟨device⟩
  case neg =>
    obtain ⟨e, he⟩ := evaluate_of_not_scannable H
    rw [he]
    refine ⟨by simp [H], by simp [H], by simp, by simp [H], ?_⟩
    exact ⟨fun _ => .inr (not_scannable_iff.mp H), fun _ => ⟨e, rfl⟩⟩
  have hfailed : ¬∃ e, x.openExclusive ⟨device⟩ = .failed e := fun he => not_answered_iff.mpr he ho
  have hno := not_or.mpr ⟨hfailed, fun hfault => not_scannable_iff.mpr hfault H⟩
  by_cases hlink : ∃ p, IsLink x.files dirs ⟨device⟩ p
  case pos =>
    obtain ⟨links, hl, hexact⟩ := evaluate_of_link ho H hlink
    have hsome : ¬∀ p, ¬IsLink x.files dirs ⟨device⟩ p := by simpa using hlink
    rw [hl]
    refine ⟨by simp [hsome], ⟨fun _ => ⟨ho, H, hlink⟩, fun _ => ⟨links, rfl⟩⟩, ?_,
      by simp [hsome], ⟨by simp, fun hbad => absurd hbad hno⟩⟩
    rintro _ ⟨⟩
    exact hexact
  have hnone : ∀ p, ¬IsLink x.files dirs ⟨device⟩ p := fun p hp => hlink ⟨p, hp⟩
  rcases ho with ho | ho
  · rw [evaluate_of_free ho H hnone]
    refine ⟨?_, by simp [hlink], by simp, by simp [ho], ⟨by simp, fun hbad => absurd hbad hno⟩⟩
    exact ⟨fun _ => ⟨ho, H, hnone⟩, fun _ => rfl⟩
  · rw [evaluate_of_busy ho H hnone]
    refine ⟨by simp [ho], by simp [hlink], by simp, ?_, ⟨by simp, fun hbad => absurd hbad hno⟩⟩
    exact ⟨fun _ => ⟨ho, H, hnone⟩, fun _ => rfl⟩

end NodeDisks.Claim
