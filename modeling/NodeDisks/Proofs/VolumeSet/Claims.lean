import NodeDisks.Proofs.Claim.Decision
import NodeDisks.Proofs.Claim.Scan
import NodeDisks.Proofs.Identity.Outcome
import NodeDisks.Proofs.VolumeSet.Pass

/-!
## Claimable devices

Which devices a pass reports as claimable. Each valid device is judged on its own, and its lock is
given back before the next one is looked at, so nothing keeps a kernel device that is listed twice
from being reported twice. It is reported once exactly when at most one of its entries is `Ready`
(`settle_claims_once_iff`).
-/

namespace NodeDisks

/-- The device without its remembered path. -/
def Device.forgetLink (d : Device) : Device := { d with pathById := "" }

/-- The search for an identity touches nothing but the remembered path. -/
theorem Identity.resolve_forgetLink (files : FileView) (dirs : LinkDirs) (existing : Option String)
    (d : Device) : (resolve files dirs existing d).2.forgetLink = d.forgetLink := by
  unfold resolve
  split
  · rfl
  · dsimp only
    split <;> rfl

theorem Identity.resolve_kname (files : FileView) (dirs : LinkDirs) (existing : Option String)
    (d : Device) : (resolve files dirs existing d).2.kname = d.kname := by
  have hkept := congrArg Device.kname (resolve_forgetLink files dirs existing d)
  exact hkept

namespace VolumeSet

/-- The nodes of the candidates that can be claimed, as often as they are reported. -/
def Outcome.claimableNodes (o : Outcome) : List String :=
  (o.claims.filter fun x => x.decision == .claimable).map fun x => "/dev/" ++ x.device.kname

/-- A listed device is valid, and the claim directory holds no link to it, beyond doubt. -/
structure Ready (c : Config) (spec : VolumeSetSpec) (s : State) (h : Host) (dir : Path)
    (d : Device) : Prop where
  eligible : Filter.Eligible h c.mountTable d
  old : s.firstSeen h.now d.kname + c.minAge ≤ h.now
  accepted : spec.inclusion.Accepts d
  /-- Nobody has taken the device since it was filtered. -/
  free : h.later.openExclusive ⟨"/dev/" ++ d.kname⟩ = .acquired
  scannable : Claim.Scannable h.later.files [dir] ⟨"/dev/" ++ d.kname⟩
  unlinked : ∀ p, ¬Claim.IsLink h.later.files [dir] ⟨"/dev/" ++ d.kname⟩ p

variable {c : Config} {spec : VolumeSetSpec} {labels : NodeLabels} {s : State} {h : Host}
  {later : Scene} {dir : Path} {d : Device} {o : Outcome} {ds : List Device} {x : Candidate}

/-! ### One candidate -/

theorem candidate?_eq_some_iff (hk : d.kname ≠ "") : (candidate? c later dir d).value = some x ↔
    ∃ decision, (Claim.evaluate later [dir] ("/dev/" ++ d.kname)).value = .ok decision ∧
      x = ⟨(Identity.resolve later.files c.links none d).2, Discovery.identity ("/dev/" ++ d.kname)
        (Identity.resolve later.files c.links none d).1, decision⟩ := by
  simp only [candidate?, Device.node?_of_named hk, Traced.value_bind]
  cases (Claim.evaluate later [dir] ("/dev/" ++ d.kname)).value <;> simp [eq_comm]

/-- The candidate of a named device has its name, and the decision about its node. -/
theorem candidate?_eq_some (hk : d.kname ≠ "") (hx : (candidate? c later dir d).value = some x) :
    x.device.kname = d.kname ∧
      (Claim.evaluate later [dir] ("/dev/" ++ d.kname)).value = .ok x.decision := by
  obtain ⟨decision, hv, rfl⟩ := (candidate?_eq_some_iff hk).mp hx
  exact ⟨Identity.resolve_kname .., hv⟩

/-- The candidate of a named device is that device but for what is remembered with it. -/
theorem candidate?_device (hk : d.kname ≠ "") (hx : (candidate? c later dir d).value = some x) :
    x.device.forgetLink = d.forgetLink ∧
      x.deviceId = Discovery.identity ("/dev/" ++ d.kname)
        (Identity.resolve later.files c.links none d).1 := by
  obtain ⟨decision, -, rfl⟩ := (candidate?_eq_some_iff hk).mp hx
  exact ⟨Identity.resolve_forgetLink .., rfl⟩

theorem exists_candidate? (hk : d.kname ≠ "") {decision : Claim.Decision}
    (hv : (Claim.evaluate later [dir] ("/dev/" ++ d.kname)).value = .ok decision) :
    ∃ x, (candidate? c later dir d).value = some x :=
  ⟨_, (candidate?_eq_some_iff hk).mpr ⟨decision, hv, rfl⟩⟩

theorem exists_claimable_iff (hk : d.kname ≠ "") :
    (∃ x, (candidate? c later dir d).value = some x ∧ x.decision = .claimable) ↔
      (Claim.evaluate later [dir] ("/dev/" ++ d.kname)).value = .ok .claimable := by
  constructor
  · rintro ⟨x, hx, hdecision⟩
    rw [(candidate?_eq_some hk hx).2, hdecision]
  · intro hv
    obtain ⟨x, hx⟩ := exists_candidate? (c := c) hk hv
    have hsame := (candidate?_eq_some hk hx).2.symm.trans hv
    exact ⟨x, hx, Except.ok.inj hsame⟩

/-- The candidates of a pass with a claim directory are those of its valid devices. -/
theorem settle_claims_of_claimDir (hdir : c.claimDir = some dir) :
    (settle c spec s h ds).value.1.claims =
      (settle c spec s h ds).value.1.valid.filterMap fun d =>
        (candidate? c h.later dir d).value := by
  rw [settle_claims, candidates, hdir, Traced.value_filterMap]

/-! ### All candidates -/

/-- Entries of one name share their node, so the decision about one of them is that about all. -/
theorem claimableNodes_nodup_iff_valid (hdir : c.claimDir = some dir)
    (hnamed : ∀ d ∈ (settle c spec s h ds).value.1.valid, d.kname ≠ "") :
    (settle c spec s h ds).value.1.claimableNodes.Nodup ↔
      (settle c spec s h ds).value.1.valid.Pairwise fun a b => a.kname = b.kname →
        (Claim.evaluate h.later [dir] ("/dev/" ++ a.kname)).value ≠ .ok .claimable := by
  rw [Outcome.claimableNodes, settle_claims_of_claimDir hdir, List.nodup_iff_pairwise_ne,
    List.pairwise_map, List.pairwise_filter, List.pairwise_filterMap]
  constructor
  · refine fun H => H.imp_of_mem fun {a b} ha hb hab hname hv => ?_
    obtain ⟨x, hx, hxd⟩ := (exists_claimable_iff (c := c) (hnamed a ha)).mpr hv
    obtain ⟨y, hy, hyd⟩ := (exists_claimable_iff (c := c) (hnamed b hb)).mpr (hname ▸ hv)
    refine hab x hx y hy (by simp [hxd]) (by simp [hyd]) ?_
    rw [(candidate?_eq_some (hnamed a ha) hx).1, (candidate?_eq_some (hnamed b hb) hy).1, hname]
  · refine fun H => H.imp_of_mem fun {a b} ha hb hab x hx y hy hxd hyd hnode => ?_
    have hax := (candidate?_eq_some (hnamed a ha) hx).1
    have hby := (candidate?_eq_some (hnamed b hb) hy).1
    have hname : a.kname = b.kname := by
      rw [← hax, ← hby]
      simpa using hnode
    exact hab hname ((exists_claimable_iff (hnamed a ha)).mp ⟨x, hx, by simpa using hxd⟩)

theorem ready_iff : Ready c spec s h dir d ↔
    (Filter.Eligible h c.mountTable d ∧ s.firstSeen h.now d.kname + c.minAge ≤ h.now ∧
      spec.inclusion.Accepts d) ∧
      (Claim.evaluate h.later [dir] ("/dev/" ++ d.kname)).value = .ok .claimable := by
  rw [Claim.evaluate_claimable_iff]
  constructor
  · rintro ⟨heligible, hold, haccepts, hfree, hscan, hnone⟩
    exact ⟨⟨heligible, hold, haccepts⟩, hfree, hscan, hnone⟩
  · rintro ⟨⟨heligible, hold, haccepts⟩, hfree, hscan, hnone⟩
    exact ⟨heligible, hold, haccepts, hfree, hscan, hnone⟩

open Classical in
theorem settle_claims_once_iff (hdir : c.claimDir = some dir) :
    (settle c spec s h ds).value.1.claimableNodes.Nodup ↔
      ds.Pairwise fun a b => a.kname = b.kname →
        ¬(Ready c spec s h dir a ∧ Ready c spec s h dir b) := by
  have hnamed : ∀ d ∈ (settle c spec s h ds).value.1.valid, d.kname ≠ "" :=
    fun d hd => (eligible_of_mem_valid hd).named
  have hvalid : (settle c spec s h ds).value.1.valid = _ := sort_noted_valid
  -- Two entries of one name may differ in their columns, so being valid is asked of both.
  rw [claimableNodes_nodup_iff_valid hdir hnamed, hvalid, List.pairwise_filter]
  refine List.Pairwise.iff fun a b => ?_
  rw [decide_eq_true_eq, decide_eq_true_eq, ready_iff, ready_iff]
  constructor
  · rintro H hname ⟨⟨ha, hv⟩, hb, -⟩
    exact H ha hb hname hv
  · intro H ha hb hname hv
    exact H hname ⟨⟨ha, hv⟩, hb, hname ▸ hv⟩

/-- A listing without repeated names repeats no claim. -/
theorem settle_claims_once_of_distinct (hdir : c.claimDir = some dir)
    (hnames : (ds.map (·.kname)).Nodup) :
    (settle c spec s h ds).value.1.claimableNodes.Nodup := by
  rw [settle_claims_once_iff hdir]
  exact (List.pairwise_map.mp hnames).imp fun hne hname => absurd hname hne

/-! ### A device that is listed twice -/

/-- A multipath device that is listed on each of the two disks it consists of. -/
def sharedChild : MemoryNode :=
  let shared := listingRow "m" "mpath" []
  listingNode [listingRow "a" "disk" [("children", .array [shared])],
    listingRow "b" "disk" [("children", .array [shared])]]

def claimingConfig : Config := { minAge := 0, claimDir := some ⟨"/c"⟩, mountTable := ⟨"/m"⟩ }

theorem exists_outcome_sharedChild : ∃ o,
    (reconcile claimingConfig anySize [] .initial sharedChild.host).value.1 = .ok o ∧
      (o.skipped, o.claimableNodes) = (false, ["/dev/m", "/dev/m"]) :=
  exists_ok_of_map (by decide +kernel)

/-- A pass reports each kernel device as claimable at most once exactly when no two entries of one
kernel name are both ready. -/
theorem reconcile_claims_once_iff (hdir : c.claimDir = some dir)
    (ho : (reconcile c spec labels s h).value.1 = .ok o) (hskip : o.skipped = false) :
    ∃ inv, (Inventory.survey h []).value = .ok inv ∧
      (o.claimableNodes.Nodup ↔ inv.devices.Pairwise fun a b => a.kname = b.kname →
        ¬(Ready c spec s h dir a ∧ Ready c spec s h dir b)) := by
  rcases reconcile_ok_cases ho with rfl | ⟨inv, H, rfl⟩
  · cases hskip
  · exact ⟨inv, H.surveyed, settle_claims_once_iff hdir⟩

/-- Both entries of the shared device are ready. -/
theorem reconcile_claims_once_iff_sharedChild : ∃ o inv,
    (reconcile claimingConfig anySize [] .initial sharedChild.host).value.1 = .ok o ∧
      (Inventory.survey sharedChild.host []).value = .ok inv ∧ ¬o.claimableNodes.Nodup ∧
      ¬inv.devices.Pairwise fun a b => a.kname = b.kname →
        ¬(Ready claimingConfig anySize .initial sharedChild.host ⟨"/c"⟩ a ∧
          Ready claimingConfig anySize .initial sharedChild.host ⟨"/c"⟩ b) := by
  obtain ⟨o, ho, hreport⟩ := exists_outcome_sharedChild
  obtain ⟨hskip, hnodes⟩ := Prod.mk.inj hreport
  have hdir : claimingConfig.claimDir = some ⟨"/c"⟩ := rfl
  have htwice : ¬o.claimableNodes.Nodup := by rw [hnodes]; decide
  obtain ⟨inv, hinv, honce⟩ := reconcile_claims_once_iff hdir ho hskip
  exact ⟨o, inv, ho, hinv, htwice, fun hready => htwice (honce.mpr hready)⟩

/-- It is not so that a pass never reports a kernel device as claimable twice. -/
theorem claimableNodes_not_always_nodup : ¬∀ o,
    (reconcile claimingConfig anySize [] .initial sharedChild.host).value.1 = .ok o →
      o.claimableNodes.Nodup := by
  intro hall
  obtain ⟨o, ho, hreport⟩ := exists_outcome_sharedChild
  obtain ⟨-, hnodes⟩ := Prod.mk.inj hreport
  have hnodup := hall o ho
  rw [hnodes] at hnodup
  exact absurd hnodup (by decide)

end VolumeSet

end NodeDisks

/-!
## Candidates

The candidates of a pass. They are the valid devices whose claim can be decided, in their order, and
what is said about each of them holds for a device that is still free (`Candidate.Sound`). A valid
device was opened by the filters already, so on a node that stands still its claim is never refused
because it is in use.
-/

namespace NodeDisks.VolumeSet

/-- The claim of a device can be decided. -/
def decided (x : Scene) (dir : Path) (d : Device) : Bool :=
  (Claim.evaluate x [dir] ("/dev/" ++ d.kname)).value.isOk

/-- What a candidate says about its device is so, where nobody else holds the device. -/
structure Candidate.Sound (later : Scene) (dir : Path) (x : Candidate) : Prop where
  notInUse : x.decision = .claimable ∨ ∃ links, x.decision = .alreadyClaimed links
  claimable_iff : x.decision = .claimable ↔
    ∀ p, ¬Claim.IsLink later.files [dir] ⟨"/dev/" ++ x.device.kname⟩ p
  /-- In memory, with normal paths, the links are the stored paths below the directory. An entry that
  is stored at the root would be listed below it. -/
  claimable_iff_stored : ∀ m : MemoryFiles, later.files = m.view → m.Normal →
    Claim.SearchDir dir → (⟨"/"⟩ ∉ m.stored ∨ dir ≠ ⟨"/"⟩) →
    (x.decision = .claimable ↔ ∀ p ∈ m.stored, p.IsBelow dir →
      m.sameFile p ⟨"/dev/" ++ x.device.kname⟩ ≠ .ok true)

/-- The candidates are the valid devices with a decided claim, up to their remembered paths. -/
structure Outcome.ClaimsDecided (h : Host) (dir : Path) (o : Outcome) : Prop where
  order : o.claims.map (·.device.forgetLink) =
    (o.valid.filter (decided h.later dir)).map Device.forgetLink
  evaluated : ∀ x ∈ o.claims,
    (Claim.evaluate h.later [dir] ("/dev/" ++ x.device.kname)).value = .ok x.decision
  identified : ∀ x ∈ o.claims, x.deviceId = "/dev/" ++ x.device.kname ∨
    h.later.files.Leads x.device.kname ⟨x.deviceId⟩
  sound : h.Still → ∀ x ∈ o.claims, x.Sound h.later dir

variable {c : Config} {spec : VolumeSetSpec} {labels : NodeLabels} {s : State} {h : Host}
  {later : Scene} {dir : Path} {d : Device} {o : Outcome} {ds : List Device} {x : Candidate}

/-! ### One candidate -/

theorem decided_iff : decided later dir d = true ↔
    ∃ decision, (Claim.evaluate later [dir] ("/dev/" ++ d.kname)).value = .ok decision := by
  unfold decided
  cases (Claim.evaluate later [dir] ("/dev/" ++ d.kname)).value <;>
    simp [Except.isOk, Except.toBool]

theorem candidate?_eq_none (hk : d.kname ≠ "") (hd : decided later dir d = false) :
    (candidate? c later dir d).value = none := by
  rw [Option.eq_none_iff_forall_ne_some]
  intro x hx
  rw [decided_iff.mpr ⟨_, (candidate?_eq_some hk hx).2⟩] at hd
  cases hd

theorem identified_of_candidate? (hk : d.kname ≠ "")
    (hx : (candidate? c later dir d).value = some x) :
    x.deviceId = "/dev/" ++ x.device.kname ∨ later.files.Leads x.device.kname ⟨x.deviceId⟩ := by
  rw [(candidate?_eq_some hk hx).1, (candidate?_device hk hx).2]
  exact (Discovery.identity_cases later.files c.links d).symm.imp_right And.right

/-- The candidate of a device that can be opened is sound. -/
theorem sound_of_candidate? (hk : d.kname ≠ "")
    (hfree : later.openExclusive ⟨"/dev/" ++ d.kname⟩ = .acquired)
    (hx : (candidate? c later dir d).value = some x) : x.Sound later dir := by
  obtain ⟨hname, hv⟩ := candidate?_eq_some hk hx
  have hscan := Claim.scannable_of_evaluate hv
  have hlinks : x.decision = .claimable ↔
      ∀ p, ¬Claim.IsLink later.files [dir] ⟨"/dev/" ++ d.kname⟩ p := by
    have hok : x.decision = .claimable ↔
        (Claim.evaluate later [dir] ("/dev/" ++ d.kname)).value = .ok .claimable := by simp [hv]
    rw [hok, Claim.evaluate_claimable_iff]
    exact ⟨fun ⟨_, _, hnone⟩ => hnone, fun hnone => ⟨hfree, hscan, hnone⟩⟩
  constructor
  case notInUse =>
    cases hdecision : x.decision with
    | claimable => exact .inl rfl
    | alreadyClaimed links => exact .inr ⟨links, rfl⟩
    | inUse => exact absurd hdecision (Claim.ne_inUse_of_evaluate hfree hv)
  case claimable_iff => rwa [hname]
  case claimable_iff_stored =>
    intro m hm hnormal hdir hroot
    rw [hm] at hlinks hscan
    rw [hname, hlinks]
    refine forall_congr' fun p => ?_
    rw [Claim.isLink_iff_stored hnormal hdir hscan.listed hroot]
    simp

/-! ### All candidates -/

theorem filterMap_candidate?_forgetLink (hnamed : ∀ d ∈ ds, d.kname ≠ "") :
    (ds.filterMap fun d => (candidate? c later dir d).value).map (·.device.forgetLink) =
      (ds.filter (decided later dir)).map Device.forgetLink := by
  induction ds with
  | nil => rfl
  | cons d ds ih =>
    obtain ⟨hk, hnamed⟩ := List.forall_mem_cons.mp hnamed
    rw [List.filterMap_cons, List.filter_cons]
    cases hd : decided later dir d with
    | false =>
      rw [candidate?_eq_none hk hd]
      exact ih hnamed
    | true =>
      obtain ⟨decision, hv⟩ := decided_iff.mp hd
      obtain ⟨x, hx⟩ := exists_candidate? (c := c) hk hv
      rw [hx, if_pos rfl, List.map_cons, List.map_cons, ih hnamed, (candidate?_device hk hx).1]

theorem mem_settle_claims (hdir : c.claimDir = some dir)
    (hx : x ∈ (settle c spec s h ds).value.1.claims) :
    ∃ d ∈ (settle c spec s h ds).value.1.valid,
      (candidate? c h.later dir d).value = some x := by
  rw [settle_claims_of_claimDir hdir] at hx
  exact List.mem_filterMap.mp hx

theorem settle_claims_of_no_claimDir (hdir : c.claimDir = none) :
    (settle c spec s h ds).value.1.claims = [] := by
  rw [settle_claims, candidates, hdir]
  rfl

theorem settle_orphaned_of_no_claimDir (hdir : c.claimDir = none) :
    (settle c spec s h ds).value.1.orphaned = [] := by
  have hnone : orphans c h.later.files (settle c spec s h ds).value.1.valid = [] := by
    rw [orphans, hdir]
  exact hnone

theorem settle_claimsDecided (hdir : c.claimDir = some dir) :
    (settle c spec s h ds).value.1.ClaimsDecided h dir where
  order := by
    rw [settle_claims_of_claimDir hdir]
    exact filterMap_candidate?_forgetLink fun d hd => (eligible_of_mem_valid hd).named
  evaluated x hx := by
    obtain ⟨d, hd, hx⟩ := mem_settle_claims hdir hx
    obtain ⟨hname, hv⟩ := candidate?_eq_some (eligible_of_mem_valid hd).named hx
    rw [hname, hv]
  identified x hx := by
    obtain ⟨d, hd, hx⟩ := mem_settle_claims hdir hx
    exact identified_of_candidate? (eligible_of_mem_valid hd).named hx
  sound hstill x hx := by
    obtain ⟨d, hd, hx⟩ := mem_settle_claims hdir hx
    have heligible := eligible_of_mem_valid hd
    -- The test of the filters opened the device, and nothing has changed since.
    refine sound_of_candidate? heligible.named ?_ hx
    rw [hstill]
    exact heligible.free

/-- Three disks: one has a link in the claim directory, one has none, and what one leads to cannot be
told. -/
def claimedDisk : MemoryNode :=
  let node := listingNode [listingRow "a" "disk" [], listingRow "b" "disk" [],
    listingRow "c" "disk" []]
  { node with files :=
      { node.files.addLink ⟨"/c/x"⟩ ⟨"/dev/a"⟩ with sealedPaths := [⟨"/dev/c"⟩] } }

/-- With a claim directory a pass decides the claims of its valid devices; without one it neither
claims anything nor looks for orphans. -/
theorem reconcile_claims_decided (ho : (reconcile c spec labels s h).value.1 = .ok o) :
    (∀ dir, c.claimDir = some dir → o.ClaimsDecided h dir) ∧
      (c.claimDir = none → o.claims = [] ∧ o.orphaned = []) := by
  rcases reconcile_ok_cases ho with rfl | ⟨inv, -, rfl⟩
  · have hnone : ∀ p : Candidate → Prop, ∀ x ∈ (Outcome.skip c).claims, p x :=
      fun p => List.forall_mem_nil p
    exact ⟨fun dir _ => ⟨rfl, hnone _, hnone _, fun _ => hnone _⟩, fun _ => ⟨rfl, rfl⟩⟩
  · exact ⟨fun dir hdir => settle_claimsDecided hdir, fun hdir =>
      ⟨settle_claims_of_no_claimDir hdir, settle_orphaned_of_no_claimDir hdir⟩⟩

theorem reconcile_claims_decided_claimedDisk : ∃ o,
    (reconcile claimingConfig anySize [] .initial claimedDisk.host).value.1 = .ok o ∧
      o.ClaimsDecided claimedDisk.host ⟨"/c"⟩ ∧ claimedDisk.host.Still ∧
      claimedDisk.files.Normal ∧ Claim.SearchDir ⟨"/c"⟩ ∧
      o.valid.map (·.kname) = ["a", "b", "c"] ∧
      o.claims.map (fun x => (x.deviceId, x.decision)) =
        [("/dev/a", .alreadyClaimed [⟨"/c/x"⟩]), ("/dev/b", .claimable)] := by
  obtain ⟨o, ho, hreport⟩ := exists_ok_of_map
    (r := (reconcile claimingConfig anySize [] .initial claimedDisk.host).value.1)
    (f := fun o => (o.valid.map (·.kname), o.claims.map fun x => (x.deviceId, x.decision)))
    (b := (["a", "b", "c"],
      [("/dev/a", .alreadyClaimed [⟨"/c/x"⟩]), ("/dev/b", .claimable)])) (by decide +kernel)
  obtain ⟨hvalid, hclaims⟩ := Prod.mk.inj hreport
  have hnormal : claimedDisk.files.Normal := by decide +kernel
  have hdir : Claim.SearchDir ⟨"/c"⟩ := ⟨by decide, by decide, by decide⟩
  exact ⟨o, ho, (reconcile_claims_decided ho).1 ⟨"/c"⟩ rfl, rfl, hnormal, hdir, hvalid, hclaims⟩

end NodeDisks.VolumeSet
