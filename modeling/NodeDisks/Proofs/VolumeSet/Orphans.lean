import NodeDisks.Proofs.Claim.Orphans
import NodeDisks.Proofs.VolumeSet.Claims

/-!
Claimed links and orphans of one pass. Both scans start from the valid devices: a link that makes a
device claimed is the same file as its node, and an orphan matches no valid device. A path can be both
only where the node of the device has a second name, to which the path leads
(`reconcile_claimed_orphan_secondName`). In memory, and in trees without second names, no path is both.
-/

namespace NodeDisks.VolumeSet

variable {c : Config} {spec : VolumeSetSpec} {labels : NodeLabels} {s : State} {h : Host}
  {files : FileView} {resolve : Path → Except IoError Path} {isLink : Path → Bool} {dir p q : Path}
  {d : Device} {o : Outcome} {ds : List Device} {x : Candidate} {links : List Path}

/-- An orphan is listed and matches none of the valid devices. -/
theorem listed_of_mem_orphans (hq : q ∈ orphans c files ds) :
    files.Listed q ∧ ∀ d ∈ ds, files.NoMatch d.kname q := by
  unfold orphans at hq
  split at hq
  · cases hq
  case h_2 dir hdir =>
    split at hq
    case h_1 found hfound =>
      obtain ⟨hlisted, hnone⟩ := Claim.mem_orphans hfound hq
      exact ⟨hlisted, fun d hd => hnone d.kname (List.mem_map_of_mem hd)⟩
    case h_2 => cases hq

theorem noMatch_of_mem_orphaned (ho : (reconcile c spec labels s h).value.1 = .ok o)
    (hq : q ∈ o.orphaned) :
    h.later.files.Listed q ∧ ∀ d ∈ o.valid, h.later.files.NoMatch d.kname q := by
  rcases reconcile_ok_cases ho with rfl | ⟨inv, -, rfl⟩
  · cases hq
  · exact listed_of_mem_orphans hq

/-- The links of a candidate are the same file as its node, and it has the name of a valid device. -/
theorem isLink_of_mem_claims (ho : (reconcile c spec labels s h).value.1 = .ok o)
    (hx : x ∈ o.claims) (hclaimed : x.decision = .alreadyClaimed links) (hp : p ∈ links) :
    (∃ dir, Claim.IsLink h.later.files [dir] ⟨"/dev/" ++ x.device.kname⟩ p) ∧
      ∃ d ∈ o.valid, d.kname = x.device.kname := by
  rcases reconcile_ok_cases ho with rfl | ⟨inv, -, rfl⟩
  · cases hx
  cases hdir : c.claimDir with
  | none =>
    rw [settle_claims_of_no_claimDir hdir] at hx
    cases hx
  | some dir =>
    obtain ⟨d, hd, hx⟩ := mem_settle_claims hdir hx
    obtain ⟨hname, hv⟩ := candidate?_eq_some (eligible_of_mem_valid hd).named hx
    rw [hclaimed] at hv
    rw [hname]
    exact ⟨⟨dir, (Claim.exactLinks_of_evaluate hv).isLink p hp⟩, d, hd, rfl⟩

theorem secondName_of_mem_orphaned (ho : (reconcile c spec labels s h).value.1 = .ok o)
    (hfiles : h.later.files.Follows resolve isLink) (hnodes : ∀ d ∈ o.valid, PlainNode isLink d.kname)
    (hx : x ∈ o.claims) (hclaimed : x.decision = .alreadyClaimed links) (hp : p ∈ links)
    (hq : q ∈ o.orphaned) (hsame : p.same q = true) :
    h.later.files.SecondName resolve p ⟨"/dev/" ++ x.device.kname⟩ := by
  obtain ⟨⟨dir, hlink⟩, d, hd, hname⟩ := isLink_of_mem_claims ho hx hclaimed hp
  obtain ⟨hlisted, hnone⟩ := noMatch_of_mem_orphaned ho hq
  have hnode := hnodes d hd
  have hnone := hnone d hd
  rw [hname] at hnode hnone
  exact hlink.secondName hfiles hnode hlisted hsame hnone

/-- No link that makes a device claimed is an orphan where no file has a second name. -/
theorem claimed_not_orphaned_of_single (ho : (reconcile c spec labels s h).value.1 = .ok o)
    (hfiles : h.later.files.Follows resolve isLink) (hnodes : ∀ d ∈ o.valid, PlainNode isLink d.kname)
    (hsingle : ∀ a b, ¬h.later.files.SecondName resolve a b) (hx : x ∈ o.claims)
    (hclaimed : x.decision = .alreadyClaimed links) (hp : p ∈ links) (hq : q ∈ o.orphaned) :
    p.same q = false := by
  rw [← Bool.not_eq_true]
  exact fun hsame => hsingle _ _ (secondName_of_mem_orphaned ho hfiles hnodes hx hclaimed hp hq hsame)

/-- In memory no path is a claimed link and an orphan. -/
theorem claimed_not_orphaned_of_memory {m : MemoryFiles} (hm : h.later.files = m.view)
    (ho : (reconcile c spec labels s h).value.1 = .ok o)
    (hnodes : ∀ d ∈ o.valid, PlainNode m.links.contains d.kname) (hx : x ∈ o.claims)
    (hclaimed : x.decision = .alreadyClaimed links) (hp : p ∈ links) (hq : q ∈ o.orphaned) :
    p.same q = false :=
  claimed_not_orphaned_of_single ho (hm ▸ m.follows) hnodes
    (fun _ _ => hm ▸ MemoryFiles.not_secondName) hx hclaimed hp hq

/-- Nor is one in a tree of single names. -/
theorem claimed_not_orphaned_of_tree {t : FileTree} (ht : h.later.files = t.view)
    (hsingle : t.SingleNamed) (ho : (reconcile c spec labels s h).value.1 = .ok o)
    (hnodes : ∀ d ∈ o.valid, PlainNode t.isLink d.kname) (hx : x ∈ o.claims)
    (hclaimed : x.decision = .alreadyClaimed links) (hp : p ∈ links) (hq : q ∈ o.orphaned) :
    p.same q = false :=
  claimed_not_orphaned_of_single ho (ht ▸ t.follows) hnodes
    (fun _ _ => ht ▸ hsingle.not_secondName) hx hclaimed hp hq

/-- A tree in which the node of a disk has a second name, in the claim directory. -/
def twiceNamedTree : FileTree :=
  { nodes := [(0, .directory [("c", 1), ("dev", 2), ("m", 3)]), (1, .directory [("claim", 4)]),
      (2, .directory [("a", 4)]), (3, .file ""), (4, .file "")]
    next := 5
    workDir := ⟨"/"⟩ }

def twiceNamedHost : Host :=
  { (listingNode [listingRow "a" "disk" []]).host with
    toScene := twiceNamedTree.scene, later := twiceNamedTree.scene }

theorem exists_outcome_twiceNamed : ∃ o,
    (reconcile claimingConfig anySize [] .initial twiceNamedHost).value.1 = .ok o ∧
      (o.valid.map (·.kname), o.claims.map (·.decision), o.orphaned) =
        (["a"], [.alreadyClaimed [⟨"/c/claim"⟩]], [⟨"/c/claim"⟩]) :=
  exists_ok_of_map (by decide +kernel)

theorem plainNode_twiceNamed (ho : o.valid.map (·.kname) = ["a"]) :
    ∀ d ∈ o.valid, PlainNode twiceNamedTree.isLink d.kname := by
  intro d hd
  have hname : d.kname ∈ o.valid.map (·.kname) := List.mem_map_of_mem hd
  rw [ho] at hname
  rw [List.mem_singleton.mp hname]
  exact ⟨by decide, by decide, by decide +kernel⟩

/-- A path that is both a claimed link and an orphan leads to a second name of the device node, one
that is no valid device's. -/
theorem reconcile_claimed_orphan_secondName (ho : (reconcile c spec labels s h).value.1 = .ok o)
    (hfiles : h.later.files.Follows resolve isLink)
    (hnodes : ∀ d ∈ o.valid, PlainNode isLink d.kname) :
    ∀ x ∈ o.claims, ∀ links, x.decision = .alreadyClaimed links →
      ∀ p ∈ links, ∀ q ∈ o.orphaned, p.same q = true →
        h.later.files.SecondName resolve p ⟨"/dev/" ++ x.device.kname⟩ ∧
          ∀ d ∈ o.valid, ¬h.later.files.Leads d.kname q := by
  intro x hx links hclaimed p hp q hq hsame
  refine ⟨secondName_of_mem_orphaned ho hfiles hnodes hx hclaimed hp hq hsame, fun d hd => ?_⟩
  obtain ⟨-, hnone⟩ := noMatch_of_mem_orphaned ho hq
  exact (hnone d hd).1

theorem reconcile_claimed_orphan_secondName_twiceNamed : ∃ o,
    (reconcile claimingConfig anySize [] .initial twiceNamedHost).value.1 = .ok o ∧
      twiceNamedHost.later.files.Follows twiceNamedTree.evalLinks twiceNamedTree.isLink ∧
      (∀ d ∈ o.valid, PlainNode twiceNamedTree.isLink d.kname) ∧
      ∃ x ∈ o.claims, x.decision = .alreadyClaimed [⟨"/c/claim"⟩] ∧ ⟨"/c/claim"⟩ ∈ o.orphaned ∧
        twiceNamedTree.view.SecondName twiceNamedTree.evalLinks ⟨"/c/claim"⟩
          ⟨"/dev/" ++ x.device.kname⟩ := by
  obtain ⟨o, ho, hreport⟩ := exists_outcome_twiceNamed
  obtain ⟨hvalid, hreport⟩ := Prod.mk.inj hreport
  obtain ⟨hclaims, horphaned⟩ := Prod.mk.inj hreport
  obtain ⟨x, hx, hdecision⟩ : ∃ x ∈ o.claims, x.decision = .alreadyClaimed [⟨"/c/claim"⟩] := by
    have hmem : Claim.Decision.alreadyClaimed [⟨"/c/claim"⟩] ∈ o.claims.map (·.decision) := by
      rw [hclaims]
      exact .head _
    exact List.mem_map.mp hmem
  have horphan : ⟨"/c/claim"⟩ ∈ o.orphaned := by rw [horphaned]; exact .head _
  have hfiles := twiceNamedTree.follows
  have hnodes := plainNode_twiceNamed hvalid
  obtain ⟨hsecond, -⟩ := reconcile_claimed_orphan_secondName ho hfiles hnodes x hx _ hdecision _
    (.head _) _ horphan Path.same_refl
  exact ⟨o, ho, hfiles, hnodes, x, hx, hdecision, horphan, hsecond⟩

/-- It is not so that no path is both, even if no device node is a link. -/
theorem claimed_notAlwaysApart : ¬∀ (t : FileTree) (h : Host) (o : Outcome),
    h.files = t.view → h.Still →
    (reconcile claimingConfig anySize [] .initial h).value.1 = .ok o →
    (∀ d ∈ o.valid, PlainNode t.isLink d.kname) →
    ∀ x ∈ o.claims, ∀ links, x.decision = .alreadyClaimed links → ∀ p ∈ links, p ∉ o.orphaned := by
  intro hapart
  obtain ⟨o, ho, hreport⟩ := exists_outcome_twiceNamed
  obtain ⟨hvalid, hreport⟩ := Prod.mk.inj hreport
  obtain ⟨hclaims, horphaned⟩ := Prod.mk.inj hreport
  have hapart := hapart twiceNamedTree twiceNamedHost o rfl rfl ho (plainNode_twiceNamed hvalid)
  have hmem : Claim.Decision.alreadyClaimed [⟨"/c/claim"⟩] ∈ o.claims.map (·.decision) := by
    rw [hclaims]
    exact .head _
  obtain ⟨x, hx, hdecision⟩ := List.mem_map.mp hmem
  refine hapart x hx _ hdecision _ (.head _) ?_
  rw [horphaned]
  exact .head _

end NodeDisks.VolumeSet
