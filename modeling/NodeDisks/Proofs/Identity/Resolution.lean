import NodeDisks.Host.Memory
import NodeDisks.Identity
import NodeDisks.Proofs.Device
import NodeDisks.Proofs.Effects
import NodeDisks.Proofs.Host.Listing
import NodeDisks.Proofs.Text

/-!
## Links

Where links lead. Evaluating a link that is there may fail (`Faulty`); otherwise it leads to a device
(`Leads`) or is no match for it (`NoMatch`). In a list of links the first that is not a mere non-match
settles the search, for better or worse (`firstLeadingTo_of_settles`).
-/

namespace NodeDisks.FileView

/-- Path `p` leads to a file named `kname`. -/
def Leads (files : FileView) (kname : String) (p : Path) : Prop :=
  ∃ target, files.evalLinks p = .ok target ∧ target.fileName? = some kname

/-- Path `p` is there and cannot be evaluated. -/
def Faulty (files : FileView) (p : Path) (e : IoError) : Prop :=
  files.evalLinks p = .error e ∧ e.kind ≠ .notFound

/-- Path `p` leads to something else, or nowhere. -/
def NoMatch (files : FileView) (kname : String) (p : Path) : Prop :=
  ¬files.Leads kname p ∧ ∀ e, ¬files.Faulty p e

/-- Path `p` leads to `kname`, or fails with the error of its evaluation. -/
inductive Decides (files : FileView) (kname : String) (p : Path) : Except Error Path → Prop where
  | leads : files.Leads kname p → Decides files kname p (.ok p)
  | faulty {e : IoError} : files.Faulty p e →
      Decides files kname p (.error (.symlinkEval p.text e.text))

/-- The first path that is not a mere non-match decides with result `r`. -/
def Settles (files : FileView) (kname : String) (ps : List Path) (r : Except Error Path) : Prop :=
  ∃ before p after, ps = before ++ p :: after ∧ (∀ q ∈ before, files.NoMatch kname q) ∧
    files.Decides kname p r

variable {files : FileView} {kname : String} {p : Path} {ps : List Path} {r : Except Error Path}

/-! ### One link -/

theorem leadsTo_of_leads (H : files.Leads kname p) : files.leadsTo p kname = .ok true := by
  obtain ⟨target, heval, hname⟩ := H
  simp [leadsTo, heval, hname]

theorem leadsTo_of_faulty {e : IoError} (H : files.Faulty p e) :
    files.leadsTo p kname = .error (.symlinkEval p.text e.text) := by
  obtain ⟨heval, hkind⟩ := H
  simp [leadsTo, heval, hkind]

theorem leadsTo_of_noMatch (H : files.NoMatch kname p) : files.leadsTo p kname = .ok false := by
  obtain ⟨hleads, hfaulty⟩ := H
  unfold leadsTo
  cases heval : files.evalLinks p with
  | ok target =>
    have hname : target.fileName? ≠ some kname := fun hname => hleads ⟨target, heval, hname⟩
    simp [hname]
  | error e =>
    have hkind : e.kind = .notFound := Classical.byContradiction fun hkind =>
      hfaulty e ⟨heval, hkind⟩
    simp [hkind]

theorem leads_of_leadsTo (H : files.leadsTo p kname = .ok true) : files.Leads kname p := by
  unfold leadsTo at H
  split at H
  case h_1 target heval => exact ⟨target, heval, by simpa using H⟩
  case h_2 => split at H <;> cases H

theorem Decides.not_noMatch (H : files.Decides kname p r) : ¬files.NoMatch kname p := by
  rintro ⟨hleads, hfaulty⟩
  cases H with
  | leads h => exact hleads h
  | faulty h => exact hfaulty _ h

/-- Every path is a non-match or decides. -/
theorem noMatch_or_decides (files : FileView) (kname : String) (p : Path) :
    files.NoMatch kname p ∨ ∃ r, files.Decides kname p r := by
  by_cases hleads : files.Leads kname p
  · exact .inr ⟨_, .leads hleads⟩
  by_cases hfaulty : ∃ e, files.Faulty p e
  · obtain ⟨e, he⟩ := hfaulty
    exact .inr ⟨_, .faulty he⟩
  · exact .inl ⟨hleads, fun e he => hfaulty ⟨e, he⟩⟩

/-! ### A list of links -/

theorem firstLeadingTo_of_settles (H : files.Settles kname ps r) :
    files.firstLeadingTo kname ps = r.map some := by
  obtain ⟨before, p, after, rfl, hbefore, hp⟩ := H
  induction before with
  | nil =>
    cases hp with
    | leads hleads => simp [firstLeadingTo, leadsTo_of_leads hleads, Except.map]
    | faulty hfaulty => simp [firstLeadingTo, leadsTo_of_faulty hfaulty, Except.map]
  | cons q before ih =>
    obtain ⟨hq, hbefore⟩ := List.forall_mem_cons.mp hbefore
    rw [List.cons_append, firstLeadingTo, leadsTo_of_noMatch hq]
    exact ih hbefore

theorem leads_of_firstLeadingTo (H : files.firstLeadingTo kname ps = .ok (some p)) :
    p ∈ ps ∧ files.Leads kname p := by
  induction ps with
  | nil => cases H
  | cons q ps ih =>
    rw [firstLeadingTo] at H
    split at H
    · cases H
    case h_2 hleads =>
      cases H
      exact ⟨.head _, leads_of_leadsTo hleads⟩
    · exact ⟨.tail _ (ih H).1, (ih H).2⟩

theorem firstLeadingTo_of_noMatch (H : ∀ p ∈ ps, files.NoMatch kname p) :
    files.firstLeadingTo kname ps = .ok none := by
  induction ps with
  | nil => rfl
  | cons p ps ih =>
    obtain ⟨hp, hps⟩ := List.forall_mem_cons.mp H
    rw [firstLeadingTo, leadsTo_of_noMatch hp]
    exact ih hps

/-- A search is settled by some path, or has none that matches. -/
theorem noMatch_or_settles (files : FileView) (kname : String) (ps : List Path) :
    (∀ p ∈ ps, files.NoMatch kname p) ∨ ∃ r, files.Settles kname ps r := by
  induction ps with
  | nil => exact .inl (by simp)
  | cons p ps ih =>
    rcases noMatch_or_decides files kname p with hp | ⟨r, hr⟩
    · rcases ih with hps | ⟨r, before, q, after, rfl, hbefore, hq⟩
      · exact .inl (List.forall_mem_cons.mpr ⟨hp, hps⟩)
      · refine .inr ⟨r, p :: before, q, after, rfl, ?_, hq⟩
        exact List.forall_mem_cons.mpr ⟨hp, hbefore⟩
    · exact .inr ⟨r, [], p, ps, rfl, by simp, hr⟩

end NodeDisks.FileView

/-!
## Preference

The order in which links are tried. Trying them group by group is trying them in the order of a stable
sort by group (`ranked_eq_mergeSort`): the concatenation of the groups of a sorted list is the list
itself, and a stable sort leaves every group as it was.
-/

namespace NodeDisks.Identity

/-- The group of a link by how its name begins; the smaller the better. -/
def preference (name : String) : Nat :=
  if "wwn".toList <+: name.toList then 0
  else if "scsi".toList <+: name.toList then 1
  else if "nvme".toList <+: name.toList then 2
  else 3

/-- The group of `a` is no worse than that of `b`. -/
def prefers (a b : Path) : Bool := preference a.baseName ≤ preference b.baseName

theorem rank_eq (l : Path) : rank l = preference l.baseName := by
  have hlast : Text.startsWith l.baseName "" = true := rfl
  simp only [rank, preferred, preference, List.findIdx_cons, hlast, ← Text.startsWith_iff]
  cases Text.startsWith l.baseName "wwn" with
  | true => rfl
  | false =>
    cases Text.startsWith l.baseName "scsi" with
    | true => rfl
    | false => cases Text.startsWith l.baseName "nvme" <;> rfl

theorem preference_lt (name : String) : preference name < 4 := by
  unfold preference
  repeat' split
  all_goals decide

theorem prefers_trans (a b c : Path) (hab : prefers a b = true) (hbc : prefers b c = true) :
    prefers a c = true := by
  simp only [prefers, decide_eq_true_eq] at hab hbc ⊢
  exact Nat.le_trans hab hbc

theorem prefers_total (a b : Path) : (prefers a b || prefers b a) = true := by
  simp only [prefers, Bool.or_eq_true, decide_eq_true_eq]
  exact Nat.le_total _ _

/-! ### Groups of a sorted list -/

section Groups

variable {α : Type} {f : α → Nat} {as : List α} {n : Nat}

/-- Of a sorted list up to `n`, what lies below `n` comes before what is equal to it. -/
theorem filter_lt_append_filter_eq (hsorted : as.Pairwise fun a b => f a ≤ f b)
    (hle : ∀ a ∈ as, f a ≤ n) :
    (as.filter fun a => f a < n) ++ (as.filter fun a => f a == n) = as := by
  induction as with
  | nil => rfl
  | cons a as ih =>
    obtain ⟨ha, hsorted⟩ := List.pairwise_cons.mp hsorted
    obtain ⟨hna, hle⟩ := List.forall_mem_cons.mp hle
    rcases Nat.lt_or_eq_of_le hna with hlt | rfl
    · have hne : (f a == n) = false := by simpa using Nat.ne_of_lt hlt
      simp only [List.filter_cons, hlt, decide_true, if_true, hne, Bool.false_eq_true, if_false,
        List.cons_append, ih hsorted hle]
    · have hnone : (as.filter fun b => f b < f a) = [] := by
        refine List.filter_eq_nil_iff.mpr fun b hb => ?_
        simpa using ha b hb
      have hall : (as.filter fun b => f b == f a) = as := by
        refine List.filter_eq_self.mpr fun b hb => ?_
        simpa using Nat.le_antisymm (hle b hb) (ha b hb)
      simp [hnone, hall]

/-- A sorted list is the concatenation of its groups. -/
theorem flatMap_groups (hsorted : as.Pairwise fun a b => f a ≤ f b) (hlt : ∀ a ∈ as, f a < n) :
    ((List.range n).flatMap fun r => as.filter fun a => f a == r) = as := by
  induction n generalizing as with
  | zero =>
    have hnil : as = [] := List.eq_nil_iff_forall_not_mem.mpr fun a ha => Nat.not_lt_zero _ (hlt a ha)
    simp [hnil]
  | succ n ih =>
    have hbelow : ((List.range n).flatMap fun r => as.filter fun a => f a == r) =
        as.filter fun a => f a < n := by
      rw [← ih (hsorted.filter fun a => f a < n) (by simp)]
      refine congrArg List.flatten (List.map_congr_left fun r hr => ?_)
      rw [List.filter_filter]
      refine List.filter_congr fun a _ => ?_
      rw [List.mem_range] at hr
      by_cases har : f a = r <;> simp [har, hr]
    rw [List.range_succ, List.flatMap_append, hbelow, List.flatMap_singleton]
    exact filter_lt_append_filter_eq hsorted fun a ha => Nat.le_of_lt_succ (hlt a ha)

end Groups

/-- A stable sort leaves every group as it was. -/
theorem filter_mergeSort (links : List Path) (r : Nat) :
    ((links.mergeSort prefers).filter fun l => preference l.baseName == r) =
      links.filter fun l => preference l.baseName == r := by
  refine (List.Sublist.eq_of_length ?_ ?_).symm
  · have hgroup : (links.filter fun l => preference l.baseName == r).Pairwise
        fun a b => prefers a b = true := by
      refine List.pairwise_of_forall_mem_list fun a ha b hb => ?_
      have ha := (List.mem_filter.mp ha).2
      have hb := (List.mem_filter.mp hb).2
      simp only [beq_iff_eq] at ha hb
      simp [prefers, ha, hb]
    have hsub := (List.sublist_mergeSort prefers_trans prefers_total hgroup
      List.filter_sublist).filter fun l => preference l.baseName == r
    simpa only [List.filter_filter, Bool.and_self] using hsub
  · exact ((List.mergeSort_perm links prefers).filter _).length_eq.symm

theorem ranked_eq_mergeSort (links : List Path) : ranked links = links.mergeSort prefers := by
  have hsorted : (links.mergeSort prefers).Pairwise
      fun a b => preference a.baseName ≤ preference b.baseName :=
    (List.pairwise_mergeSort prefers_trans prefers_total links).imp fun h => by
      simpa [prefers] using h
  rw [← flatMap_groups hsorted fun l _ => preference_lt l.baseName]
  have hlength : preferred.length = 4 := rfl
  simp only [ranked, hlength, filter_mergeSort, rank_eq]

end NodeDisks.Identity

/-!
## Resolution

Which identity a device gets. `Resolves` goes through the stages of the search: the link in use
elsewhere, the persistent links by preference, the links of the device mapper, the device node. Each
stage is left only when all its links are mere non-matches, so a fault met on the way is the result
and never hides behind a worse link.
-/

namespace NodeDisks.Identity

/-- The path remembered with the device is a persistent link that leads to it. -/
structure Usable (files : FileView) (dirs : LinkDirs) (d : Device) : Prop where
  remembered : d.pathById ≠ ""
  persistent : Path.isUnder ⟨d.pathById⟩ dirs.byId = true
  leads : files.Leads d.kname ⟨d.pathById⟩

/-- The result of a search that a path has settled. -/
def settled (r : Except Error Path) : Except Error Resolution := r.map fun l => .found l.text

/-- The links called `name`; in a directory there is at most one. -/
def called (name : String) (links : List Path) : List Path := links.filter fun l => l.baseName == name

/-- No link matches that is in use under the name `existing`. -/
def NoneInUse (files : FileView) (kname : String) (links : List Path) (existing : Option String) :
    Prop :=
  ∀ name, existing = some name → name ≠ "" → ∀ l ∈ called name links, files.NoMatch kname l

/-- The result for a device whose persistent links are `links` and whose links of the device mapper
are `mapped`. -/
structure Resolves (files : FileView) (links mapped : List Path) (existing : Option String)
    (d : Device) (result : Except Error Resolution) : Prop where
  inUse : ∀ name r, existing = some name → name ≠ "" →
    files.Settles d.kname (called name links) r → result = settled r
  byPreference : ∀ r, NoneInUse files d.kname links existing →
    files.Settles d.kname (links.mergeSort prefers) r → result = settled r
  byMapper : ∀ r, (∀ l ∈ links, files.NoMatch d.kname l) → d.type = "mpath" →
    files.Settles d.kname mapped r → result = settled r
  /-- The device node stands in only for a device to which nothing leads. -/
  byNode : ∀ fallback, result = .ok (.notFound fallback) ↔
    d.kname ≠ "" ∧ fallback = "/dev/" ++ d.kname ∧ (∀ l ∈ links, files.NoMatch d.kname l) ∧
      (d.type = "mpath" → ∀ l ∈ mapped, files.NoMatch d.kname l)
  unnamed : d.kname = "" → (∀ l ∈ links, files.NoMatch d.kname l) →
    (d.type = "mpath" → ∀ l ∈ mapped, files.NoMatch d.kname l) →
    result = .error (.emptyKernelName d.name)

variable {files : FileView} {dirs : LinkDirs} {existing : Option String} {d : Device}
  {links mapped : List Path} {name kname : String} {r : Except Error Path}

/-! ### The stages -/

theorem remembered_iff : remembered files dirs d = true ↔ Usable files dirs d := by
  unfold remembered
  constructor
  · intro H
    simp only [Bool.and_eq_true, Bool.not_eq_true', String.isEmpty_eq_false_iff] at H
    obtain ⟨⟨hpath, hunder⟩, hleads⟩ := H
    refine ⟨hpath, hunder, FileView.leads_of_leadsTo ?_⟩
    cases h : files.leadsTo ⟨d.pathById⟩ d.kname with
    | error e => simp [h] at hleads
    | ok b => simpa [h] using hleads
  · rintro ⟨hpath, hunder, hleads⟩
    simp [hpath, hunder, FileView.leadsTo_of_leads hleads]

theorem inUse_of_settles (hname : name ≠ "") (H : files.Settles kname (called name links) r) :
    inUse files links (some name) kname = r.map some := by
  simp only [inUse, String.isEmpty_iff, hname, if_false]
  exact FileView.firstLeadingTo_of_settles H

theorem inUse_of_noneInUse (H : NoneInUse files kname links existing) :
    inUse files links existing kname = .ok none := by
  cases existing with
  | none => rfl
  | some name =>
    by_cases hname : name = ""
    · simp [inUse, hname]
    · simp only [inUse, String.isEmpty_iff, hname, if_false]
      exact FileView.firstLeadingTo_of_noMatch (H name rfl hname)

theorem noneInUse_of_noMatch (H : ∀ l ∈ links, files.NoMatch kname l) :
    NoneInUse files kname links existing :=
  fun _ _ _ l hl => H l (List.mem_filter.mp hl).1

section ById

variable (hlinks : entries files dirs.byId = .ok links)

include hlinks

theorem byIdLink_of_inUse (hname : name ≠ "") (H : files.Settles d.kname (called name links) r) :
    byIdLink files dirs (some name) d = r.map some := by
  rw [byIdLink, hlinks]
  simp only [inUse_of_settles hname H]
  cases r <;> rfl

theorem byIdLink_of_preference (hnone : NoneInUse files d.kname links existing)
    (H : files.Settles d.kname (links.mergeSort prefers) r) :
    byIdLink files dirs existing d = r.map some := by
  rw [byIdLink, hlinks]
  simp only [inUse_of_noneInUse hnone, ranked_eq_mergeSort]
  exact FileView.firstLeadingTo_of_settles H

theorem byIdLink_of_noMatch (H : ∀ l ∈ links, files.NoMatch d.kname l) :
    byIdLink files dirs existing d = .ok none := by
  rw [byIdLink, hlinks]
  simp only [inUse_of_noneInUse (noneInUse_of_noMatch H), ranked_eq_mergeSort]
  exact FileView.firstLeadingTo_of_noMatch fun l hl => H l (List.mem_mergeSort.mp hl)

end ById

theorem isMultipath_iff : d.isMultipath = true ↔ d.type = "mpath" := by
  simp [Device.isMultipath]

theorem substitute_of_mapper (hmapped : entries files dirs.mapper = .ok mapped)
    (htype : d.type = "mpath") (H : files.Settles d.kname mapped r) :
    substitute files dirs d = settled r := by
  simp only [substitute, isMultipath_iff.mpr htype, if_true, mapperLink, hmapped,
    FileView.firstLeadingTo_of_settles H]
  cases r <;> rfl

theorem substitute_of_noMatch (hmapped : entries files dirs.mapper = .ok mapped)
    (H : d.type = "mpath" → ∀ l ∈ mapped, files.NoMatch d.kname l) :
    substitute files dirs d = d.node?.map .notFound := by
  by_cases htype : d.type = "mpath"
  · simp only [substitute, isMultipath_iff.mpr htype, if_true, mapperLink, hmapped,
      FileView.firstLeadingTo_of_noMatch (H htype)]
  · have hmultipath : d.isMultipath = false := by
      rwa [← Bool.not_eq_true, isMultipath_iff]
    simp [substitute, hmultipath]

/-! ### The whole search -/

theorem settled_ne_notFound {fallback : String} : settled r ≠ .ok (.notFound fallback) := by
  cases r <;> simp [settled, Except.map]

section Fresh

variable (hfresh : ¬Usable files dirs d)

include hfresh

theorem resolve_of_byIdLink (H : byIdLink files dirs existing d = r.map some) :
    (resolve files dirs existing d).1 = settled r := by
  rw [← remembered_iff, Bool.not_eq_true] at hfresh
  cases r <;> simp_all [resolve, settled, Except.map]

theorem resolve_of_substitute (H : byIdLink files dirs existing d = .ok none) :
    (resolve files dirs existing d).1 = substitute files dirs d := by
  rw [← remembered_iff, Bool.not_eq_true] at hfresh
  simp [resolve, hfresh, H]

/-- If some persistent link is not a mere non-match, such a link is the result, or its fault. -/
theorem resolve_eq_settled (hlinks : entries files dirs.byId = .ok links)
    (H : ¬∀ l ∈ links, files.NoMatch d.kname l) :
    ∃ r, (resolve files dirs existing d).1 = settled r := by
  by_cases hnone : NoneInUse files d.kname links existing
  · have hsorted : ¬∀ l ∈ links.mergeSort prefers, files.NoMatch d.kname l := fun hall =>
      H fun l hl => hall l (List.mem_mergeSort.mpr hl)
    obtain ⟨r, hr⟩ := (FileView.noMatch_or_settles files d.kname _).resolve_left hsorted
    exact ⟨r, resolve_of_byIdLink hfresh (byIdLink_of_preference hlinks hnone hr)⟩
  · simp only [NoneInUse, Classical.not_forall] at hnone
    obtain ⟨name, rfl, hname, l, hl, hmatch⟩ := hnone
    have hcalled : ¬∀ l ∈ called name links, files.NoMatch d.kname l := fun hall =>
      hmatch (hall l hl)
    obtain ⟨r, hr⟩ := (FileView.noMatch_or_settles files d.kname _).resolve_left hcalled
    exact ⟨r, resolve_of_byIdLink hfresh (byIdLink_of_inUse hlinks hname hr)⟩

theorem resolve_eq_substitute (hlinks : entries files dirs.byId = .ok links)
    (H : ∀ l ∈ links, files.NoMatch d.kname l) :
    (resolve files dirs existing d).1 = substitute files dirs d :=
  resolve_of_substitute hfresh (byIdLink_of_noMatch hlinks H)

theorem resolve_eq_notFound_iff (hlinks : entries files dirs.byId = .ok links)
    (hmapped : entries files dirs.mapper = .ok mapped) (fallback : String) :
    (resolve files dirs existing d).1 = .ok (.notFound fallback) ↔
      d.kname ≠ "" ∧ fallback = "/dev/" ++ d.kname ∧ (∀ l ∈ links, files.NoMatch d.kname l) ∧
        (d.type = "mpath" → ∀ l ∈ mapped, files.NoMatch d.kname l) := by
  by_cases hnone : ∀ l ∈ links, files.NoMatch d.kname l
  case neg =>
    obtain ⟨r, hr⟩ : ∃ r, (resolve files dirs existing d).1 = settled r :=
      resolve_eq_settled hfresh hlinks hnone
    simp [hr, settled_ne_notFound, hnone]
  rw [resolve_eq_substitute hfresh hlinks hnone]
  by_cases hmapper : d.type = "mpath" → ∀ l ∈ mapped, files.NoMatch d.kname l
  case neg =>
    obtain ⟨htype, hmatch⟩ := Classical.not_imp.mp hmapper
    obtain ⟨r, hr⟩ := (FileView.noMatch_or_settles files d.kname _).resolve_left hmatch
    simp [substitute_of_mapper hmapped htype hr, settled_ne_notFound, hmapper]
  rw [substitute_of_noMatch hmapped hmapper]
  by_cases hk : d.kname = ""
  · simp [Device.node?_of_unnamed hk, hk, Except.map]
  · rw [Device.node?_of_named hk]
    constructor
    · rintro ⟨⟩
      exact ⟨hk, rfl, hnone, hmapper⟩
    · rintro ⟨-, rfl, -⟩
      rfl

/-- A device without a usable remembered path gets the identity that its links decide on. -/
theorem resolve_resolves (hlinks : files.glob (dirs.byId.join "*").text = .ok links)
    (hmapped : files.glob (dirs.mapper.join "*").text = .ok mapped) :
    Resolves files links mapped existing d (resolve files dirs existing d).1 where
  inUse name r hexisting hname H := by
    subst hexisting
    exact resolve_of_byIdLink hfresh (byIdLink_of_inUse hlinks hname H)
  byPreference r hnone H := resolve_of_byIdLink hfresh (byIdLink_of_preference hlinks hnone H)
  byMapper r hnone htype H := by
    rw [resolve_eq_substitute hfresh hlinks hnone]
    exact substitute_of_mapper hmapped htype H
  byNode := resolve_eq_notFound_iff hfresh hlinks hmapped
  unnamed hk hnone hmapper := by
    rw [resolve_eq_substitute hfresh hlinks hnone, substitute_of_noMatch hmapped hmapper,
      Device.node?_of_unnamed hk]
    rfl

end Fresh

/-- Three persistent links, of which the one with the best name leads to another device. -/
def threeLinks : MemoryFiles :=
  ((MemoryFiles.empty.addLink ⟨"/i/nvme-b"⟩ ⟨"/d/b"⟩).addLink ⟨"/i/scsi-b"⟩ ⟨"/d/b"⟩).addLink
    ⟨"/i/wwn-a"⟩ ⟨"/d/a"⟩

theorem resolve_resolves_threeLinks :
    let dirs : LinkDirs := ⟨⟨"/i"⟩, ⟨"/p"⟩⟩
    let d : Device := { Device.blank with kname := "b" }
    let links : List Path := [⟨"/i/nvme-b"⟩, ⟨"/i/scsi-b"⟩, ⟨"/i/wwn-a"⟩]
    let result := (resolve threeLinks.view dirs (some "old") d).1
    ¬Usable threeLinks.view dirs d ∧
      threeLinks.view.glob (dirs.byId.join "*").text = .ok links ∧
      threeLinks.view.glob (dirs.mapper.join "*").text = .ok [] ∧
      Resolves threeLinks.view links [] (some "old") d result ∧
      result = .ok (.found "/i/scsi-b") := by
  intro dirs d links result
  have hfresh : ¬Usable threeLinks.view dirs d := fun H => H.remembered rfl
  have hlinks : threeLinks.view.glob (dirs.byId.join "*").text = .ok links := by
    rw [show (dirs.byId.join "*").text = "/i" ++ "/*" by decide +kernel]
    change threeLinks.glob ("/i" ++ "/*") = .ok links
    exact MemoryFiles.glob_of_increasing (by decide +kernel) (by decide +kernel)
      (by decide +kernel) (by decide +kernel)
  have hmapped : threeLinks.view.glob (dirs.mapper.join "*").text = .ok [] := by
    rw [show (dirs.mapper.join "*").text = "/p" ++ "/*" by decide +kernel]
    change threeLinks.glob ("/p" ++ "/*") = .ok []
    exact MemoryFiles.glob_of_increasing (by decide +kernel) (by decide +kernel)
      (by decide +kernel) .nil
  have H : Resolves threeLinks.view links [] (some "old") d result :=
    resolve_resolves hfresh hlinks hmapped
  have hnone : NoneInUse threeLinks.view "b" links (some "old") := by
    rintro name ⟨⟩ - l hl
    rw [show called "old" links = [] by decide +kernel] at hl
    cases hl
  have hsettles : threeLinks.view.Settles "b" (links.mergeSort prefers) (.ok ⟨"/i/scsi-b"⟩) := by
    have hranked : links.mergeSort prefers =
        [⟨"/i/wwn-a"⟩] ++ ⟨"/i/scsi-b"⟩ :: [⟨"/i/nvme-b"⟩] := by
      rw [← ranked_eq_mergeSort]
      decide +kernel
    obtain ⟨a, ha, hother⟩ : ∃ a, threeLinks.evalLinks ⟨"/i/wwn-a"⟩ = .ok a ∧
        a.fileName? = some "a" :=
      exists_ok_of_map (by decide +kernel)
    obtain ⟨b, hb, hleads⟩ : ∃ b, threeLinks.evalLinks ⟨"/i/scsi-b"⟩ = .ok b ∧
        b.fileName? = some "b" :=
      exists_ok_of_map (by decide +kernel)
    refine ⟨_, _, _, hranked, fun q hq => ?_, .leads ⟨b, hb, hleads⟩⟩
    obtain rfl : q = ⟨"/i/wwn-a"⟩ := List.mem_singleton.mp hq
    refine ⟨?_, ?_⟩
    · rintro ⟨target, htarget, hname⟩
      cases ha.symm.trans htarget
      exact absurd (hother.symm.trans hname) (by decide)
    · rintro e ⟨he, -⟩
      cases ha.symm.trans he
  exact ⟨hfresh, hlinks, hmapped, H, H.byPreference _ hnone hsettles⟩

end NodeDisks.Identity
