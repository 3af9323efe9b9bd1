import Mathlib.Data.List.Sort
import NodeDisks.Proofs.Claim.Decision
import NodeDisks.Proofs.Host.Resolution
import NodeDisks.Proofs.Path.Below

/-!
What the search for links finds in memory. Paths in normal form have one spelling each
(`IsNormal.eq_of_same`), so the links are the stored paths below the directories that resolve to where
the device does, and how the directories are ordered, repeated or nested does not show in the list
(`matchingLinks_found`).

The pattern for everything below the root also fits the root itself, so a link stored there is listed
without being below anything (`Reaches`).
-/

namespace NodeDisks

namespace Path

variable {ps qs : List Path}

/-- What is in one increasing list and in another one stands there in the same order. -/
theorem sublist_of_increasing (hps : ps.Pairwise fun a b => a.lt b = true)
    (hqs : qs.Pairwise fun a b => a.lt b = true) (hsub : ps ⊆ qs) : ps.Sublist qs :=
  List.sublist_of_subperm_of_pairwise (List.subperm_of_subset hps.nodup hsub) hps hqs

end Path

namespace Claim

/-- An absolute directory in normal form whose text stands for itself in patterns; the root is one. -/
structure SearchDir (dir : Path) : Prop where
  normal : dir.IsNormal
  absolute : Path.isAbsolute dir.text = true
  literal : Glob.Literal dir.text.toList

/-- The pattern of `dir` lists `p`, if it is stored. -/
def Reaches (dir p : Path) : Prop := p.IsBelow dir ∨ dir.text = "/" ∧ p.text = "/"

/-- Every directory of the one list is in the other or below one that is. -/
def Within (dirs dirs' : List Path) : Prop :=
  ∀ dir ∈ dirs, ∃ dir' ∈ dirs', dir = dir' ∨ dir.IsBelow dir'

instance (dirs dirs' : List Path) : Decidable (Within dirs dirs') := List.decidableBAll _ dirs

variable {m : MemoryFiles} {dirs dirs' : List Path} {dir device p : Path}
variable {ps links links' : List Path}

/-! ### What one directory lists -/

theorem SearchDir.belowPattern_eq (H : SearchDir dir) (hroot : dir.text ≠ "/") :
    belowPattern dir = dir.text ++ "/**/*" := by
  obtain ⟨names, hne, hnames, rfl⟩ := H.normal.exists_spell H.absolute hroot
  obtain ⟨init, last, rfl⟩ := (List.eq_nil_or_concat names).resolve_left hne
  rw [List.concat_eq_append] at hnames ⊢
  have hlast : Path.IsEntryName last := hnames last (by simp)
  have hstars : '/' ∉ "**".toList := by decide
  have htext := Path.join_spell init hlast hstars
  rw [← Path.spell_concat] at htext
  have hdeep : Path.join ⟨Path.spell (init ++ [last])⟩ "**" =
      ⟨Path.spell (init ++ [last] ++ ["**"])⟩ := congrArg Path.mk htext
  have hconcat : Path.spell (init ++ [last] ++ ["**"]) = Path.spell (init ++ [last]) ++ "/" ++ "**" :=
    Path.spell_concat
  rw [belowPattern, hdeep, Path.join_spell (init ++ [last]) (by decide) (by decide), hconcat]
  simp only [String.append_assoc]
  rfl

/-- The pattern of everything below a directory can be read, and says what is listed there. -/
theorem SearchDir.exists_pattern (H : SearchDir dir) :
    ∃ g, Glob.Pattern.compile (belowPattern dir) = .ok g ∧
      ∀ p : Path, p.IsNormal → (g.accepts p.text = true ↔ Reaches dir p) := by
  by_cases hroot : dir.text = "/"
  · -- The root adds no text of its own in front of the slash.
    obtain rfl : dir = ⟨"/"⟩ := congrArg Path.mk hroot
    have hpattern : belowPattern ⟨"/"⟩ = "" ++ "/**/*" := rfl
    have hempty : Glob.Literal "".toList := by simp [Glob.Literal]
    refine ⟨_, hpattern ▸ Glob.compile_below hempty, fun p hp => ?_⟩
    have haccepts : Glob.accepts _ p.text.toList = true ↔ ∃ rest, p.text = "" ++ "/" ++ rest :=
      Glob.accepts_below_iff
    rw [String.empty_append, ← Path.isAbsolute_iff_exists] at haccepts
    refine haccepts.trans ?_
    rw [Reaches, hp.isBelow_root_iff]
    by_cases hp' : p.text = "/"
    · simp [hp', Path.isAbsolute]
    · simp [hp']
  · refine ⟨_, H.belowPattern_eq hroot ▸ Glob.compile_below H.literal, fun p hp => ?_⟩
    refine Glob.accepts_below_iff.trans ?_
    rw [Reaches, hp.isBelow_iff H.normal H.absolute hroot]
    simp [hroot]

theorem Reaches.isAbsolute (hdir : SearchDir dir) (H : Reaches dir p) :
    Path.isAbsolute p.text = true := by
  rcases H with hbelow | ⟨-, hroot⟩
  · exact hbelow.isAbsolute hdir.absolute
  · rw [hroot]
    rfl

theorem mem_listed_iff (hm : m.Normal) (hdir : SearchDir dir)
    (hps : m.glob (belowPattern dir) = .ok ps) : p ∈ ps ↔ p ∈ m.stored ∧ Reaches dir p := by
  obtain ⟨g, hg, haccepts⟩ := hdir.exists_pattern
  constructor
  · intro hp
    obtain ⟨hstored, hp⟩ := MemoryFiles.mem_glob hg hps hp
    exact ⟨hstored, (haccepts p (hm p hstored)).mp hp⟩
  · rintro ⟨hstored, hreaches⟩
    have hp := (haccepts p (hm p hstored)).mpr hreaches
    obtain ⟨q, hq, hsame⟩ := MemoryFiles.exists_same_mem_glob hg hps hstored hp
    have hq' := (MemoryFiles.mem_glob hg hps hq).1
    rwa [(hm p hstored).eq_of_same (hm q hq') (hreaches.isAbsolute hdir) (Path.same_symm hsame)]

theorem SearchDir.exists_glob (hdir : SearchDir dir) (hlisted : belowPattern dir ∉ m.brokenGlobs) :
    ∃ ps, m.glob (belowPattern dir) = .ok ps := by
  obtain ⟨g, hg, -⟩ := hdir.exists_pattern
  exact ⟨_, MemoryFiles.glob_eq_ok_iff.mpr ⟨hlisted, g, hg, rfl⟩⟩

/-! ### What a search finds -/

section Search

variable (hm : m.Normal) (hdirs : ∀ dir ∈ dirs, SearchDir dir)

include hm hdirs

theorem listedBelow_iff (hlisted : ∀ dir ∈ dirs, ∃ ps, m.glob (belowPattern dir) = .ok ps) :
    ListedBelow m.view dirs p ↔ p ∈ m.stored ∧ ∃ dir ∈ dirs, Reaches dir p := by
  constructor
  · rintro ⟨dir, hdir, ps, hps, hp⟩
    obtain ⟨hstored, hreaches⟩ := (mem_listed_iff hm (hdirs dir hdir) hps).mp hp
    exact ⟨hstored, dir, hdir, hreaches⟩
  · rintro ⟨hstored, dir, hdir, hreaches⟩
    obtain ⟨ps, hps⟩ := hlisted dir hdir
    exact ⟨dir, hdir, ps, hps, (mem_listed_iff hm (hdirs dir hdir) hps).mpr ⟨hstored, hreaches⟩⟩

theorem mem_links_iff (H : Scannable m.view dirs device)
    (hlinks : ExactLinks m.view dirs device links) :
    p ∈ links ↔ p ∈ m.stored ∧ (∃ dir ∈ dirs, Reaches dir p) ∧ m.sameFile p device = .ok true := by
  have hisLink : ∀ q, IsLink m.view dirs device q ↔
      (q ∈ m.stored ∧ ∃ dir ∈ dirs, Reaches dir q) ∧ m.sameFile q device = .ok true :=
    fun q => and_congr_left' (listedBelow_iff hm hdirs H.listed)
  rw [← and_assoc, ← hisLink]
  constructor
  · exact hlinks.isLink p
  · intro hp
    obtain ⟨q, hq, hsame⟩ := hlinks.complete p hp
    obtain ⟨⟨hstored, dir, hdir, hreaches⟩, -⟩ := (hisLink p).mp hp
    obtain ⟨⟨hstored', -⟩, -⟩ := (hisLink q).mp (hlinks.isLink q hq)
    have habsolute := hreaches.isAbsolute (hdirs dir hdir)
    rwa [(hm p hstored).eq_of_same (hm q hstored') habsolute (Path.same_symm hsame)]

end Search

theorem exists_reaches_of_within (hdirs' : ∀ dir ∈ dirs', SearchDir dir) (H : Within dirs dirs')
    (hp : ∃ dir ∈ dirs, Reaches dir p) : ∃ dir ∈ dirs', Reaches dir p := by
  obtain ⟨dir, hdir, hreaches⟩ := hp
  obtain ⟨dir', hdir', rfl | hbelow⟩ := H dir hdir
  · exact ⟨dir, hdir', hreaches⟩
  · refine ⟨dir', hdir', .inl ?_⟩
    rcases hreaches with hp | ⟨hroot, -⟩
    · exact hp.trans hbelow
    · -- Nothing absolute is above the root.
      obtain ⟨more, hmore, hcomponents⟩ := hbelow
      have hdir' := Path.isAbsolute_iff.mp (hdirs' dir' hdir').absolute
      obtain ⟨rest, hrest⟩ := List.head?_eq_some_iff.mp hdir'
      obtain rfl : dir = ⟨"/"⟩ := congrArg Path.mk hroot
      rw [Path.components_root, hrest] at hcomponents
      simp [hmore] at hcomponents

/-- The list holds the links that the search for `device` below `dirs` has to find, and stands in the
right relation to what searches below other directories find. -/
structure Found (m : MemoryFiles) (dirs : List Path) (device : Path) (links : List Path) : Prop where
  increasing : links.Pairwise fun a b => a.lt b = true
  exact : ∀ p, p.text ≠ "/" ∨ ⟨"/"⟩ ∉ dirs →
    (p ∈ links ↔ p ∈ m.stored ∧ (∃ dir ∈ dirs, p.IsBelow dir) ∧
      ∃ q r, m.resolve p = .ok q ∧ m.resolve device = .ok r ∧ q.same r = true)
  /-- The same directories in another order, some more than once, with or without ones below them. -/
  regrouped : ∀ dirs', (∀ dir ∈ dirs', SearchDir dir) →
    (∀ dir ∈ dirs', belowPattern dir ∉ m.brokenGlobs) → Within dirs dirs' → Within dirs' dirs →
    matchingLinks m.view dirs' device = .ok links
  monotone : ∀ dirs' links', (∀ dir ∈ dirs', SearchDir dir) → Within dirs dirs' →
    matchingLinks m.view dirs' device = .ok links' → links.Sublist links'

theorem exactLinks_of_matchingLinks (h : matchingLinks m.view dirs device = .ok links) :
    Scannable m.view dirs device ∧ ExactLinks m.view dirs device links := by
  have H : Scannable m.view dirs device := by
    refine Classical.byContradiction fun H => ?_
    obtain ⟨e, he, -⟩ := matchingLinks_of_not_scannable H
    rw [h] at he
    cases he
  obtain ⟨links', hlinks', hexact⟩ := matchingLinks_of_scannable H
  cases h.symm.trans hlinks'
  exact ⟨H, hexact⟩

/-- Nothing is listed below the other directories that was not listed, and compared, before. -/
theorem scannable_of_within (hm : m.Normal) (hdirs : ∀ dir ∈ dirs, SearchDir dir)
    (hdirs' : ∀ dir ∈ dirs', SearchDir dir)
    (hlisted' : ∀ dir ∈ dirs', ∃ ps, m.glob (belowPattern dir) = .ok ps)
    (hwithin : Within dirs' dirs) (H : Scannable m.view dirs device) :
    Scannable m.view dirs' device := by
  refine ⟨hlisted', fun p hp => H.compared p ?_⟩
  obtain ⟨hstored, hreaches⟩ := (listedBelow_iff hm hdirs' hlisted').mp hp
  have hreaches := exists_reaches_of_within hdirs hwithin hreaches
  exact (listedBelow_iff hm hdirs H.listed).mpr ⟨hstored, hreaches⟩

theorem links_subset_of_within (hm : m.Normal) (hdirs : ∀ dir ∈ dirs, SearchDir dir)
    (hdirs' : ∀ dir ∈ dirs', SearchDir dir) (hwithin : Within dirs dirs')
    (h : matchingLinks m.view dirs device = .ok links)
    (h' : matchingLinks m.view dirs' device = .ok links') : links ⊆ links' := by
  obtain ⟨H, hlinks⟩ := exactLinks_of_matchingLinks h
  obtain ⟨H', hlinks'⟩ := exactLinks_of_matchingLinks h'
  intro p hp
  obtain ⟨hstored, hreaches, hsame⟩ := (mem_links_iff hm hdirs H hlinks).mp hp
  have hreaches' := exists_reaches_of_within hdirs' hwithin hreaches
  exact (mem_links_iff hm hdirs' H' hlinks').mpr ⟨hstored, hreaches', hsame⟩

theorem reaches_iff_isBelow (hp : p.text ≠ "/" ∨ ⟨"/"⟩ ∉ dirs) :
    (∃ dir ∈ dirs, Reaches dir p) ↔ ∃ dir ∈ dirs, p.IsBelow dir := by
  refine exists_congr fun dir => and_congr_right fun hdir => ?_
  refine or_iff_left ?_
  rintro ⟨hroot, hroot'⟩
  rcases hp with hp | hp
  · exact hp hroot'
  · exact hp (by rwa [show dir = ⟨"/"⟩ from congrArg Path.mk hroot] at hdir)

/-- The links below one directory are the stored paths below it, if none is stored at the root. -/
theorem isLink_iff_stored (hm : m.Normal) (hdir : SearchDir dir)
    (hlisted : ∀ d ∈ [dir], ∃ ps, m.glob (belowPattern d) = .ok ps)
    (hroot : ⟨"/"⟩ ∉ m.stored ∨ dir ≠ ⟨"/"⟩) :
    IsLink m.view [dir] device p ↔ p ∈ m.stored ∧ p.IsBelow dir ∧ m.sameFile p device = .ok true := by
  have hlists := listedBelow_iff (p := p) hm (List.forall_mem_singleton.mpr hdir) hlisted
  rw [IsLink, hlists, and_assoc]
  refine and_congr_right fun hp => and_congr_left' ?_
  have hp' : p.text ≠ "/" ∨ ⟨"/"⟩ ∉ [dir] := hroot.imp
    (fun hnone htext => hnone (by rwa [show p = ⟨"/"⟩ from congrArg Path.mk htext] at hp))
    fun hne hmem => hne (List.mem_singleton.mp hmem).symm
  rw [reaches_iff_isBelow hp']
  simp

/-- If the directories can be listed and what is listed can be compared with the device, the search
finds the stored paths below the directories that resolve to where the device does. -/
theorem matchingLinks_found (hm : m.Normal) (hdirs : ∀ dir ∈ dirs, SearchDir dir)
    (H : Scannable m.view dirs device) :
    ∃ links, matchingLinks m.view dirs device = .ok links ∧ Found m dirs device links := by
  obtain ⟨links, hlinks, hexact⟩ := matchingLinks_of_scannable H
  refine ⟨links, hlinks, hexact.increasing, ?_, ?_, ?_⟩
  · intro p hp
    rw [mem_links_iff hm hdirs H hexact, reaches_iff_isBelow hp,
      MemoryFiles.sameFile_eq_ok_true_iff]
  · intro dirs' hdirs' hbroken hwithin hwithin'
    have hlisted' : ∀ dir ∈ dirs', ∃ ps, m.glob (belowPattern dir) = .ok ps :=
      fun dir hdir => (hdirs' dir hdir).exists_glob (hbroken dir hdir)
    have H' := scannable_of_within hm hdirs hdirs' hlisted' hwithin' H
    obtain ⟨links', hlinks', hexact'⟩ := matchingLinks_of_scannable H'
    have hsub := links_subset_of_within hm hdirs hdirs' hwithin hlinks hlinks'
    have hsub' := links_subset_of_within hm hdirs' hdirs hwithin' hlinks' hlinks
    -- Both lists increase and hold the same paths.
    rw [hlinks', List.Subset.antisymm_of_pairwise hexact'.increasing hexact.increasing hsub' hsub]
  · intro dirs' links' hdirs' hwithin hlinks'
    obtain ⟨-, hexact'⟩ := exactLinks_of_matchingLinks hlinks'
    have hsub := links_subset_of_within hm hdirs hdirs' hwithin hlinks hlinks'
    exact Path.sublist_of_increasing hexact.increasing hexact'.increasing hsub

/-- Two links to one device, of which one is found from three directories, next to a link to another
device and to one in a directory whose name goes on where that of the claim directory ends. -/
theorem links_inNestedDirs :
    let m := (((MemoryFiles.empty.addLink ⟨"/c/a"⟩ ⟨"/dev/sdb"⟩).addLink ⟨"/c/n/b"⟩ ⟨"/dev/sdb"⟩).addLink
      ⟨"/c/x"⟩ ⟨"/dev/sdc"⟩).addLink ⟨"/cc/a"⟩ ⟨"/dev/sdb"⟩
    let dirs : List Path := [⟨"/c/n"⟩, ⟨"/c"⟩, ⟨"/c"⟩]
    m.Normal ∧ (∀ dir ∈ dirs, SearchDir dir) ∧ Scannable m.view dirs ⟨"/dev/sdb"⟩ ∧
      ∃ links, matchingLinks m.view dirs ⟨"/dev/sdb"⟩ = .ok links ∧
        matchingLinks m.view [⟨"/c"⟩] ⟨"/dev/sdb"⟩ = .ok links ∧
        ⟨"/c/a"⟩ ∈ links ∧ ⟨"/c/n/b"⟩ ∈ links ∧ ⟨"/c/x"⟩ ∉ links ∧ ⟨"/cc/a"⟩ ∉ links := by
  intro m dirs
  have hm : m.Normal := by decide
  have hdir : SearchDir ⟨"/c"⟩ := ⟨by decide, by decide, by decide⟩
  have hdirs : ∀ dir ∈ dirs, SearchDir dir := by
    have hnested : SearchDir ⟨"/c/n"⟩ := ⟨by decide, by decide, by decide⟩
    simp [dirs, hdir, hnested]
  have hlisted : ∀ dir ∈ dirs, ∃ ps, m.glob (belowPattern dir) = .ok ps :=
    fun dir hd => (hdirs dir hd).exists_glob List.not_mem_nil
  have H : Scannable m.view dirs ⟨"/dev/sdb"⟩ := by
    refine ⟨hlisted, fun p hp e he => ?_⟩
    have hstored := ((listedBelow_iff hm hdirs hlisted).mp hp).1
    have hcompared : ∀ q ∈ m.stored, (m.sameFile q ⟨"/dev/sdb"⟩).isOk = true := by decide
    have hok := hcompared p hstored
    rw [show m.sameFile p ⟨"/dev/sdb"⟩ = .error e from he] at hok
    cases hok
  obtain ⟨links, hlinks, hfound⟩ := matchingLinks_found hm hdirs H
  have hexact {p : Path} (hp : p.text ≠ "/") := hfound.exact p (.inl hp)
  have hsdb : m.resolve ⟨"/dev/sdb"⟩ = .ok ⟨"/dev/sdb"⟩ := rfl
  refine ⟨hm, hdirs, H, links, hlinks, ?_, ?_, ?_, ?_, ?_⟩
  · exact hfound.regrouped _ (by simpa using hdir) (by decide) (by decide) (by decide)
  · exact (hexact (by decide)).mpr ⟨by decide, by decide, _, _, rfl, hsdb, rfl⟩
  · exact (hexact (by decide)).mpr ⟨by decide, by decide, _, _, rfl, hsdb, rfl⟩
  · rw [hexact (by decide)]
    rintro ⟨-, -, q, r, hq, hr, hsame⟩
    cases hq
    cases hr
    exact absurd hsame (by decide)
  · rw [hexact (by decide)]
    rintro ⟨-, hbelow, -⟩
    exact absurd hbelow (by decide)

/-- What is found is not exactly the links below the directories, however well the comparisons go: a
directory that cannot be listed ends the search, and a link at the root is found below the root. -/
theorem links_notExactlyBelow :
    let Exact (m : MemoryFiles) (dirs : List Path) (device : Path) : Prop :=
      m.Normal → (∀ dir ∈ dirs, SearchDir dir) →
        (∀ p, ListedBelow m.view dirs p → ∃ same, m.sameFile p device = .ok same) →
        ∃ links, matchingLinks m.view dirs device = .ok links ∧ ∀ p, p ∈ links ↔
          p ∈ m.stored ∧ (∃ dir ∈ dirs, p.IsBelow dir) ∧ m.sameFile p device = .ok true
    ¬Exact { MemoryFiles.empty.addLink ⟨"/c/a"⟩ ⟨"/dev/sdb"⟩ with brokenGlobs := ["/c/**/*"] }
        [⟨"/c"⟩] ⟨"/dev/sdb"⟩ ∧
      ¬Exact (MemoryFiles.empty.addLink ⟨"/"⟩ ⟨"/dev/sdb"⟩) [⟨"/"⟩] ⟨"/dev/sdb"⟩ := by
  refine ⟨fun hExact => ?_, fun hExact => ?_⟩
  · have hdir : SearchDir ⟨"/c"⟩ := ⟨by decide, by decide, by decide⟩
    obtain ⟨links, hlinks, -⟩ := hExact (by decide) (by simpa using hdir) <| by
      rintro p ⟨dir, hdir, ps, hps, -⟩
      obtain rfl := List.mem_singleton.mp hdir
      cases hps
    cases hlinks
  · have hm : (MemoryFiles.empty.addLink ⟨"/"⟩ ⟨"/dev/sdb"⟩).Normal := by decide
    have hdirs : ∀ dir ∈ [(⟨"/"⟩ : Path)], SearchDir dir := by
      have hroot : SearchDir ⟨"/"⟩ := ⟨by decide, by decide, by decide⟩
      simpa using hroot
    have hlisted := fun dir hd => (hdirs dir hd).exists_glob
      (m := MemoryFiles.empty.addLink ⟨"/"⟩ ⟨"/dev/sdb"⟩) List.not_mem_nil
    obtain ⟨links, hlinks, hexact⟩ := hExact hm hdirs <| by
      intro p hp
      have hstored := ((listedBelow_iff hm hdirs hlisted).mp hp).1
      obtain rfl : p = ⟨"/"⟩ := List.mem_singleton.mp hstored
      exact ⟨true, rfl⟩
    obtain ⟨H, hfound⟩ := exactLinks_of_matchingLinks hlinks
    have hroot : (⟨"/"⟩ : Path) ∈ links :=
      (mem_links_iff hm hdirs H hfound).mpr ⟨by decide, ⟨⟨"/"⟩, by decide, .inr ⟨rfl, rfl⟩⟩, rfl⟩
    exact absurd ((hexact _).mp hroot).2.1 (by decide)

end Claim

end NodeDisks
