import Mathlib.Data.List.Nodup
import NodeDisks.Proofs.Claim.Decision
import NodeDisks.Proofs.Claim.Scan
import NodeDisks.Proofs.Device
import NodeDisks.Proofs.Host.Resolution
import NodeDisks.Proofs.Identity.Resolution

/-!
## The search for orphans

The search for orphans. It keeps the entries of a directory that match none of the devices
(`mem_orphans`), in whatever order the devices come (`orphans_congr`). Claimed links are searched for
by comparing files, orphans by the names of the files that links lead to. The two agree about a device
whose node is no link, unless the node has a second name (`IsLink.secondName`).
-/

namespace NodeDisks

/-- The kernel name is a single component, and its device node is no link. -/
structure PlainNode (isLink : Path → Bool) (kname : String) : Prop extends Path.IsEntryName kname where
  notParent : kname ≠ ".."
  notLink : isLink ⟨"/dev/" ++ kname⟩ = false

namespace Claim

variable {files : FileView} {resolve : Path → Except IoError Path} {isLink : Path → Bool}
  {dirs ps qs : List Path} {dir p q : Path} {knames knames' : List String} {kname : String}

/-! ### The search -/

theorem leadsToAny_eq_ok_false_iff :
    leadsToAny files p knames = .ok false ↔ ∀ k ∈ knames, files.NoMatch k p := by
  induction knames with
  | nil => simp [leadsToAny]
  | cons k knames ih =>
    rw [List.forall_mem_cons, leadsToAny]
    rcases files.noMatch_or_decides k p with hnone | ⟨r, hdecides⟩
    · rw [FileView.leadsTo_of_noMatch hnone]
      simp only [ih, hnone, true_and]
    · have hsome : ¬files.NoMatch k p := hdecides.not_noMatch
      cases hdecides with
      | leads hleads => simp [FileView.leadsTo_of_leads hleads, hsome]
      | faulty hfaulty => simp [FileView.leadsTo_of_faulty hfaulty, hsome]

theorem mem_orphansAmong (H : orphansAmong files knames ps = .ok qs) :
    q ∈ qs ↔ q ∈ ps ∧ ∀ k ∈ knames, files.NoMatch k q := by
  induction ps generalizing qs with
  | nil =>
    cases H
    simp
  | cons p ps ih =>
    rw [orphansAmong] at H
    cases hany : leadsToAny files p knames with
    | error e => simp [hany] at H
    | ok leads =>
      rw [hany] at H
      have hp : leadsToAny files p knames = .ok false ↔ ∀ k ∈ knames, files.NoMatch k p :=
        leadsToAny_eq_ok_false_iff
      cases leads with
      | true =>
        have hsome : ¬∀ k ∈ knames, files.NoMatch k p := fun hnone => by
          simp [hp.mpr hnone] at hany
        rw [ih H, List.mem_cons, or_and_right]
        constructor
        · exact .inr
        · rintro (⟨rfl, hnone⟩ | hq)
          · exact absurd hnone hsome
          · exact hq
      | false =>
        cases hrest : orphansAmong files knames ps with
        | error e => simp [hrest, Except.map] at H
        | ok rest =>
          obtain rfl : p :: rest = qs := by simpa [hrest, Except.map] using H
          rw [List.mem_cons, ih hrest, List.mem_cons, or_and_right]
          refine or_congr_left (iff_self_and.mpr ?_)
          rintro rfl
          exact hp.mp hany

theorem mem_orphans (H : orphans files dir knames = .ok qs) (hq : q ∈ qs) :
    files.Listed q ∧ ∀ k ∈ knames, files.NoMatch k q := by
  unfold orphans at H
  split at H
  · cases H
  case h_2 ps hps =>
    obtain ⟨hlisted, hnone⟩ := (mem_orphansAmong H).mp hq
    exact ⟨⟨_, ps, hps, hlisted⟩, hnone⟩

/-! ### The names searched for

A fault of a path is one for every name, so the search depends on which names there are and not on
their order. -/

theorem leadsToAny_eq : leadsToAny files p knames =
    match files.evalLinks p with
    | .ok target => .ok (knames.any fun k => target.fileName? == some k)
    | .error e =>
      if e.kind = .notFound ∨ knames = [] then .ok false else .error (.symlinkEval p.text e.text) := by
  induction knames with
  | nil => cases h : files.evalLinks p <;> simp [leadsToAny]
  | cons k knames ih =>
    rw [leadsToAny, FileView.leadsTo, ih]
    cases h : files.evalLinks p with
    | ok target => cases hk : target.fileName? == some k <;> simp [hk]
    | error e => by_cases hkind : e.kind = .notFound <;> simp [hkind]

theorem leadsToAny_congr (H : ∀ k, k ∈ knames ↔ k ∈ knames') :
    leadsToAny files p knames = leadsToAny files p knames' := by
  have hany : ∀ f : String → Bool, knames.any f = knames'.any f := fun f => by
    rw [Bool.eq_iff_iff, List.any_eq_true, List.any_eq_true]
    exact exists_congr fun k => and_congr_left fun _ => H k
  have hnil : knames = [] ↔ knames' = [] := by
    simp only [List.eq_nil_iff_forall_not_mem, H]
  simp only [leadsToAny_eq, hany, hnil]

theorem orphansAmong_congr (H : ∀ k, k ∈ knames ↔ k ∈ knames') :
    orphansAmong files knames ps = orphansAmong files knames' ps := by
  induction ps with
  | nil => rfl
  | cons p ps ih => simp only [orphansAmong, leadsToAny_congr H, ih]

theorem orphans_congr (H : ∀ k, k ∈ knames ↔ k ∈ knames') :
    orphans files dir knames = orphans files dir knames' := by
  simp only [orphans, orphansAmong_congr H]

/-! ### Claimed links are no orphans -/

/-- A link to a plain node that does not match its name, in whatever spelling it is listed again,
leads to a second name of the node. -/
theorem IsLink.secondName (hfiles : files.Follows resolve isLink) (hnode : PlainNode isLink kname)
    (hp : IsLink files dirs ⟨"/dev/" ++ kname⟩ p) (hq : files.Listed q) (hsame : p.same q = true)
    (hnone : files.NoMatch kname q) : files.SecondName resolve p ⟨"/dev/" ++ kname⟩ := by
  obtain ⟨hleads, hfaulty⟩ := hnone
  obtain ⟨⟨target, htarget⟩, node, hresolved⟩ := hfiles.compared _ _ hp.2
  refine ⟨hp.2, target, node, htarget, hresolved, ?_⟩
  rw [← Bool.not_eq_true]
  intro htn
  -- If it led to the place of the node, it would lead to a file of its name, or be at fault.
  have hname := hfiles.kept kname node hnode.toIsEntryName hnode.notParent hnode.notLink hresolved
  have heval := hfiles.evaluated q hq
  rcases hfiles.respelled p q target hsame htarget with ⟨end_, hend, hend'⟩ | ⟨e, he, hkind⟩
  · refine hleads ⟨end_, heval.trans hend, ?_⟩
    rw [Path.fileName?_congr (Path.same_trans hend' htn), hname]
  · exact hfaulty e ⟨heval.trans he, hkind⟩

end Claim

end NodeDisks

/-!
## What is reported

What the search for orphans reports. It goes through everything that is listed in a directory and asks
where each entry leads, but not what the entry is. A file that is no link leads to itself, so it is
reported like a stale link unless a device has its name: what is reported are the stale links of the
directory only where every other entry is named after a device (`orphans_reported`).
-/

namespace NodeDisks

/-- What holds of the entries of a directory as they are listed: each is listed once, and one that is
no link has no other name to lead to. -/
structure FileView.ListsOnce (files : FileView) (isLink : Path → Bool) (ps : List Path) : Prop where
  once : ps.Nodup
  leads : ∀ p ∈ ps, isLink p = false → (∀ e, ¬files.Faulty p e) →
    ∃ target, files.evalLinks p = .ok target ∧ target.fileName? = p.fileName?

theorem FileView.ListsOnce.leads_iff {files : FileView} {isLink : Path → Bool} {ps : List Path}
    {p : Path} {k : String} (H : files.ListsOnce isLink ps) (hp : p ∈ ps) (hother : isLink p = false)
    (hfaults : ∀ e, ¬files.Faulty p e) : files.Leads k p ↔ p.fileName? = some k := by
  obtain ⟨target, htarget, hname⟩ := H.leads p hp hother hfaults
  simp [FileView.Leads, htarget, hname]

namespace Claim

/-- The list holds those of the candidates in `dir` that lead to none of the devices. -/
structure Reports (files : FileView) (dir : Path) (knames : List String)
    (candidates found : List Path) : Prop where
  order : found.Sublist candidates
  once : found.Nodup
  exact : ∀ p, p ∈ found ↔ p ∈ candidates ∧ ∀ k ∈ knames, ¬files.Leads k p
  direct : ∀ p ∈ found, ∃ name : String, '/' ∉ name.toList ∧ p.same (dir.join name) = true

variable {files : FileView} {isLink : Path → Bool} {dir p : Path} {ps qs found : List Path}
  {knames : List String} {k : String}

theorem not_faulty_of_leads (H : files.Leads k p) (e : IoError) : ¬files.Faulty p e := by
  obtain ⟨target, htarget, -⟩ := H
  rintro ⟨he, -⟩
  rw [htarget] at he
  cases he

/-! ### One entry after the other -/

/-- An entry can be placed unless evaluating it fails, and with no devices it is not evaluated. -/
theorem leadsToAny_ok_iff :
    (∃ b, leadsToAny files p knames = .ok b) ↔ knames = [] ∨ ∀ e, ¬files.Faulty p e := by
  rw [leadsToAny_eq]
  cases heval : files.evalLinks p with
  | ok target => simp [FileView.Faulty, heval]
  | error e =>
    by_cases hkind : e.kind = .notFound
    · simp [FileView.Faulty, heval, hkind]
    · by_cases hnil : knames = [] <;> simp [FileView.Faulty, heval, hkind, hnil]

theorem orphansAmong_ok_iff : (∃ qs, orphansAmong files knames ps = .ok qs) ↔
    knames = [] ∨ ∀ p ∈ ps, ∀ e, ¬files.Faulty p e := by
  induction ps with
  | nil => simp [orphansAmong]
  | cons p ps ih =>
    rw [List.forall_mem_cons, or_and_left, ← leadsToAny_ok_iff, ← ih, orphansAmong]
    cases hp : leadsToAny files p knames with
    | error e => simp
    | ok leads =>
      cases leads with
      | true => simp
      | false => cases orphansAmong files knames ps <;> simp [Except.map]

theorem sublist_of_orphansAmong (H : orphansAmong files knames ps = .ok qs) : qs.Sublist ps := by
  induction ps generalizing qs with
  | nil =>
    cases H
    exact .slnil
  | cons p ps ih =>
    rw [orphansAmong] at H
    cases hp : leadsToAny files p knames with
    | error e => simp [hp] at H
    | ok leads =>
      cases leads with
      | true => exact (ih (by simpa [hp] using H)).cons p
      | false =>
        cases hrest : orphansAmong files knames ps with
        | error e => simp [hp, hrest, Except.map] at H
        | ok rest =>
          obtain rfl : p :: rest = qs := by simpa [hp, hrest, Except.map] using H
          exact (ih hrest).cons_cons p

theorem mem_orphansAmong_iff (H : orphansAmong files knames ps = .ok qs) :
    p ∈ qs ↔ p ∈ ps ∧ ∀ k ∈ knames, ¬files.Leads k p := by
  rw [mem_orphansAmong H]
  refine and_congr_right fun hp => forall₂_congr fun k hk => and_iff_left ?_
  -- The search came to its end, so no entry was at fault when it was compared with a device.
  have hfaults := (orphansAmong_ok_iff.mp ⟨qs, H⟩).resolve_left (List.ne_nil_of_mem hk)
  exact hfaults p hp

/-! ### Links and other entries -/

/-- Where all of the candidates are reported, a report of the links alone leaves the others no choice
but to lead to a device. -/
theorem Reports.leads_of_links (H : Reports files dir knames ps found)
    (hexact : Reports files dir knames (ps.filter isLink) found) :
    ∀ p ∈ ps, isLink p = false → ∃ k ∈ knames, files.Leads k p := by
  intro p hp hother
  refine Classical.byContradiction fun hnone => ?_
  have hstale : ∀ k ∈ knames, ¬files.Leads k p := fun k hk hleads => hnone ⟨k, hk, hleads⟩
  have hfound := (H.exact p).mpr ⟨hp, hstale⟩
  have hlink := (List.mem_filter.mp ((hexact.exact p).mp hfound).1).2
  rw [hother] at hlink
  cases hlink

theorem Reports.links_of_leads (H : Reports files dir knames ps found)
    (hothers : ∀ p ∈ ps, isLink p = false → ∃ k ∈ knames, files.Leads k p) :
    Reports files dir knames (ps.filter isLink) found := by
  obtain ⟨horder, honce, hexact, hdirect⟩ := H
  have hlink : ∀ p ∈ found, isLink p = true := by
    intro p hp
    obtain ⟨hlisted, hstale⟩ := (hexact p).mp hp
    cases hother : isLink p with
    | true => rfl
    | false =>
      obtain ⟨k, hk, hleads⟩ := hothers p hlisted hother
      exact absurd hleads (hstale k hk)
  refine ⟨?_, honce, fun p => ?_, hdirect⟩
  · have hfilter := horder.filter isLink
    rwa [List.filter_eq_self.mpr hlink] at hfilter
  · rw [List.mem_filter, hexact, and_assoc]
    constructor
    · rintro ⟨hlisted, hstale⟩
      exact ⟨hlisted, hlink p ((hexact p).mpr ⟨hlisted, hstale⟩), hstale⟩
    · rintro ⟨hlisted, -, hstale⟩
      exact ⟨hlisted, hstale⟩

/-! ### The whole directory -/

section Directory

variable (hfiles : files.ListsEntries) (hdir : Glob.Literal dir.text.toList)
  (hps : Identity.entries files dir = .ok ps) (hlists : files.ListsOnce isLink ps)

include hps

theorem orphans_eq : orphans files dir knames = orphansAmong files knames ps := by
  rw [orphans, hps]

theorem exists_orphans (hfaults : ∀ p ∈ ps, ∀ e, ¬files.Faulty p e) :
    ∃ found, orphans files dir knames = .ok found := by
  rw [orphans_eq hps]
  exact orphansAmong_ok_iff.mpr (.inr hfaults)

include hfiles hdir hlists

theorem reports_of_orphans (H : orphans files dir knames = .ok found) :
    Reports files dir knames ps found := by
  rw [orphans_eq hps] at H
  have horder := sublist_of_orphansAmong H
  exact ⟨horder, hlists.once.sublist horder, fun p => mem_orphansAmong_iff H,
    fun p hp => hfiles dir ps hdir hps p (horder.subset hp)⟩

/-- If no entry is at fault, the entries that lead to none of the devices are reported, and one that is
no link is among them unless a device is called as it is. If no link is at fault, what is reported are
the links that lead to none of the devices exactly where every other entry leads to a device. -/
theorem orphans_reported (knames : List String)
    (hlinks : ∀ p ∈ ps, isLink p = true → ∀ e, ¬files.Faulty p e) :
    ((∀ p ∈ ps, ∀ e, ¬files.Faulty p e) → ∃ found, orphans files dir knames = .ok found ∧
      Reports files dir knames ps found ∧
      ∀ p ∈ ps, isLink p = false → (p ∈ found ↔ ∀ k ∈ knames, p.fileName? ≠ some k)) ∧
    ((∃ found, orphans files dir knames = .ok found ∧
      Reports files dir knames (ps.filter isLink) found) ↔
      ∀ p ∈ ps, isLink p = false → ∃ k ∈ knames, files.Leads k p) := by
  refine ⟨fun hfaults => ?_, ⟨?_, fun hothers => ?_⟩⟩
  · obtain ⟨found, hfound⟩ := exists_orphans hps hfaults
    have hreports := reports_of_orphans hfiles hdir hps hlists hfound
    refine ⟨found, hfound, hreports, fun p hp hother => ?_⟩
    rw [hreports.exact, and_iff_right hp]
    exact forall₂_congr fun k _ => not_congr (hlists.leads_iff hp hother (hfaults p hp))
  · rintro ⟨found, hfound, hexact⟩
    exact (reports_of_orphans hfiles hdir hps hlists hfound).leads_of_links hexact
  · have hfaults : ∀ p ∈ ps, ∀ e, ¬files.Faulty p e := by
      intro p hp
      cases hp' : isLink p with
      | true => exact hlinks p hp hp'
      | false =>
        obtain ⟨k, -, hleads⟩ := hothers p hp hp'
        exact not_faulty_of_leads hleads
    obtain ⟨found, hfound⟩ := exists_orphans hps hfaults
    exact ⟨found, hfound, (reports_of_orphans hfiles hdir hps hlists hfound).links_of_leads hothers⟩

end Directory

/-! ### Directories in memory -/

theorem listsOnce_of_memory {m : MemoryFiles} {pattern : String} (hps : m.glob pattern = .ok ps) :
    m.view.ListsOnce m.links.contains ps where
  once := by
    obtain ⟨-, g, -, rfl⟩ := MemoryFiles.glob_eq_ok_iff.mp hps
    exact (Path.pairwise_keepLast (Path.pairwise_sort _)).nodup
  leads := by
    intro p hp hother hfaults
    have hget : m.links.get? p = none := by
      simpa [PathTable.contains, PathTable.get?, List.find?_eq_none] using hother
    have heval : m.view.evalLinks p = m.resolve p := m.follows.evaluated p ⟨pattern, ps, hps, hp⟩
    refine ⟨p, ?_, rfl⟩
    cases hresolved : m.resolve p with
    | ok target => rw [heval, hresolved, MemoryFiles.eq_of_resolve hget hresolved]
    | error e =>
      have hsealed : e.kind ≠ .notFound := by
        rw [MemoryFiles.resolve, MemoryFiles.maxStops, MemoryFiles.follow, hget] at hresolved
        split at hresolved <;> cases hresolved
        exact IoKind.noConfusion
      exact absurd ⟨heval.trans hresolved, hsealed⟩ (hfaults e)

theorem SearchDir.entries_eq_glob {m : MemoryFiles} (H : SearchDir dir) (hroot : dir.text ≠ "/") :
    Identity.entries m.view dir = m.glob (dir.text ++ "/*") := by
  have hpattern : (dir.join "*").text = dir.text ++ "/*" := by
    obtain ⟨names, hne, hnames, rfl⟩ := H.normal.exists_spell H.absolute hroot
    obtain ⟨init, last, rfl⟩ := (List.eq_nil_or_concat names).resolve_left hne
    rw [List.concat_eq_append] at hnames ⊢
    rw [Path.join_spell init (hnames last (by simp)) (by decide), String.append_assoc]
    rfl
  exact congrArg m.glob hpattern

/-- A file beside a link to a device and one to a device that is gone: the second link is reported, and
the file is too. -/
theorem orphans_besideReadme :
    let m := ((MemoryFiles.empty.addFile ⟨"/c/README"⟩ "").addLink ⟨"/c/wwn-b"⟩ ⟨"/dev/sdb"⟩).addLink
      ⟨"/c/wwn-c"⟩ ⟨"/dev/sdc"⟩
    let ps : List Path := [⟨"/c/README"⟩, ⟨"/c/wwn-b"⟩, ⟨"/c/wwn-c"⟩]
    m.view.ListsEntries ∧ Glob.Literal "/c".toList ∧ Identity.entries m.view ⟨"/c"⟩ = .ok ps ∧
      m.view.ListsOnce m.links.contains ps ∧ (∀ p ∈ ps, ∀ e, ¬m.view.Faulty p e) ∧
      ∃ found, orphans m.view ⟨"/c"⟩ ["sdb"] = .ok found ∧
        ⟨"/c/README"⟩ ∈ found ∧ ⟨"/c/wwn-b"⟩ ∉ found ∧ ⟨"/c/wwn-c"⟩ ∈ found := by
  intro m ps
  have hdir : SearchDir ⟨"/c"⟩ := ⟨by decide, by decide, by decide⟩
  have hglob : m.glob ("/c" ++ "/*") = .ok ps :=
    MemoryFiles.glob_of_increasing hdir.literal List.not_mem_nil rfl (by decide)
  have hps : Identity.entries m.view ⟨"/c"⟩ = .ok ps := (hdir.entries_eq_glob (by decide)).trans hglob
  have hlists : m.view.ListsOnce m.links.contains ps := listsOnce_of_memory hglob
  have hfaults : ∀ p ∈ ps, ∀ e, ¬m.view.Faulty p e := by
    have heval : ∀ p ∈ ps, (m.evalLinks p).isOk = true := by decide
    rintro p hp e ⟨he, -⟩
    have hok := heval p hp
    rw [show m.evalLinks p = .error e from he] at hok
    cases hok
  obtain ⟨hreported, -⟩ := orphans_reported m.listsEntries hdir.literal hps hlists ["sdb"]
    fun p hp _ => hfaults p hp
  obtain ⟨found, hfound, hreports, hother⟩ := hreported hfaults
  refine ⟨m.listsEntries, hdir.literal, hps, hlists, hfaults, found, hfound, ?_, ?_, ?_⟩
  · exact (hother _ (by decide) rfl).mpr (by decide)
  · rw [hreports.exact]
    rintro ⟨-, hstale⟩
    exact hstale "sdb" (.head _) ⟨⟨"/dev/sdb"⟩, rfl, rfl⟩
  · refine (hreports.exact _).mpr ⟨by decide, fun k hk => ?_⟩
    obtain rfl := List.mem_singleton.mp hk
    rintro ⟨target, htarget, hname⟩
    cases htarget
    exact absurd hname (by decide)

/-- Not everything that is reported is a link. -/
theorem orphans_notOnlyLinks : ¬∀ (m : MemoryFiles) (dir : Path) (knames : List String) (ps : List Path),
    Glob.Literal dir.text.toList → Identity.entries m.view dir = .ok ps →
    (∀ p ∈ ps, ∀ e, ¬m.view.Faulty p e) → ∃ found, orphans m.view dir knames = .ok found ∧
      ∀ p ∈ found, m.links.contains p = true := by
  intro hlinks
  let m := MemoryFiles.empty.addFile ⟨"/c/README"⟩ ""
  have hdir : SearchDir ⟨"/c"⟩ := ⟨by decide, by decide, by decide⟩
  have hglob : m.glob ("/c" ++ "/*") = .ok [⟨"/c/README"⟩] :=
    MemoryFiles.glob_of_increasing hdir.literal List.not_mem_nil rfl (by decide)
  have hps : Identity.entries m.view ⟨"/c"⟩ = .ok [⟨"/c/README"⟩] :=
    (hdir.entries_eq_glob (by decide)).trans hglob
  obtain ⟨found, hfound, hlinks⟩ := hlinks m ⟨"/c"⟩ ["sdb"] _ hdir.literal hps <| by
    rintro p hp e ⟨he, -⟩
    obtain rfl := List.mem_singleton.mp hp
    cases he
  obtain rfl : [⟨"/c/README"⟩] = found := by
    rw [orphans_eq hps] at hfound
    cases hfound
    rfl
  exact absurd (hlinks _ (.head _)) (by decide)

end Claim

end NodeDisks
