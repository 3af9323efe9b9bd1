import NodeDisks.Discovery
import NodeDisks.Proofs.Host.Listing
import NodeDisks.Proofs.Identity.Resolution

/-!
## Outcomes

How a search for an identity ends, with what the device remembers then: the persistent link that is
remembered or listed, a link of the device mapper, the device node, or a fault (`resolve_outcome`).
Only the persistent link is remembered.
-/

namespace NodeDisks.Identity

/-- The persistent link `path` leads to the device: the one remembered, or one that is listed when
that is of no use. -/
inductive IsById (files : FileView) (dirs : LinkDirs) (d : Device) (path : String) : Prop where
  | kept : Usable files dirs d → d.pathById = path → IsById files dirs d path
  | listed {links : List Path} : ¬Usable files dirs d → entries files dirs.byId = .ok links →
      ⟨path⟩ ∈ links → files.Leads d.kname ⟨path⟩ → IsById files dirs d path

/-- The link `path` of the device mapper leads to the device, and no persistent link does. -/
structure IsMapped (files : FileView) (dirs : LinkDirs) (d : Device) (path : String) : Prop where
  fresh : ¬Usable files dirs d
  byId : ∃ links, entries files dirs.byId = .ok links ∧ ∀ l ∈ links, ¬files.Leads d.kname l
  multipath : d.type = "mpath"
  mapper : ∃ links, entries files dirs.mapper = .ok links ∧ ⟨path⟩ ∈ links
  leads : files.Leads d.kname ⟨path⟩

/-- The ways in which a search ends, with what the device remembers then. -/
inductive Outcome (files : FileView) (dirs : LinkDirs) (d : Device) :
    Except Error Resolution → String → Prop where
  | byId {path : String} : IsById files dirs d path → Outcome files dirs d (.ok (.found path)) path
  | mapped {path : String} : IsMapped files dirs d path →
      Outcome files dirs d (.ok (.found path)) ""
  /-- The device node is made of a kernel name. -/
  | notFound : d.kname ≠ "" → Outcome files dirs d (.ok (.notFound ("/dev/" ++ d.kname))) ""
  | failed {e : Error} : Outcome files dirs d (.error e) ""

variable {files : FileView} {dirs : LinkDirs} {existing : Option String} {d : Device}
  {p : Path} {path : String}

/-! ### Persistent links and those of the device mapper -/

theorem IsById.leads (H : IsById files dirs d path) : files.Leads d.kname ⟨path⟩ := by
  cases H with
  | kept husable hpath => exact hpath ▸ husable.leads
  | listed _ _ _ hleads => exact hleads

theorem IsMapped.not_isById (H : IsMapped files dirs d path) {path' : String} :
    ¬IsById files dirs d path' := by
  intro hbyId
  cases hbyId with
  | kept husable => exact H.fresh husable
  | listed _ hlinks hmem hleads =>
    obtain ⟨links, hlinks', hnone⟩ := H.byId
    cases hlinks.symm.trans hlinks'
    exact hnone _ hmem hleads

/-! ### The stages of a search -/

theorem listed_of_byIdLink (H : byIdLink files dirs existing d = .ok (some p)) :
    ∃ links, entries files dirs.byId = .ok links ∧ p ∈ links ∧ files.Leads d.kname p := by
  unfold byIdLink at H
  split at H
  · cases H
  case h_2 links hlinks =>
    split at H
    · cases H
    case h_2 l hl =>
      cases H
      cases existing with
      | none => cases hl
      | some name =>
        rw [inUse] at hl
        split at hl
        · cases hl
        · obtain ⟨hmem, hleads⟩ := FileView.leads_of_firstLeadingTo hl
          exact ⟨links, hlinks, (List.mem_filter.mp hmem).1, hleads⟩
    · obtain ⟨hmem, hleads⟩ := FileView.leads_of_firstLeadingTo H
      rw [ranked_eq_mergeSort] at hmem
      exact ⟨links, hlinks, List.mem_mergeSort.mp hmem, hleads⟩

theorem listed_of_mapperLink (H : mapperLink files dirs d = .ok (some p)) :
    ∃ links, entries files dirs.mapper = .ok links ∧ p ∈ links ∧ files.Leads d.kname p := by
  unfold mapperLink at H
  split at H
  · cases H
  case h_2 links hlinks => exact ⟨links, hlinks, FileView.leads_of_firstLeadingTo H⟩

/-- A search among the persistent links ends without one only if none leads to the device. -/
theorem not_leads_of_byIdLink (H : byIdLink files dirs existing d = .ok none) :
    ∃ links, entries files dirs.byId = .ok links ∧ ∀ l ∈ links, ¬files.Leads d.kname l := by
  unfold byIdLink at H
  split at H
  · cases H
  case h_2 links hlinks =>
    split at H
    · cases H
    · cases H
    · refine ⟨links, hlinks, fun l hl => ?_⟩
      rw [ranked_eq_mergeSort] at H
      cases FileView.noMatch_or_settles files d.kname (links.mergeSort prefers) with
      | inl hnone => exact (hnone l (List.mem_mergeSort.mpr hl)).1
      | inr hsettles =>
        obtain ⟨r, hr⟩ := hsettles
        rw [FileView.firstLeadingTo_of_settles hr] at H
        cases r <;> cases H

theorem outcome_of_substitute (hfresh : ¬Usable files dirs d)
    (hbyId : byIdLink files dirs existing d = .ok none) :
    Outcome files dirs d (substitute files dirs d) "" := by
  unfold substitute
  dsimp only
  split
  · exact .failed
  case h_2 l hl =>
    split at hl
    case isFalse => cases hl
    case isTrue hmultipath =>
      obtain ⟨links, hlinks, hmem, hleads⟩ := listed_of_mapperLink hl
      exact .mapped ⟨hfresh, not_leads_of_byIdLink hbyId, isMultipath_iff.mp hmultipath,
        ⟨links, hlinks, hmem⟩, hleads⟩
  · by_cases hk : d.kname = ""
    · rw [Device.node?_of_unnamed hk]
      exact .failed
    · rw [Device.node?_of_named hk]
      exact .notFound hk

theorem resolve_of_usable (H : Usable files dirs d) :
    resolve files dirs existing d = (.ok (.found d.pathById), d) := by
  rw [resolve, if_pos (remembered_iff.mpr H)]

/-- A search does nothing to the device but to exchange what is remembered. -/
theorem resolve_outcome (files : FileView) (dirs : LinkDirs) (existing : Option String)
    (d : Device) :
    ∃ result path, resolve files dirs existing d = (result, { d with pathById := path }) ∧
      Outcome files dirs d result path := by
  by_cases husable : Usable files dirs d
  case pos =>
    refine ⟨.ok (.found d.pathById), d.pathById, ?_, .byId (.kept husable rfl)⟩
    rw [resolve_of_usable husable]
    cases d
    rfl
  rw [resolve, if_neg fun h => husable (remembered_iff.mp h)]
  cases hlink : byIdLink files dirs existing d with
  | error e => exact ⟨.error e, "", rfl, .failed⟩
  | ok l =>
    cases l with
    | some l =>
      obtain ⟨links, hlinks, hmem, hleads⟩ := listed_of_byIdLink hlink
      exact ⟨.ok (.found l.text), l.text, rfl, .byId (.listed husable hlinks hmem hleads)⟩
    | none => exact ⟨substitute files dirs d, "", rfl, outcome_of_substitute husable hlink⟩

/-- A device without a kernel name has no node to fall back on. -/
theorem named_of_notFound {fallback : String}
    (H : (resolve files dirs existing d).1 = .ok (.notFound fallback)) : d.kname ≠ "" := by
  obtain ⟨result, path, hresolve, houtcome⟩ := resolve_outcome files dirs existing d
  rw [hresolve] at H
  cases houtcome with
  | notFound hk => exact hk
  | byId | mapped | failed => cases H

end NodeDisks.Identity

/-!
## Different devices

Devices with different kernel names have different identities. An identity is the device node or a
link; a link leads to one device only (`FileView.Leads.unique`), and it lies in a directory of links,
where no device node is (`IsLink.ne_node`). So an identity that two devices share leads to both of
them, or is the node of both (`kname_eq_of_identity`).
-/

namespace NodeDisks

namespace FileView

variable {files : FileView} {kname kname' : String} {p : Path}

theorem Leads.unique (H : files.Leads kname p) (H' : files.Leads kname' p) : kname = kname' := by
  obtain ⟨target, heval, hname⟩ := H
  obtain ⟨target', heval', hname'⟩ := H'
  cases heval.symm.trans heval'
  exact Option.some.inj (hname.symm.trans hname')

end FileView

namespace Identity

variable {files : FileView} {dirs : LinkDirs} {existing : Option String} {d d' : Device}
  {links : List Path} {p : Path} {text : String}

/-- The path lies below the directory of persistent links or is listed in a directory of links. -/
inductive IsLink (files : FileView) (dirs : LinkDirs) (p : Path) : Prop where
  | under : p.isUnder dirs.byId = true → IsLink files dirs p
  | byId {links : List Path} : entries files dirs.byId = .ok links → p ∈ links → IsLink files dirs p
  | mapper {links : List Path} :
    entries files dirs.mapper = .ok links → p ∈ links → IsLink files dirs p

/-! ### What is found -/

theorem IsById.isLink (H : IsById files dirs d text) : IsLink files dirs ⟨text⟩ := by
  cases H with
  | kept husable hpath => exact .under (hpath ▸ husable.persistent)
  | listed _ hlinks hmem _ => exact .byId hlinks hmem

/-- What is found is a link that leads to the device; otherwise the device node stands in. -/
theorem leads_or_node_of_resolve {r : Resolution} (H : (resolve files dirs existing d).1 = .ok r) :
    IsLink files dirs ⟨r.path⟩ ∧ files.Leads d.kname ⟨r.path⟩ ∨ r.path = "/dev/" ++ d.kname := by
  obtain ⟨result, path, hresolve, houtcome⟩ := resolve_outcome files dirs existing d
  rw [hresolve] at H
  cases houtcome with
  | byId hbyId =>
    cases H
    exact .inl ⟨hbyId.isLink, hbyId.leads⟩
  | mapped hmapped =>
    cases H
    obtain ⟨links, hlinks, hmem⟩ := hmapped.mapper
    exact .inl ⟨.mapper hlinks hmem, hmapped.leads⟩
  | notFound =>
    cases H
    exact .inr rfl
  | failed => cases H

/-! ### Links and device nodes -/

/-- What is listed in a directory of links has more names than a device node. -/
theorem ne_node_of_listed {names : List String} {dir : Path} {kname : String}
    (hfiles : files.Orderly) (hnames : ∀ n ∈ names, Path.IsLiteralName n)
    (hdeep : 1 < names.length) (hdir : (dir.join "*").text = Path.spell names ++ "/*")
    (hlinks : entries files dir = .ok links) (hmem : ⟨text⟩ ∈ links) (hk : '/' ∉ kname.toList) :
    text ≠ "/dev/" ++ kname := by
  intro hnode
  have hne : names ≠ [] := List.ne_nil_of_length_pos (Nat.zero_lt_of_lt hdeep)
  rw [entries, hdir] at hlinks
  obtain ⟨name, hname, htext⟩ := hfiles names links hne hnames hlinks ⟨text⟩ hmem
  have hspell : Path.spell ["dev", kname] = Path.spell (names ++ [name]) := by
    rw [← Path.node_eq_spell, ← hnode]
    exact congrArg Path.text htext
  have hall : ∀ n ∈ names ++ [name], '/' ∉ n.toList := List.forall_mem_append.mpr
    ⟨fun n hn => (hnames n hn).single, List.forall_mem_singleton.mpr hname.single⟩
  -- A node is spelled by two names, a link by one more than its directory, which has two.
  have hlength := congrArg List.length (Path.spell_inj (by simpa using hk) hall hspell)
  rw [List.length_append] at hlength
  simp only [List.length_cons, List.length_nil] at hlength
  omega

theorem not_isUnder_node {kname : String} (hk : '/' ∉ kname.toList) :
    Path.isUnder ⟨"/dev/" ++ kname⟩ ⟨"/dev/disk/by-id"⟩ = false := by
  have hcomponents : Path.components ⟨"/dev/" ++ kname⟩ =
      .root :: ["dev".toList, kname.toList].filterMap Component.ofPiece? := by
    rw [Path.node_eq_spell, Path.components_spell (by simp) (by simpa using hk)]
    rfl
  rw [← Bool.not_eq_true, Path.isUnder, List.isPrefixOf_iff_prefix, hcomponents]
  intro hprefix
  have hdeep : (Path.components ⟨"/dev/disk/by-id"⟩).length = 4 := by decide +kernel
  have hlength := hprefix.length_le
  have hshort := List.length_filterMap_le Component.ofPiece? ["dev".toList, kname.toList]
  simp only [List.length_cons, List.length_nil] at hlength hshort
  omega

/-- No link is spelled as a device node. -/
theorem IsLink.ne_node (hfiles : files.Orderly) (H : IsLink files {} ⟨text⟩) {kname : String}
    (hk : '/' ∉ kname.toList) : text ≠ "/dev/" ++ kname := by
  cases H with
  | under hunder =>
    rintro rfl
    rw [not_isUnder_node hk] at hunder
    cases hunder
  | byId hlinks hmem =>
    have hnames : ∀ n ∈ ["dev", "disk", "by-id"], Path.IsLiteralName n := by decide +kernel
    exact ne_node_of_listed hfiles hnames (by simp) (by decide +kernel) hlinks hmem hk
  | mapper hlinks hmem =>
    have hnames : ∀ n ∈ ["dev", "mapper"], Path.IsLiteralName n := by decide +kernel
    exact ne_node_of_listed hfiles hnames (by simp) (by decide +kernel) hlinks hmem hk

end Identity

namespace Discovery

open Identity

variable {files : FileView} {d d' : Device}

/-- The identity of a device is a link that leads to it, or its device node. -/
theorem identity_cases (files : FileView) (dirs : LinkDirs) (d : Device) :
    let id := identity ("/dev/" ++ d.kname) (resolve files dirs none d).1
    IsLink files dirs ⟨id⟩ ∧ files.Leads d.kname ⟨id⟩ ∨ id = "/dev/" ++ d.kname := by
  intro id
  cases h : (resolve files dirs none d).1 with
  | error e => exact .inr (by simp [id, h, identity])
  | ok r =>
    have hid : id = r.path := by simp [id, h, identity]
    rw [hid]
    exact leads_or_node_of_resolve h

/-- Devices with one identity have one kernel name. -/
theorem kname_eq_of_identity (hfiles : files.Orderly) (hk : '/' ∉ d.kname.toList)
    (hk' : '/' ∉ d'.kname.toList)
    (H : identity ("/dev/" ++ d.kname) (resolve files {} none d).1 =
      identity ("/dev/" ++ d'.kname) (resolve files {} none d').1) : d.kname = d'.kname := by
  -- A link and a node are never spelled alike; that leaves two links or two nodes.
  rcases identity_cases files {} d with ⟨hlink, hleads⟩ | hnode <;>
    rcases identity_cases files {} d' with ⟨hlink', hleads'⟩ | hnode'
  · rw [H] at hleads
    exact hleads.unique hleads'
  · exact absurd (H.trans hnode') (hlink.ne_node hfiles hk')
  · exact absurd (H.symm.trans hnode) (hlink'.ne_node hfiles hk)
  · have hnodes := hnode.symm.trans (H.trans hnode')
    simpa [← String.toList_inj] using hnodes

end Discovery

end NodeDisks
