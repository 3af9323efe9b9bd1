import NodeDisks.Proofs.Host.Resolution

/-!
What writing and renaming change in a tree of directories: files, and the entries for them. Directories,
links and their entries stay (`Alike`), so a directory is reached in the changed tree as before
(`Alike.reaches`). What is written to a name of a directory is there (`write_join`), stays the same under
another name (`rename_join`), and is read from there (`read_of_hasFile`).
-/

namespace NodeDisks.FileTree

open NodeDisks.Path (IsEntryName)

/-- A walk goes on from the node. -/
def LeadsOn (t : FileTree) (n : Nat) : Prop :=
  (t.entriesOf? n).isSome ∨ ∃ target, t.node? n = some (.link target)

/-- The trees differ in their files at most. -/
structure Alike (t t' : FileTree) : Prop where
  workDir : t.workDir = t'.workDir
  directory : ∀ n, (t.entriesOf? n).isSome ↔ (t'.entriesOf? n).isSome
  link : ∀ n target, t.node? n = some (.link target) ↔ t'.node? n = some (.link target)
  entry : ∀ dir name n, t.LeadsOn n → (t.Enters dir name n ↔ t'.Enters dir name n)

/-- Directory `dir` is reached by route `r`. -/
structure Reaches (t : FileTree) (dir : Path) (r : Route) : Prop where
  walk : t.walk true maxLinks [] (t.wayTo dir) = .ok (r, none)
  directory : (t.entriesOf? r.number).isSome

/-- Directory `dir` has a file with this content under this name. -/
def HasFile (t : FileTree) (dir : Nat) (name content : String) : Prop :=
  ∃ n, t.Enters dir name n ∧ t.node? n = some (.file content)

/-- The numbers from `next` on are free. -/
def Numbered (t : FileTree) : Prop := ∀ n, t.next ≤ n → t.node? n = none

/-- In tree `t'` the file is there, and no more than files is new. -/
structure Puts (t t' : FileTree) (dir : Nat) (name content : String) : Prop where
  alike : t.Alike t'
  hasFile : t'.HasFile dir name content
  numbered : t.Numbered → t'.Numbered

variable {t t' t'' : FileTree} {r s : Route} {p dir : Path} {cs : List Component} {n m k : Nat}
  {name content : String} {links : Nat} {stop : Stop} {entries entries' : List (String × Nat)}
  {x : FileNode} {followLast : Bool}

/-! ### Nodes and entries -/

section Lookup

variable {α β : Type} [BEq α] [LawfulBEq α]

theorem lookup_filter (xs : List (α × β)) (a b : α) :
    (xs.filter fun e => e.1 != a).lookup b = if b == a then none else xs.lookup b := by
  induction xs with
  | nil => simp
  | cons e xs ih =>
    obtain ⟨c, y⟩ := e
    by_cases hc : c = a
    · subst hc
      cases hb : b == c <;> simp [ih, hb, List.lookup_cons]
    · cases hb : b == c with
      | true =>
        obtain rfl : b = c := eq_of_beq hb
        simp [hc]
      | false => simp [hc, ih, List.lookup_cons, hb]

end Lookup

theorem node?_setNode (t : FileTree) (n m : Nat) (x : FileNode) :
    (t.setNode n x).node? m = if m = n then some x else t.node? m := by
  simp only [setNode, node?, List.lookup_cons, lookup_filter, beq_iff_eq]
  cases hm : m == n with
  | true => simp [eq_of_beq hm]
  | false => simp [ne_of_beq_false hm]

theorem entriesOf?_setNode_of_ne (hne : m ≠ n) :
    (t.setNode n x).entriesOf? m = t.entriesOf? m := by
  simp [entriesOf?, node?_setNode, hne]

@[simp] theorem entriesOf?_setNode_directory :
    (t.setNode n (.directory entries)).entriesOf? n = some entries := by
  simp [entriesOf?, node?_setNode]

@[simp] theorem entriesOf?_setNode_file : (t.setNode n (.file content)).entriesOf? n = none := by
  simp [entriesOf?, node?_setNode]

theorem entriesOf?_eq_some_iff :
    t.entriesOf? n = some entries ↔ t.node? n = some (.directory entries) := by
  unfold entriesOf?
  split <;> simp_all

theorem not_leadsOn_of_file (hn : t.node? n = some (.file content)) : ¬t.LeadsOn n := by
  simp [LeadsOn, entriesOf?, hn]

theorem not_leadsOn_of_none (hn : t.node? n = none) : ¬t.LeadsOn n := by
  simp [LeadsOn, entriesOf?, hn]

theorem lookup_leave (entries : List (String × Nat)) (name other : String) :
    (entries.filter (·.1 != name)).lookup other =
      if other = name then none else entries.lookup other := by
  rw [lookup_filter]
  simp

theorem lookup_enter (entries : List (String × Nat)) (name other : String) (n : Nat) :
    (entries.filter (·.1 != name) ++ [(name, n)]).lookup other =
      if other = name then some n else entries.lookup other := by
  rw [List.lookup_append, lookup_leave]
  cases hother : other == name with
  | true => simp [eq_of_beq hother]
  | false => simp [ne_of_beq_false hother, List.lookup_cons, hother]

/-! ### Numbers -/

theorem numbered_empty : empty.Numbered := by
  intro n hn
  have hne : (n == 0) = false := beq_false_of_ne (Nat.ne_of_gt hn)
  simp [node?, empty, List.lookup_cons, hne]

theorem Numbered.lt (H : t.Numbered) (hn : t.node? n = some x) : n < t.next :=
  Nat.lt_of_not_le fun hle => by
    rw [H n hle] at hn
    cases hn

theorem Numbered.setNode (H : t.Numbered) (hn : n < t.next) : (t.setNode n x).Numbered := by
  intro m hm
  have hle : t.next ≤ m := hm
  rw [node?_setNode, if_neg (Nat.ne_of_gt (Nat.lt_of_lt_of_le hn hle)), H m hle]

theorem Numbered.setNode_directory (H : t.Numbered) (hn : t.entriesOf? n = some entries) :
    (t.setNode n x).Numbered :=
  H.setNode (H.lt (entriesOf?_eq_some_iff.mp hn))

theorem Numbered.add (H : t.Numbered) : Numbered { t.setNode t.next x with next := t.next + 1 } := by
  intro m hm
  have hlt : t.next < m := hm
  exact (node?_setNode t _ _ _).trans ((if_neg (Nat.ne_of_gt hlt)).trans (H m (Nat.le_of_lt hlt)))

/-! ### Trees that are alike -/

theorem Alike.leadsOn_iff (H : t.Alike t') : t.LeadsOn n ↔ t'.LeadsOn n :=
  or_congr (H.directory n) (exists_congr fun target => H.link n target)

theorem Alike.refl (t : FileTree) : t.Alike t :=
  ⟨rfl, fun _ => Iff.rfl, fun _ _ => Iff.rfl, fun _ _ _ _ => Iff.rfl⟩

theorem Alike.symm (H : t.Alike t') : t'.Alike t where
  workDir := H.workDir.symm
  directory n := (H.directory n).symm
  link n target := (H.link n target).symm
  entry dir name n hn := (H.entry dir name n (H.leadsOn_iff.mpr hn)).symm

theorem Alike.trans (H : t.Alike t') (H' : t'.Alike t'') : t.Alike t'' where
  workDir := H.workDir.trans H'.workDir
  directory n := (H.directory n).trans (H'.directory n)
  link n target := (H.link n target).trans (H'.link n target)
  entry dir name n hn := (H.entry dir name n hn).trans (H'.entry dir name n (H.leadsOn_iff.mp hn))

theorem entriesOf?_of_not_leadsOn (hn : ¬t.LeadsOn n) : t.entriesOf? n = none := by
  simpa using mt .inl hn

/-- What the exchange of a node must leave as it is, at that node. -/
theorem alike_setNode (hdirectory : (t.entriesOf? n).isSome ↔ ((t.setNode n x).entriesOf? n).isSome)
    (hlink : ∀ target, t.node? n ≠ some (.link target) ∧ x ≠ .link target)
    (hentry : ∀ other m, t.LeadsOn m → (t.Enters n other m ↔ (t.setNode n x).Enters n other m)) :
    t.Alike (t.setNode n x) where
  workDir := rfl
  directory m := by
    by_cases hm : m = n
    · rwa [hm]
    · rw [entriesOf?_setNode_of_ne hm]
  link m target := by
    by_cases hm : m = n
    · obtain ⟨hold, hnew⟩ := hlink target
      subst hm
      simp [node?_setNode, hold, hnew]
    · rw [node?_setNode, if_neg hm]
  entry dir other m hm := by
    by_cases hdir : dir = n
    · rw [hdir]
      exact hentry other m hm
    · simp only [Enters, entriesOf?_setNode_of_ne hdir]

/-- Another file, or a file where there was no node. -/
theorem alike_setNode_file (hn : ¬t.LeadsOn n) : t.Alike (t.setNode n (.file content)) := by
  have hnone := entriesOf?_of_not_leadsOn hn
  refine alike_setNode (by simp [hnone]) (fun target => ⟨fun h => hn (.inr ⟨target, h⟩), nofun⟩) ?_
  intro other m _
  simp [Enters, hnone]

/-- Another entry of a directory. -/
theorem alike_setNode_directory (hn : t.entriesOf? n = some entries)
    (hother : ∀ other, other ≠ name → entries'.lookup other = entries.lookup other)
    (hold : ∀ m, entries.lookup name = some m → ¬t.LeadsOn m)
    (hnew : ∀ m, entries'.lookup name = some m → ¬t.LeadsOn m) :
    t.Alike (t.setNode n (.directory entries')) := by
  have hnode := entriesOf?_eq_some_iff.mp hn
  refine alike_setNode (by simp [hn]) (fun target => ⟨by simp [hnode], nofun⟩) fun other m hm => ?_
  simp only [Enters, hn, entriesOf?_setNode_directory, Option.some.injEq, exists_eq_left']
  by_cases hname : other = name
  · subst hname
    exact iff_of_false (fun h => hold m h hm) (fun h => hnew m h hm)
  · rw [hother other hname]

theorem alike_enter (hr : t.entriesOf? r.number = some entries)
    (hold : ∀ m, entries.lookup name = some m → ¬t.LeadsOn m) (hn : ¬t.LeadsOn n) :
    t.Alike (t.enter r name n) := by
  rw [enter, hr, Option.getD_some]
  refine alike_setNode_directory hr (fun other hne => ?_) hold fun m hm => ?_
  · rw [lookup_enter, if_neg hne]
  · rw [lookup_enter, if_pos rfl] at hm
    cases hm
    exact hn

theorem alike_leave (hr : t.entriesOf? r.number = some entries)
    (hold : ∀ m, entries.lookup name = some m → ¬t.LeadsOn m) : t.Alike (t.leave r name) := by
  rw [leave, hr, Option.getD_some]
  refine alike_setNode_directory hr (fun other hne => ?_) hold fun m hm => ?_
  · rw [lookup_leave, if_neg hne]
  · rw [lookup_leave, if_pos rfl] at hm
    cases hm

/-! ### Walks to directories -/

/-- Where no walk goes on, a stride goes no further. -/
theorem stride_of_not_leadsOn (hr : ¬t.LeadsOn r.number) (hroot : .root ∉ cs)
    (h : t.stride true r cs = .ok stop) : stop = .place r none := by
  induction cs with
  | nil =>
    cases h
    rfl
  | cons c cs ih =>
    have hc : c ≠ .root := fun h => hroot (h ▸ .head _)
    have hcs : .root ∉ cs := fun h => hroot (.tail _ h)
    have hnone := entriesOf?_of_not_leadsOn hr
    cases c with
    | root => exact absurd rfl hc
    | current => exact ih hcs h
    | parent => simp [stride, hnone] at h
    | named s => simp [stride, hnone] at h

theorem suffix_of_stride {d : Route} {target : Path} {behind : List Component}
    (h : t.stride followLast r cs = .ok (.link d target behind)) : behind <:+ cs.tail := by
  induction cs generalizing r with
  | nil => cases h
  | cons c cs ih =>
    have hrest {r : Route} (h : t.stride followLast r cs = .ok (.link d target behind)) :
        behind <:+ cs := (ih h).trans (List.tail_suffix cs)
    cases c with
    | root => exact hrest h
    | current => exact hrest h
    | parent =>
      rw [stride] at h
      split at h
      · exact hrest h
      · cases h
    | named s =>
      rw [stride] at h
      split at h
      · cases h
      split at h
      · split at h <;> cases h
      split at h
      · split at h <;> cases h
        exact List.suffix_refl _
      · exact hrest h

theorem stride_link {target : Path} (hn : t.Enters r.number name n)
    (hlink : t.node? n = some (.link target)) :
    t.stride true r (.named name :: cs) = .ok (.link r target cs) := by
  obtain ⟨entries, hentries, hn⟩ := hn
  simp [stride, hentries, hn, hlink]

theorem stride_enter (hn : t.Enters r.number name n)
    (hlink : ∀ target, t.node? n ≠ some (.link target)) :
    t.stride true r (.named name :: cs) = t.stride true ((name, n) :: r) cs := by
  obtain ⟨entries, hentries, hn⟩ := hn
  rw [stride]
  simp only [hentries, hn]

/-- A stride to a directory or a link is the same in a tree that is alike. -/
theorem Alike.stride (H : t.Alike t') (hroot : .root ∉ cs.tail) (h : t.stride true r cs = .ok stop)
    (hstop : ∀ s absent, stop = .place s absent → absent = none ∧ t.LeadsOn s.number) :
    t'.stride true r cs = .ok stop := by
  induction cs generalizing r with
  | nil =>
    cases h
    rfl
  | cons c cs ih =>
    have htail : .root ∉ cs.tail := fun h => hroot (List.mem_of_mem_tail h)
    cases c with
    | root => exact ih htail h
    | current => exact ih htail h
    | parent =>
      rw [FileTree.stride] at h ⊢
      split at h
      case isTrue hdir =>
        rw [if_pos ((H.directory _).mp hdir)]
        exact ih htail h
      case isFalse => cases h
    | named name =>
      cases hentries : t.entriesOf? r.number with
      | none => simp [FileTree.stride, hentries] at h
      | some entries =>
        cases hlookup : entries.lookup name with
        | none =>
          rw [FileTree.stride] at h
          simp only [hentries, hlookup] at h
          split at h <;> cases h
          cases (hstop _ _ rfl).1
        | some n =>
          have hn : t.Enters r.number name n := ⟨entries, hentries, hlookup⟩
          by_cases hleads : t.LeadsOn n
          · have hn' := (H.entry _ _ _ hleads).mp hn
            by_cases hlink : ∃ target, t.node? n = some (.link target)
            · obtain ⟨target, hlink⟩ := hlink
              rwa [stride_link hn' ((H.link _ _).mp hlink), ← stride_link hn hlink]
            · rw [not_exists] at hlink
              rw [stride_enter hn hlink] at h
              rw [stride_enter hn' fun target => mt (H.link n target).mpr (hlink target)]
              exact ih htail h
          · have hlink : ∀ target, t.node? n ≠ some (.link target) :=
              fun target h => hleads (.inr ⟨target, h⟩)
            rw [stride_enter hn hlink] at h
            have hplace := stride_of_not_leadsOn (r := (name, n) :: r) hleads hroot h
            exact absurd (hstop _ _ hplace).2 hleads

theorem root_not_mem_tail_append {cs' : List Component} (hcs : .root ∉ cs.tail) (hcs' : .root ∉ cs') :
    .root ∉ (cs ++ cs').tail := by
  cases cs with
  | nil => exact fun h => hcs' (List.mem_of_mem_tail h)
  | cons c cs => exact List.not_mem_append hcs hcs'

theorem root_not_mem_tail_wayTo (t : FileTree) (dir : Path) : .root ∉ (t.wayTo dir).tail := by
  cases habsolute : Path.isAbsolute dir.text with
  | true => simpa [wayTo, habsolute] using Path.root_not_mem_tail_components dir
  | false =>
    have hdir := Path.root_not_mem_components habsolute
    simpa [wayTo, habsolute] using
      root_not_mem_tail_append (Path.root_not_mem_tail_components t.workDir) hdir

/-- A walk to a directory is the same in a tree that is alike. -/
theorem Alike.walk (H : t.Alike t') (hroot : .root ∉ cs.tail) (hs : t.LeadsOn s.number)
    (h : t.walk true links r cs = .ok (s, none)) : t'.walk true links r cs = .ok (s, none) := by
  induction links using Nat.strongRecOn generalizing r cs with
  | ind links ih =>
    rcases walk_eq_ok_iff.mp h with hstop | ⟨left, d, target, behind, rfl, hstop, h⟩
    · refine walk_eq_ok_iff.mpr (.inl (H.stride hroot hstop ?_))
      rintro _ _ ⟨⟩
      exact ⟨rfl, hs⟩
    · have hbehind : .root ∉ behind := fun h => hroot ((suffix_of_stride hstop).mem h)
      have hstop' := H.stride hroot hstop (by rintro _ _ ⟨⟩)
      refine walk_eq_ok_iff.mpr (.inr ⟨left, d, target, behind, rfl, hstop', ?_⟩)
      exact ih left left.lt_succ_self (root_not_mem_tail_append
        (Path.root_not_mem_tail_components target) hbehind) h

/-! ### Files in a directory -/

theorem Reaches.eq (hr : t.Reaches dir r) (hs : t.Reaches dir s) : r = s := by
  cases hr.walk.symm.trans hs.walk
  rfl

theorem Alike.reaches (H : t.Alike t') (hr : t.Reaches dir r) : t'.Reaches dir r := by
  have hway : t'.wayTo dir = t.wayTo dir := by rw [wayTo, wayTo, H.workDir]
  refine ⟨?_, (H.directory _).mp hr.directory⟩
  rw [hway]
  exact H.walk (t.root_not_mem_tail_wayTo dir) (.inl hr.directory) hr.walk

/-- The place of a name in a directory. -/
theorem place_join_eq_ok_iff (hname : IsEntryName name) (hparent : name ≠ "..")
    {absent : Option String} : t.place false (dir.join name) = .ok (s, absent) ↔
    ∃ r entries, t.Reaches dir r ∧ t.entriesOf? r.number = some entries ∧
      (entries.lookup name = none ∧ s = r ∧ absent = some name ∨
        ∃ n, entries.lookup name = some n ∧ s = (name, n) :: r ∧ absent = none) := by
  rw [place_join hname hparent, walk_concat_eq_ok_iff]
  constructor
  · rintro ⟨r, hwalk, hlast⟩
    obtain ⟨entries, hentries, hplace⟩ := stride_named_eq_ok_iff.mp hlast
    refine ⟨r, entries, ⟨hwalk, by simp [hentries]⟩, hentries, ?_⟩
    simpa using hplace
  · rintro ⟨r, entries, hr, hentries, hplace⟩
    refine ⟨r, hr.walk, stride_named_eq_ok_iff.mpr ⟨entries, hentries, ?_⟩⟩
    simpa using hplace

theorem free_of_place (hname : IsEntryName name) (hparent : name ≠ "..") {absent : String}
    (h : t.place false (dir.join name) = .ok (s, some absent)) :
    t.Reaches dir s ∧ absent = name ∧
      ∃ entries, t.entriesOf? s.number = some entries ∧ entries.lookup name = none := by
  obtain ⟨r, entries, hr, hentries, ⟨hnone, rfl, habsent⟩ | ⟨_, _, _, ⟨⟩⟩⟩ :=
    (place_join_eq_ok_iff hname hparent).mp h
  exact ⟨hr, Option.some.inj habsent, entries, hentries, hnone⟩

theorem enters_of_place (hname : IsEntryName name) (hparent : name ≠ "..")
    (h : t.place false (dir.join name) = .ok (s, none)) :
    ∃ r n, t.Reaches dir r ∧ t.Enters r.number name n ∧ s = (name, n) :: r := by
  obtain ⟨r, entries, hr, hentries, ⟨_, _, ⟨⟩⟩ | ⟨n, hn, rfl, -⟩⟩ :=
    (place_join_eq_ok_iff hname hparent).mp h
  exact ⟨r, n, hr, ⟨entries, hentries, hn⟩, rfl⟩

theorem Enters.eq (hn : t.Enters n name m) (hk : t.Enters n name k) : m = k := by
  obtain ⟨entries, hentries, hm⟩ := hn
  obtain ⟨entries', hentries', hk⟩ := hk
  cases hentries.symm.trans hentries'
  exact Option.some.inj (hm.symm.trans hk)

theorem place_of_enters (hname : IsEntryName name) (hparent : name ≠ "..") (hr : t.Reaches dir r)
    (hn : t.Enters r.number name n) :
    t.place false (dir.join name) = .ok ((name, n) :: r, none) := by
  obtain ⟨entries, hentries, hlookup⟩ := hn
  exact (place_join_eq_ok_iff hname hparent).mpr
    ⟨r, entries, hr, hentries, .inr ⟨n, hlookup, rfl, rfl⟩⟩

/-- Unless a link is there, following links makes no difference at a name. -/
theorem place_join_true (hname : IsEntryName name) (hparent : name ≠ "..")
    (hlink : t.isLink (dir.join name) = false) :
    t.place true (dir.join name) = t.place false (dir.join name) := by
  rw [place_join hname hparent, place_join hname hparent]
  rcases walk_concat_true with hplain | ⟨n, d, target, hlast, hn⟩
  · exact hplain
  · have hlocate := (locate_join_eq_ok_iff hname hparent).mpr hlast
    have hnumber : t.node? (Route.number ((name, n) :: d)) = some (.link target) := hn
    simp [isLink, hlocate, hnumber] at hlink

theorem isLink_join_eq_false_iff (hname : IsEntryName name) (hparent : name ≠ "..")
    (hr : t.Reaches dir r) : t.isLink (dir.join name) = false ↔
      ∀ n target, t.Enters r.number name n → t.node? n ≠ some (.link target) := by
  constructor
  · intro hlink n target hn htarget
    have hplace := place_of_enters hname hparent hr hn
    rw [place_join hname hparent] at hplace
    have hlocate := (locate_join_eq_ok_iff hname hparent).mpr hplace
    have hnumber : t.node? (Route.number ((name, n) :: r)) = some (.link target) := htarget
    simp [isLink, hlocate, hnumber] at hlink
  · intro hplain
    unfold isLink
    split
    case h_1 => rfl
    case h_2 s hlocate =>
      obtain ⟨r', n, hr', hn, rfl⟩ := enters_of_place hname hparent (place_of_locate hlocate)
      obtain rfl := hr.eq hr'
      split
      case h_1 target htarget => exact absurd htarget (hplain n target hn)
      case h_2 => rfl

theorem Alike.isLink_join (H : t.Alike t') (hname : IsEntryName name) (hparent : name ≠ "..")
    (hr : t.Reaches dir r) (hlink : t.isLink (dir.join name) = false) :
    t'.isLink (dir.join name) = false := by
  rw [isLink_join_eq_false_iff hname hparent hr] at hlink
  rw [isLink_join_eq_false_iff hname hparent (H.reaches hr)]
  intro n target hn htarget
  have htarget' := (H.link n target).mpr htarget
  have hn' := (H.entry _ _ _ (.inr ⟨target, htarget'⟩)).mpr hn
  exact hlink n target hn' htarget'

theorem read_of_hasFile (hname : IsEntryName name) (hparent : name ≠ "..") (hr : t.Reaches dir r)
    (hfile : t.HasFile r.number name content) : t.read (dir.join name) = .ok content := by
  obtain ⟨n, hn, hcontent⟩ := hfile
  have hlink : t.isLink (dir.join name) = false := by
    refine (isLink_join_eq_false_iff hname hparent hr).mpr fun m target hm => ?_
    obtain rfl := hn.eq hm
    simp [hcontent]
  have hplace := place_join_true hname hparent hlink
  rw [place_of_enters hname hparent hr hn, place_join hname hparent] at hplace
  have hnumber : t.node? (Route.number ((name, n) :: r)) = some (.file content) := hcontent
  rw [read, (locate_join_eq_ok_iff hname hparent).mpr hplace]
  simp only [hnumber]

/-! ### Writing and renaming -/

theorem hasFile_enter (hr : t.entriesOf? r.number = some entries)
    (hn : t.node? n = some (.file content)) : (t.enter r name n).HasFile r.number name content := by
  have hdir : n ≠ r.number := by
    rintro rfl
    simp [entriesOf?, hn] at hr
  rw [enter, hr, Option.getD_some]
  refine ⟨n, ⟨_, entriesOf?_setNode_directory, ?_⟩, ?_⟩
  · rw [lookup_enter, if_pos rfl]
  · rw [node?_setNode, if_neg hdir, hn]

/-- A new file in a directory, under a name that is free. -/
theorem puts_create (hr : t.entriesOf? r.number = some entries) (hnone : entries.lookup name = none)
    (hfree : t.node? t.next = none) :
    t.Puts (t.create r name (.file content)) r.number name content := by
  let made : FileTree := { t.setNode t.next (.file content) with next := t.next + 1 }
  have hdir : r.number ≠ t.next := by
    intro heq
    simp [entriesOf?, heq, hfree] at hr
  have hfresh : t.Alike (t.setNode t.next (.file content)) :=
    alike_setNode_file (not_leadsOn_of_none hfree)
  have hmade : t.Alike made := ⟨hfresh.workDir, hfresh.directory, hfresh.link, hfresh.entry⟩
  have hentries : made.entriesOf? r.number = some entries :=
    (entriesOf?_setNode_of_ne hdir).trans hr
  have hfile : made.node? t.next = some (.file content) :=
    (node?_setNode t _ _ _).trans (if_pos rfl)
  have halike : made.Alike (made.enter r name t.next) :=
    alike_enter hentries (by simp [hnone]) (not_leadsOn_of_file hfile)
  exact ⟨hmade.trans halike, hasFile_enter hentries hfile, fun H => H.add.setNode_directory hentries⟩

/-- Another content of a file. -/
theorem puts_setNode {old : String} (hr : t.entriesOf? r.number = some entries)
    (hn : entries.lookup name = some n) (hold : t.node? n = some (.file old)) :
    t.Puts (t.setNode n (.file content)) r.number name content := by
  have hdir : r.number ≠ n := by
    rintro rfl
    simp [entriesOf?, hold] at hr
  refine ⟨alike_setNode_file (not_leadsOn_of_file hold), ⟨n, ?_, ?_⟩, fun H => ?_⟩
  · exact ⟨entries, by rwa [entriesOf?_setNode_of_ne hdir], hn⟩
  · rw [node?_setNode, if_pos rfl]
  · exact H.setNode (H.lt hold)

/-- What is written to a name of a directory is there, in a new file or in the one that is there. -/
theorem write_join (hname : IsEntryName name) (hparent : name ≠ "..")
    (hlink : t.isLink (dir.join name) = false) (hfree : t.node? t.next = none)
    (h : t.write (dir.join name) content = .ok t') :
    ∃ r, t.Reaches dir r ∧ t.Puts t' r.number name content := by
  rw [write, place_join_true hname hparent hlink, Path.asksForDirectory_join hname] at h
  split at h
  · cases h
  case h_2 s absent hplace =>
    cases h
    obtain ⟨hr, rfl, entries, hentries, hnone⟩ := free_of_place hname hparent hplace
    exact ⟨s, hr, puts_create hentries hnone hfree⟩
  case h_3 s hplace =>
    obtain ⟨r, n, hr, ⟨entries, hentries, hn⟩, rfl⟩ := enters_of_place hname hparent hplace
    split at h
    case h_1 old hold =>
      cases h
      exact ⟨r, hr, puts_setNode hentries hn hold⟩
    · cases h

/-- A file takes another name in its directory. -/
theorem puts_move (hr : t.entriesOf? r.number = some entries) {old : String}
    (hold : entries.lookup old = some n) (hn : t.node? n = some (.file content))
    (hname : ∀ m, entries.lookup name = some m → ¬t.LeadsOn m) :
    t.Puts ((t.leave r old).enter r name n) r.number name content := by
  have hdir : n ≠ r.number := by
    rintro rfl
    simp [entriesOf?, hn] at hr
  have hleave : t.Alike (t.leave r old) := by
    refine alike_leave hr fun m hm => ?_
    cases hold.symm.trans hm
    exact not_leadsOn_of_file hn
  have hentries : (t.leave r old).entriesOf? r.number = some (entries.filter (·.1 != old)) := by
    rw [leave, hr, Option.getD_some, entriesOf?_setNode_directory]
  have hfile : (t.leave r old).node? n = some (.file content) := by
    rw [leave, node?_setNode, if_neg hdir, hn]
  refine ⟨hleave.trans (alike_enter hentries (fun m hm => ?_) (not_leadsOn_of_file hfile)),
    hasFile_enter hentries hfile, fun H => ?_⟩
  · rw [lookup_leave] at hm
    split at hm
    · cases hm
    · exact mt hleave.leadsOn_iff.mpr (hname m hm)
  · exact Numbered.setNode_directory (H.setNode_directory hr) hentries

theorem rename_join {old : String} (hold : IsEntryName old) (holdParent : old ≠ "..")
    (hname : IsEntryName name) (hparent : name ≠ "..") (hr : t.Reaches dir r)
    (hfile : t.HasFile r.number old content) (hlink : t.isLink (dir.join name) = false)
    (h : t.rename (dir.join old) (dir.join name) = .ok t') :
    t.Puts t' r.number name content := by
  obtain ⟨n, henters, hn⟩ := hfile
  have hplace := place_of_enters hold holdParent hr henters
  rw [place_join hold holdParent] at hplace
  rw [rename, (locate_join_eq_ok_iff hold holdParent).mpr hplace,
    Path.asksForDirectory_join hname] at h
  obtain ⟨entries, hentries, hlookup⟩ := henters
  simp only at h
  split at h
  case h_1 => cases h
  case h_2 s absent hnew =>
    obtain ⟨hs, rfl, entries', hentries', hnone⟩ := free_of_place hname hparent hnew
    obtain rfl := hr.eq hs
    cases hentries.symm.trans hentries'
    cases h
    exact puts_move hentries hlookup hn (by simp [hnone])
  case h_3 => cases h
  case h_4 other m d hnew =>
    obtain ⟨s, k, hs, hk, ⟨⟩⟩ := enters_of_place hname hparent hnew
    obtain rfl := hr.eq hs
    split at h
    · cases h
    case isFalse hfile =>
      have hplain : ¬t.LeadsOn m := by
        rintro (hdir | ⟨target, htarget⟩)
        · exact hfile hdir
        · exact (isLink_join_eq_false_iff hname hparent hr).mp hlink m target hk htarget
      split at h
      case isTrue => contradiction
      split at h
      case isTrue heq =>
        subst heq
        cases h
        exact ⟨.refl t, ⟨m, hk, hn⟩, id⟩
      case isFalse =>
        cases h
        refine puts_move hentries hlookup hn fun k hk' => ?_
        obtain rfl := hk.eq ⟨entries, hentries, hk'⟩
        exact hplain

theorem asksForDirectory_of_rename {old new : Path} (h : t.rename old new = .ok t') :
    new.asksForDirectory = false := by
  rw [Bool.eq_false_iff]
  intro hasks
  rw [rename, hasks] at h
  split at h
  · cases h
  · cases h
  -- The old name is there, so the place of the new one decides.
  split at h
  · cases h
  · cases h
  · cases h
  · split at h <;> cases h

end NodeDisks.FileTree
