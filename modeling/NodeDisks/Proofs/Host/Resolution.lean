import NodeDisks.Host.FileTree
import NodeDisks.Proofs.Host.Listing
import NodeDisks.Proofs.Path.Join

/-!
Where the links of a path lead. Evaluating a path and comparing two files are separate questions to a
file system: the one is answered by a name, the other by a file. Both go by one resolution of paths
(`FileView.Follows`), in memory (`MemoryFiles.follows`) as in a directory tree (`FileTree.follows`).

Paths that compare as the same file evaluate to the same path unless the file has a second name. In
memory no file has one (`MemoryFiles.not_secondName`), nor in a tree whose nodes are entered once each
(`FileTree.SingleNamed.not_secondName`).
-/

namespace NodeDisks

open NodeDisks.Path (IsEntryName same_refl same_symm same_trans)

/-- Some pattern lists the path. -/
def FileView.Listed (files : FileView) (p : Path) : Prop :=
  ∃ pattern ps, files.glob pattern = .ok ps ∧ p ∈ ps

/-- How evaluations and comparisons fit together: `resolve` says where links lead, and `isLink` what is
a link itself. -/
structure FileView.Follows (files : FileView) (resolve : Path → Except IoError Path)
    (isLink : Path → Bool) : Prop where
  evaluated : ∀ p, files.Listed p → files.evalLinks p = resolve p
  /-- Both of the files that are compared are there. -/
  compared : ∀ a b, files.sameFile a b = .ok true → (∃ p, resolve a = .ok p) ∧ ∃ q, resolve b = .ok q
  /-- The other spelling may ask for a directory, and fails if there is none. -/
  respelled : ∀ a b p, a.same b = true → resolve a = .ok p →
    (∃ q, resolve b = .ok q ∧ q.same p = true) ∨ ∃ e, resolve b = .error e ∧ e.kind ≠ .notFound
  /-- A device node that is no link keeps its name, even if there are links on the way to it. -/
  kept : ∀ kname p, IsEntryName kname → kname ≠ ".." → isLink ⟨"/dev/" ++ kname⟩ = false →
    resolve ⟨"/dev/" ++ kname⟩ = .ok p → p.fileName? = some kname

/-- Paths `a` and `b` are the same file and lead to two names of it. -/
def FileView.SecondName (files : FileView) (resolve : Path → Except IoError Path) (a b : Path) :
    Prop :=
  files.sameFile a b = .ok true ∧ ∃ p q, resolve a = .ok p ∧ resolve b = .ok q ∧ p.same q = false

theorem PathTable.get?_congr {α : Type} (t : PathTable α) {a b : Path} (hab : a.same b = true) :
    t.get? a = t.get? b := by
  simp only [get?, Path.same, Path.same_iff.mp hab]

/-! ### Files in memory -/

namespace MemoryFiles

variable {m : MemoryFiles} {a b p q : Path} {stops : Nat}

theorem isSealed_congr (hab : a.same b = true) : m.isSealed a = m.isSealed b := by
  simp only [isSealed, Path.same, Path.same_iff.mp hab]

/-- The spelling of a path counts only where no link leads on. -/
theorem follow_of_same (hab : a.same b = true) (ha : m.follow stops a = .ok p) :
    ∃ q, m.follow stops b = .ok q ∧ q.same p = true := by
  cases stops with
  | zero => cases ha
  | succ stops =>
    rw [follow, isSealed_congr hab, m.links.get?_congr hab] at ha
    rw [follow]
    cases hsealed : m.isSealed b with
    | true => simp [hsealed] at ha
    | false =>
      cases hlink : m.links.get? b with
      | some target => exact ⟨p, by simpa [hsealed, hlink] using ha, same_refl⟩
      | none =>
        obtain rfl : a = p := by simpa [hsealed, hlink] using ha
        exact ⟨b, rfl, same_symm hab⟩

theorem resolve_of_same (hab : a.same b = true) (ha : m.resolve a = .ok p) :
    ∃ q, m.resolve b = .ok q ∧ q.same p = true :=
  follow_of_same hab ha

theorem get?_eq_none_of_contains (h : m.links.contains p = false) : m.links.get? p = none := by
  simpa [PathTable.contains, PathTable.get?, List.find?_eq_none] using h

/-- A path that is no link leads nowhere else. -/
theorem eq_of_resolve (hp : m.links.get? p = none) (h : m.resolve p = .ok q) : q = p := by
  rw [resolve, maxStops, follow, hp] at h
  split at h <;> cases h
  rfl

theorem sameFile_eq_ok_true_iff : m.sameFile a b = .ok true ↔
    ∃ p q, m.resolve a = .ok p ∧ m.resolve b = .ok q ∧ p.same q = true := by
  unfold sameFile
  cases m.resolve a <;> cases m.resolve b <;> simp

theorem holds_of_mem_stored (hp : p ∈ m.stored) : m.holds p = true := by
  have hcontains {α : Type} (t : PathTable α) (ht : p ∈ t.paths) : t.contains p = true := by
    obtain ⟨e, he, rfl⟩ := List.mem_map.mp ht
    exact List.any_eq_true.mpr ⟨e, he, same_refl⟩
  rw [holds, Bool.or_eq_true]
  rcases List.mem_append.mp hp with hp | hp
  · exact .inl (hcontains m.files hp)
  · exact .inr (hcontains m.links hp)

theorem follows (m : MemoryFiles) : m.view.Follows m.resolve m.links.contains where
  evaluated p hp := by
    obtain ⟨pattern, ps, hps, hp⟩ := hp
    obtain ⟨-, g, hg, -⟩ := glob_eq_ok_iff.mp hps
    have hholds : m.holds p = true := holds_of_mem_stored (mem_glob hg hps hp).1
    exact if_pos hholds
  compared a b h := by
    obtain ⟨p, q, hp, hq, -⟩ := sameFile_eq_ok_true_iff.mp h
    exact ⟨⟨p, hp⟩, q, hq⟩
  respelled a b p hab ha := .inl (resolve_of_same hab ha)
  kept kname p hname hparent hlink hp := by
    rw [eq_of_resolve (get?_eq_none_of_contains hlink) hp]
    exact Path.fileName?_node hname hparent

theorem not_secondName : ¬m.view.SecondName m.resolve a b := by
  rintro ⟨hsame, p, q, hp, hq, hpq⟩
  obtain ⟨p', q', hp', hq', hpq'⟩ := sameFile_eq_ok_true_iff.mp hsame
  cases hp.symm.trans hp'
  cases hq.symm.trans hq'
  rw [hpq] at hpq'
  cases hpq'

end MemoryFiles

/-! ### Directory trees -/

namespace FileTree

/-- Directory `dir` has an entry called `name` for node `n`. -/
def Enters (t : FileTree) (dir : Nat) (name : String) (n : Nat) : Prop :=
  ∃ entries, t.entriesOf? dir = some entries ∧ entries.lookup name = some n

/-- Every step of the route is an entry. -/
inductive IsRoute (t : FileTree) : Route → Prop where
  | root : IsRoute t []
  | enter {r : Route} {name : String} {n : Nat} :
      IsRoute t r → t.Enters r.number name n → IsRoute t ((name, n) :: r)

/-- Each node is entered at most once, and the root nowhere. -/
structure SingleNamed (t : FileTree) : Prop where
  root : ∀ dir name, ¬t.Enters dir name 0
  single : ∀ dir dir' name name' n, t.Enters dir name n → t.Enters dir' name' n →
    dir = dir' ∧ name = name'

/-- A link is at the path, unless it is spelled as that of a directory. -/
def isLink (t : FileTree) (p : Path) : Bool :=
  match t.locate false p with
  | .error _ => false
  | .ok r =>
    match t.node? r.number with
    | some (.link _) => true
    | _ => false

/-- Where a stride has come to. -/
def Stop.route : Stop → Route
  | place r _ => r
  | link dir _ _ => dir

/-- The way to a directory. -/
def wayTo (t : FileTree) (dir : Path) : List Component :=
  (if Path.isAbsolute dir.text then [] else t.workDir.components) ++ dir.components

variable {t : FileTree} {r s : Route} {a b p q : Path} {cs : List Component} {stop : Stop}
  {absent : Option String} {followLast : Bool} {links : Nat} {name : String}

/-! #### Routes -/

theorem IsRoute.drop (hr : t.IsRoute r) : t.IsRoute (r.drop 1) := by
  cases hr with
  | root => exact .root
  | enter hr _ => exact hr

/-- A node with one name is reached by one route. -/
theorem IsRoute.eq_of_number (H : t.SingleNamed) (hr : t.IsRoute r) (hs : t.IsRoute s)
    (h : r.number = s.number) : r = s := by
  -- The last entries agree because they enter one node, and then their directories are one node.
  induction hr generalizing s with
  | root =>
    cases hs with
    | root => rfl
    | @enter _ name n _ hn =>
      obtain rfl : 0 = n := h
      exact absurd hn (H.root _ _)
  | @enter _ name n _ hn ih =>
    cases hs with
    | root =>
      obtain rfl : n = 0 := h
      exact absurd hn (H.root _ _)
    | @enter _ name' n' hs hn' =>
      obtain rfl : n = n' := h
      obtain ⟨hdir, rfl⟩ := H.single _ _ _ _ _ hn hn'
      rw [ih hs hdir]

/-- A stride goes on from a route by entries, and back along it. -/
theorem IsRoute.stride (hr : t.IsRoute r) (h : t.stride followLast r cs = .ok stop) :
    t.IsRoute stop.route := by
  induction cs generalizing r with
  | nil =>
    cases h
    exact hr
  | cons c cs ih =>
    cases c with
    | root => exact ih .root h
    | current => exact ih hr h
    | parent =>
      rw [FileTree.stride] at h
      split at h
      · exact ih hr.drop h
      · cases h
    | named name =>
      rw [FileTree.stride] at h
      split at h
      · cases h
      case h_2 entries hentries =>
        split at h
        · split at h <;> cases h
          exact hr
        case h_2 n hn =>
          have henter : t.IsRoute ((name, n) :: r) := hr.enter ⟨entries, hentries, hn⟩
          split at h
          · split at h <;> cases h
            · exact henter
            · exact hr
          · exact ih henter h

/-- A walk ends with a stride, or goes on with another one behind a link. -/
theorem walk_eq_ok_iff : t.walk followLast links r cs = .ok (s, absent) ↔
    t.stride followLast r cs = .ok (.place s absent) ∨
      ∃ left dir target behind, links = left + 1 ∧
        t.stride followLast r cs = .ok (.link dir target behind) ∧
        t.walk followLast left dir (target.components ++ behind) = .ok (s, absent) := by
  rw [walk]
  cases t.stride followLast r cs with
  | error e => simp
  | ok stop =>
    cases stop with
    | place => simp
    | link dir target behind =>
      cases links with
      | zero => simp
      | succ left =>
        constructor
        · exact fun h => .inr ⟨left, dir, target, behind, rfl, rfl, h⟩
        · rintro (h | ⟨_, _, _, _, hleft, hstop, h⟩)
          · cases h
          · cases hleft
            cases hstop
            exact h

/-- A link that is followed leaves the route as it is. -/
theorem IsRoute.walk (hr : t.IsRoute r) (h : t.walk followLast links r cs = .ok (s, absent)) :
    t.IsRoute s := by
  induction links using Nat.strongRecOn generalizing r cs with
  | ind links ih =>
    rcases walk_eq_ok_iff.mp h with hstop | ⟨left, dir, target, behind, rfl, hstop, h⟩
    · exact hr.stride hstop
    · exact ih left left.lt_succ_self (hr.stride hstop) h

theorem place_of_locate (h : t.locate followLast p = .ok r) :
    t.place followLast p = .ok (r, none) := by
  unfold locate at h
  split at h
  case h_1 | h_2 => cases h
  case h_3 hplace =>
    split at h <;> cases h
    exact hplace

theorem isRoute_of_locate (h : t.locate followLast p = .ok r) : t.IsRoute r := by
  have hplace := place_of_locate h
  unfold place at hplace
  split at hplace
  · cases hplace
  · exact IsRoute.root.walk hplace

theorem evalLinks_eq_ok_iff : t.evalLinks p = .ok q ↔
    ∃ r, t.locate true p = .ok r ∧ q = Route.path r := by
  unfold evalLinks
  cases t.locate true p <;> simp [Except.map, eq_comm]

theorem sameFile_eq_ok_true_iff : t.sameFile a b = .ok true ↔
    ∃ r s, t.locate true a = .ok r ∧ t.locate true b = .ok s ∧ r.number = s.number := by
  unfold sameFile
  cases t.locate true a <;> cases t.locate true b <;> simp

/-- Paths that are the same start and go on alike. -/
theorem place_congr (hab : a.same b = true) : t.place true a = t.place true b := by
  have hcomponents := Path.same_iff.mp hab
  have hempty : a.text.isEmpty = b.text.isEmpty := by
    rw [Bool.eq_iff_iff, String.isEmpty_iff, String.isEmpty_iff, ← Path.components_eq_nil_iff,
      hcomponents, Path.components_eq_nil_iff]
  have habsolute : Path.isAbsolute a.text = Path.isAbsolute b.text := by
    rw [Bool.eq_iff_iff, Path.isAbsolute_iff, hcomponents, Path.isAbsolute_iff]
  simp only [place, hempty, habsolute, hcomponents, Bool.true_or]

theorem locate_of_same (hab : a.same b = true) (ha : t.locate true a = .ok r) :
    t.locate true b = .ok r ∨ t.locate true b = .error notDirectory := by
  unfold locate at ha ⊢
  rw [place_congr hab] at ha
  split at ha
  case h_1 | h_2 => cases ha
  case h_3 route _ =>
    obtain rfl : route = r := by
      split at ha <;> cases ha
      rfl
    split
    · exact .inr rfl
    · exact .inl rfl

/-! #### Last names -/

theorem splitOn_intercalate_concat (css : List (List Char)) {cs : List Char} (hcs : '/' ∉ cs) :
    ∃ pieces, (['/'].intercalate (css ++ [cs])).splitOn '/' = pieces ++ [cs] := by
  induction css with
  | nil => exact ⟨[], by simpa using List.splitOn_eq_singleton hcs⟩
  | cons piece css ih =>
    obtain ⟨pieces, h⟩ := ih
    have hne : css ++ [cs] ≠ [] := by simp
    obtain ⟨first, rest, hrest⟩ := List.exists_cons_of_ne_nil hne
    rw [hrest] at h
    refine ⟨piece.splitOn '/' ++ pieces, ?_⟩
    rw [List.cons_append, hrest, List.intercalate_cons_cons]
    simp [List.splitOn_append_cons_self, h]

/-- The last name of a route is its file name, whatever the directories on it are called. -/
theorem fileName?_route (hname : IsEntryName name) (hparent : name ≠ "..") {n : Nat} {dir : Route} :
    (Route.path ((name, n) :: dir)).fileName? = some name := by
  obtain ⟨pieces, hpieces⟩ :=
    splitOn_intercalate_concat (dir.reverse.map fun e => e.1.toList) hname.single
  have htext : (Route.path ((name, n) :: dir)).text.toList =
      '/' :: ['/'].intercalate (dir.reverse.map (fun e => e.1.toList) ++ [name.toList]) := by
    simp [Route.path, String.toList_intercalate, Function.comp_def]
  have hpiece := Component.ofPiece?_of_name hname.nonempty hname.notCurrent hparent
  rw [Path.fileName?, Path.components_of_slash htext, hpieces, List.filterMap_append,
    List.filterMap_cons, hpiece, List.filterMap_nil, ← List.cons_append, List.getLast?_concat]

/-- To a name a stride goes by way of its directory. -/
theorem stride_concat : t.stride followLast r (cs ++ [.named name]) =
    match t.stride true r cs with
    | .error e => .error e
    | .ok (.place s none) => t.stride followLast s [.named name]
    | .ok (.place _ (some _)) => .error missing
    | .ok (.link dir target behind) => .ok (.link dir target (behind ++ [.named name])) := by
  induction cs generalizing r with
  | nil => rfl
  | cons c cs ih =>
    have hsome : (cs ++ [Component.named name]).isEmpty = false := by simp
    cases c with
    | root => exact ih
    | current => exact ih
    | parent =>
      rw [List.cons_append, stride, stride]
      split
      · exact ih
      · rfl
    | named s =>
      rw [List.cons_append, stride, stride, hsome]
      split
      · rfl
      split
      · cases cs <;> rfl
      split
      · simp
      · exact ih

theorem stride_named_eq_ok_iff :
    t.stride false r [.named name] = .ok stop ↔ ∃ entries, t.entriesOf? r.number = some entries ∧
      (entries.lookup name = none ∧ stop = .place r (some name) ∨
        ∃ n, entries.lookup name = some n ∧ stop = .place ((name, n) :: r) none) := by
  have hok {x : Stop} : (Except.ok x : Except IoError Stop) = .ok stop ↔ stop = x := by
    rw [Except.ok.injEq, eq_comm]
  rw [stride]
  cases t.entriesOf? r.number with
  | none => simp
  | some entries =>
    simp only [Option.some.injEq, exists_eq_left']
    cases entries.lookup name with
    | none => simp [hok]
    | some n =>
      simp only [List.isEmpty_nil, Bool.not_false, Bool.and_self, if_true, stride]
      split <;> simp [hok]

theorem stride_named_true (t : FileTree) (r : Route) (name : String) :
    t.stride true r [.named name] = t.stride false r [.named name] ∨
      ∃ n target, t.stride false r [.named name] = .ok (.place ((name, n) :: r) none) ∧
        t.node? n = some (.link target) := by
  rw [stride, stride]
  cases t.entriesOf? r.number with
  | none => exact .inl rfl
  | some entries =>
    cases hlookup : entries.lookup name with
    | none =>
      left
      simp only [hlookup]
    | some n =>
      simp only [hlookup]
      split
      case h_1 target hn => exact .inr ⟨n, target, rfl, hn⟩
      case h_2 => exact .inl rfl

/-- To a name a walk goes by way of its directory. -/
theorem walk_concat_eq_ok_iff : t.walk false links r (cs ++ [.named name]) = .ok (s, absent) ↔
    ∃ dir, t.walk true links r cs = .ok (dir, none) ∧
      t.stride false dir [.named name] = .ok (.place s absent) := by
  induction links using Nat.strongRecOn generalizing r cs with
  | ind links ih =>
    rw [walk, stride_concat, walk.eq_def t true]
    cases hstride : t.stride true r cs with
    | error e => simp
    | ok stop =>
      cases stop with
      | place dir absent' =>
        cases absent' with
        | some s => simp
        | none =>
          simp only [Except.ok.injEq, Prod.mk.injEq, and_true, exists_eq_left']
          cases hlast : t.stride false dir [.named name] with
          | error e => simp
          | ok stop =>
            obtain ⟨_, -, ⟨-, rfl⟩ | ⟨n, -, rfl⟩⟩ := stride_named_eq_ok_iff.mp hlast <;> simp
      | link dir target behind =>
        cases links with
        | zero => simp
        | succ left =>
          simp only [← List.append_assoc]
          exact ih left left.lt_succ_self

/-- A link at the end makes the difference between the two ways to walk. -/
theorem walk_concat_true : t.walk true links r (cs ++ [.named name]) =
      t.walk false links r (cs ++ [.named name]) ∨
    ∃ n dir target, t.walk false links r (cs ++ [.named name]) = .ok ((name, n) :: dir, none) ∧
      t.node? n = some (.link target) := by
  induction links using Nat.strongRecOn generalizing r cs with
  | ind links ih =>
    rw [walk, walk.eq_def t false, stride_concat, stride_concat]
    cases t.stride true r cs with
    | error e => exact .inl rfl
    | ok stop =>
      cases stop with
      | place dir absent' =>
        cases absent' with
        | some s => exact .inl rfl
        | none =>
          rcases t.stride_named_true dir name with hlast | ⟨n, target, hlast, hn⟩
          · left
            simp only [hlast]
            cases hlast : t.stride false dir [.named name] with
            | error e => rfl
            | ok stop =>
              obtain ⟨_, -, ⟨-, rfl⟩ | ⟨n, -, rfl⟩⟩ := stride_named_eq_ok_iff.mp hlast <;> rfl
          · exact .inr ⟨n, dir, target, by simp only [hlast], hn⟩
      | link dir target behind =>
        cases links with
        | zero => exact .inl rfl
        | succ left =>
          simp only [← List.append_assoc]
          exact ih left left.lt_succ_self

theorem place_join (hname : IsEntryName name) (hparent : name ≠ "..") :
    t.place followLast (p.join name) = t.walk followLast maxLinks [] (t.wayTo p ++ [.named name]) := by
  have hempty : (p.join name).text.isEmpty = false := by
    rw [Path.join_eq hname.single]
    simp [hname.nonempty]
  simp only [place, hempty, Path.asksForDirectory_join hname, Path.isAbsolute_join hname hparent,
    Path.components_join_named p hname hparent, wayTo, Bool.or_false, Bool.false_eq_true, if_false,
    List.append_assoc]

theorem locate_join_eq_ok_iff (hname : IsEntryName name) (hparent : name ≠ "..") :
    t.locate followLast (p.join name) = .ok r ↔
      t.walk followLast maxLinks [] (t.wayTo p ++ [.named name]) = .ok (r, none) := by
  rw [← place_join hname hparent, locate, Path.asksForDirectory_join hname]
  cases t.place followLast (p.join name) with
  | error e => simp
  | ok place =>
    obtain ⟨s, _ | absent⟩ := place <;> simp

theorem follows (t : FileTree) : t.view.Follows t.evalLinks t.isLink where
  evaluated _ _ := rfl
  compared a b h := by
    obtain ⟨r, s, hr, hs, -⟩ := sameFile_eq_ok_true_iff.mp h
    exact ⟨⟨_, evalLinks_eq_ok_iff.mpr ⟨r, hr, rfl⟩⟩, _, evalLinks_eq_ok_iff.mpr ⟨s, hs, rfl⟩⟩
  respelled a b p hab ha := by
    obtain ⟨r, hr, rfl⟩ := evalLinks_eq_ok_iff.mp ha
    rcases locate_of_same hab hr with hb | hb
    · exact .inl ⟨_, evalLinks_eq_ok_iff.mpr ⟨r, hb, rfl⟩, same_refl⟩
    · exact .inr ⟨notDirectory, by rw [evalLinks, hb]; rfl, by decide⟩
  kept kname p hname hparent hlink hp := by
    obtain ⟨r, hr, rfl⟩ := evalLinks_eq_ok_iff.mp hp
    rw [Path.node_eq_join hname.single] at hlink hr
    have hwalk := (locate_join_eq_ok_iff hname hparent).mp hr
    rcases walk_concat_true with hplain | ⟨n, dir, target, hlast, hn⟩
    · rw [hplain] at hwalk
      obtain ⟨dir, -, hlast⟩ := walk_concat_eq_ok_iff.mp hwalk
      obtain ⟨entries, -, ⟨-, hstop⟩ | ⟨n, -, hstop⟩⟩ := stride_named_eq_ok_iff.mp hlast
      · cases hstop
      · cases hstop
        exact fileName?_route hname hparent
    · -- The walk that follows no link at its end finds one there.
      have hlocate := (locate_join_eq_ok_iff hname hparent).mpr hlast
      have hnumber : t.node? (Route.number ((kname, n) :: dir)) = some (.link target) := hn
      simp [isLink, hlocate, hnumber] at hlink

/-- In a tree of single names, what is one file is one path. -/
theorem SingleNamed.not_secondName (H : t.SingleNamed) : ¬t.view.SecondName t.evalLinks a b := by
  rintro ⟨hsame, p, q, hp, hq, hpq⟩
  obtain ⟨r, s, hr, hs, hnumber⟩ := sameFile_eq_ok_true_iff.mp hsame
  obtain rfl : r = s := (isRoute_of_locate hr).eq_of_number H (isRoute_of_locate hs) hnumber
  obtain ⟨_, hr', rfl⟩ := evalLinks_eq_ok_iff.mp hp
  obtain ⟨_, hs', rfl⟩ := evalLinks_eq_ok_iff.mp hq
  cases hr.symm.trans hr'
  cases hs.symm.trans hs'
  rw [same_refl] at hpq
  cases hpq

end FileTree

end NodeDisks
