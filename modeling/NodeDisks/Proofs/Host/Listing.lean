import NodeDisks.Host.Basic
import NodeDisks.Host.FileTree
import NodeDisks.Host.Memory
import NodeDisks.Proofs.Path
import NodeDisks.Proofs.Path.Join

/-!
## Listings

Listings of directories. A file system is orderly if its listing of a directory consists of the paths
of entries: the path of the directory, one slash and a name. Directories that are spelled in another
way, and names that are empty, count as well where a file system just `ListsEntries`.
-/

namespace NodeDisks.FileView

/-- What is listed in a directory are entries of it. -/
def Orderly (files : FileView) : Prop :=
  ∀ names ps, names ≠ [] → (∀ n ∈ names, Path.IsLiteralName n) →
    files.glob (Path.spell names ++ "/*") = .ok ps →
      ∀ p ∈ ps, ∃ name, Path.IsEntryName name ∧ p = ⟨Path.spell (names ++ [name])⟩

/-- Of a directory whose path stands for itself in patterns are listed paths that are joined to it. -/
def ListsEntries (files : FileView) : Prop :=
  ∀ (dir : Path) ps, Glob.Literal dir.text.toList → files.glob (dir.join "*").text = .ok ps →
    ∀ p ∈ ps, ∃ name : String, '/' ∉ name.toList ∧ p.same (dir.join name) = true

end NodeDisks.FileView

/-!
## Files in memory

What a file system in memory lists. The listing of a directory is made of the stored paths that are
spelled as entries of it (`listsEntries`), so it is orderly when the stored paths are in normal form
(`Normal.orderly`).
-/

namespace NodeDisks.MemoryFiles

def stored (m : MemoryFiles) : List Path := m.files.paths ++ m.links.paths

/-- All paths are stored in normal form. -/
def Normal (m : MemoryFiles) : Prop := ∀ p ∈ m.stored, p.IsNormal

instance (m : MemoryFiles) : Decidable m.Normal := List.decidableBAll _ m.stored

/-- The spelling of the path is that of an entry of `dir`. -/
def isEntry (dir : String) (p : Path) : Bool :=
  Glob.accepts (dir.toList.map .literal ++ [.literal '/', .sequence]) p.text.toList

variable {m : MemoryFiles} {dir : String} {p : Path} {ps : List Path}

theorem glob_eq_ok_iff {pattern : String} : m.glob pattern = .ok ps ↔
    pattern ∉ m.brokenGlobs ∧ ∃ g, Glob.Pattern.compile pattern = .ok g ∧
      ps = Path.keepLast (Path.sort (m.stored.filter fun q => g.accepts q.text)) := by
  unfold glob
  by_cases hbroken : pattern ∈ m.brokenGlobs
  · simp [hbroken]
  · cases Glob.Pattern.compile pattern <;> simp [hbroken, stored, eq_comm]

/-- What is listed is stored and fits the pattern. -/
theorem mem_glob {pattern : String} {g : Glob.Pattern} (hg : Glob.Pattern.compile pattern = .ok g)
    (hps : m.glob pattern = .ok ps) (hp : p ∈ ps) :
    p ∈ m.stored ∧ g.accepts p.text = true := by
  obtain ⟨-, g', hg', rfl⟩ := glob_eq_ok_iff.mp hps
  cases hg.symm.trans hg'
  exact List.mem_filter.mp (Path.mem_sort.mp (Path.mem_of_mem_keepLast hp))

/-- What is stored and fits the pattern is listed, in some spelling. -/
theorem exists_same_mem_glob {pattern : String} {g : Glob.Pattern}
    (hg : Glob.Pattern.compile pattern = .ok g) (hps : m.glob pattern = .ok ps)
    (hp : p ∈ m.stored) (haccepts : g.accepts p.text = true) :
    ∃ q ∈ ps, q.same p = true := by
  obtain ⟨-, g', hg', rfl⟩ := glob_eq_ok_iff.mp hps
  cases hg.symm.trans hg'
  exact Path.exists_same_mem_keepLast
    (Path.mem_sort.mpr (List.mem_filter.mpr ⟨hp, haccepts⟩))

theorem mem_listing (hdir : Glob.Literal dir.toList) (hps : m.glob (dir ++ "/*") = .ok ps)
    (hp : p ∈ ps) :
    p ∈ m.stored ∧ ∃ name : String, p.text = dir ++ "/" ++ name ∧ '/' ∉ name.toList := by
  obtain ⟨hstored, hentry⟩ := mem_glob (Glob.compile_listing hdir) hps hp
  exact ⟨hstored, Glob.accepts_listing_iff.mp hentry⟩

/-- Paths that are stored in increasing order are listed as they are. -/
theorem glob_of_compile {pattern : String} {g : Glob.Pattern} (hbroken : pattern ∉ m.brokenGlobs)
    (hg : Glob.Pattern.compile pattern = .ok g)
    (hps : (m.stored.filter fun q => g.accepts q.text) = ps)
    (horder : ps.Pairwise fun a b => a.lt b = true) : m.glob pattern = .ok ps :=
  glob_eq_ok_iff.mpr ⟨hbroken, g, hg, by
    rw [hps, Path.sort_of_increasing horder, Path.keepLast_of_increasing horder]⟩

theorem glob_of_increasing (hdir : Glob.Literal dir.toList) (hlisted : dir ++ "/*" ∉ m.brokenGlobs)
    (hps : m.stored.filter (isEntry dir) = ps) (horder : ps.Pairwise fun a b => a.lt b = true) :
    m.glob (dir ++ "/*") = .ok ps :=
  glob_of_compile hlisted (Glob.compile_listing hdir) hps horder

theorem Normal.orderly (H : m.Normal) : m.view.Orderly := by
  intro names ps hne hnames hps p hp
  obtain ⟨hstored, name, htext, hname⟩ := mem_listing (Path.literal_spell hnames) hps hp
  have htext : p = ⟨Path.spell (names ++ [name])⟩ := by
    rw [Path.spell_concat, ← htext]
  subst htext
  exact ⟨name, (H _ hstored).isEntryName hne hnames hname, rfl⟩

/-- Whatever is stored, what fits the pattern of a directory is joined to it. -/
theorem listsEntries (m : MemoryFiles) : m.view.ListsEntries := by
  intro dir ps hdir hps p hp
  have hps : m.glob (dir.join "*").text = .ok ps := hps
  rw [Path.join_eq (by decide)] at hps
  obtain ⟨-, haccepts⟩ := mem_glob (Glob.compile_entries (Path.literal_stem hdir)) hps hp
  obtain ⟨name, htext, hname⟩ := Glob.accepts_entries_iff.mp haccepts
  refine ⟨name, hname, ?_⟩
  rw [Path.join_eq hname, ← htext]
  exact Path.same_refl

end NodeDisks.MemoryFiles

/-!
## Directory trees

What a tree of directories lists. The pattern for a directory falls into the names on the way to it
and a last piece that fits every name. The walk takes the names one by one, so what it finds are
entries of that directory (`Plain.orderly`), in whatever way its path is spelled
(`Plain.listsEntries`).
-/

namespace NodeDisks.FileTree

open NodeDisks.Path

/-- What directories call their entries are names of entries. -/
def Plain (t : FileTree) : Prop :=
  ∀ n entries, t.entriesOf? n = some entries → ∀ e ∈ entries, IsEntryName e.1

/-- The pattern that fits one name. -/
def ofName (name : String) : Glob.Pattern := ⟨name.toList.map .literal⟩

/-- The piece that fits every name. -/
def Piece.everyName : Piece := .pattern ⟨[.sequence]⟩

/-- The directory reached by way of `names`. -/
def reached (names : List String) : Path := if names.isEmpty then ⟨"/"⟩ else ⟨spell names⟩

/-- Where the walk for a pattern starts. -/
def startOf (pattern : String) : Path := if isAbsolute pattern then ⟨"/"⟩ else ⟨""⟩

variable {t : FileTree} {names before : List String} {name : String} {p dir : Path}
  {pieces : List (List Char)}

theorem Plain.isEntryName {found : List String} (H : t.Plain) (hfound : t.names? p = some found)
    (hname : name ∈ found) : IsEntryName name := by
  unfold names? at hfound
  split at hfound
  · cases hfound
  case h_2 r _ =>
    obtain ⟨entries, hentries, rfl⟩ := Option.map_eq_some_iff.mp hfound
    obtain ⟨e, he, rfl⟩ := List.mem_map.mp hname
    exact H _ _ hentries e he

/-! ### Pieces -/

theorem literalText?_map (cs : List Char) : Piece.literalText? (cs.map .literal) = some cs := by
  induction cs with
  | nil => rfl
  | cons c cs ih => simp [Piece.literalText?, ih]

theorem compile_literal (hname : Glob.Literal name.toList) :
    Glob.Pattern.compile name = .ok (ofName name) := by
  obtain ⟨start', h⟩ := Glob.tokens?_literal_append hname [] 0 0 true
  rw [List.append_nil, Nat.add_zero] at h
  rw [Glob.Pattern.compile, h]
  simp [Glob.tokens?, Except.map, ofName]

theorem mapM_compile (hnames : ∀ n ∈ names, Glob.Literal n.toList) :
    (names ++ ["*"]).mapM Glob.Pattern.compile =
      .ok (names.map ofName ++ [⟨[.sequence]⟩]) := by
  induction names with
  | nil => rfl
  | cons n names ih =>
    obtain ⟨hn, hnames⟩ := List.forall_mem_cons.mp hnames
    rw [List.cons_append, List.mapM_cons, compile_literal hn, ih hnames]
    rfl

theorem map_ofPattern (names : List String) :
    (names.map ofName ++ [(⟨[.sequence]⟩ : Glob.Pattern)]).map Piece.ofPattern =
      names.map .literal ++ [Piece.everyName] := by
  have hpiece (name : String) : Piece.ofPattern (ofName name) = .literal name := by
    simp [Piece.ofPattern, ofName, literalText?_map]
  have hpieces : Piece.ofPattern ∘ ofName = Piece.literal := funext hpiece
  rw [List.map_append, List.map_map, hpieces]
  rfl

theorem componentsOf_listing (hnames : ∀ n ∈ names, IsLiteralName n) :
    componentsOf (spell names ++ "/*") = names ++ ["*"] := by
  have hspell : spell names ++ "/*" = spell (names ++ ["*"]) := by
    rw [spell_concat, String.append_assoc]
    rfl
  have hall : ∀ n ∈ names ++ ["*"], '/' ∉ n.toList := List.forall_mem_append.mpr
    ⟨fun n hn => (hnames n hn).single, List.forall_mem_singleton.mpr (by decide)⟩
  have hne : names ++ ["*"] ≠ [] := by simp
  obtain ⟨rest, hrest⟩ := exists_toList_spell hne
  have hpieces : rest.splitOn '/' = (names ++ ["*"]).map String.toList := by
    have hsplit := splitOn_spell hall
    have hslash : ('/' :: rest).splitOn '/' = [] :: rest.splitOn '/' :=
      List.splitOn_append_cons_self_of_not_mem List.not_mem_nil rest
    rw [hrest, hslash] at hsplit
    exact (List.cons.inj hsplit).2
  have habsolute : isAbsolute (spell (names ++ ["*"])) = true := by simp [isAbsolute, hrest]
  have hlast : ((names ++ ["*"]).map String.toList).getLast? ≠ some [] := by simp
  rw [hspell, componentsOf]
  simp only [habsolute, if_true, hrest, List.drop_succ_cons, List.drop_zero, hpieces, hlast]
  simp

theorem componentsOf_of_split {pattern : String}
    (h : (if isAbsolute pattern then pattern.toList.drop 1 else pattern.toList).splitOn '/' =
      pieces ++ [['*']]) : componentsOf pattern = pieces.map String.ofList ++ ["*"] := by
  have hlast : (pieces ++ [['*']]).getLast? ≠ some [] := by simp
  rw [componentsOf]
  simp only [h, hlast]
  simp

/-! ### The walk -/

/-- The walk takes the names one by one, and ends at an entry of the directory that they lead to. -/
theorem mem_expand_literal (H : t.Plain) {depth : Nat}
    (hp : p ∈ t.expand depth (names.map .literal ++ [Piece.everyName]) dir) :
    ∃ name, IsEntryName name ∧ p = (names.foldl Path.join dir).join name := by
  induction names generalizing dir depth with
  | nil =>
    cases depth with
    | zero => simp [expand] at hp
    | succ depth =>
      obtain ⟨name, hname, -, rfl⟩ : ∃ name ∈ (t.names? dir).getD [],
          Piece.everyName.accepts name = true ∧ p = dir.join name := by
        simpa [expand, Piece.everyName, Piece.specialNames] using hp
      cases hfound : t.names? dir with
      | none => simp [hfound] at hname
      | some found => exact ⟨name, H.isEntryName hfound (by simpa [hfound] using hname), rfl⟩
  | cons n names ih =>
    cases depth with
    | zero => simp [expand] at hp
    | succ depth =>
      have hfound : p ∈ t.expand depth (names.map .literal ++ [Piece.everyName]) (dir.join n) := by
        by_cases hspecial : n = "." ∨ n = ".."
        · exact (show _ ∧ _ by simpa [expand, hspecial] using hp).2
        · exact (show _ ∧ _ by simpa [expand, hspecial] using hp).2
      exact ih hfound

/-- What is listed for names behind which a star stands is found where the names lead to. -/
theorem mem_glob_entries (H : t.Plain) {stem : String} {ps : List Path}
    (hstem : Glob.Literal stem.toList) (hnames : ∀ n ∈ names, Glob.Literal n.toList)
    (hcomponents : componentsOf (stem ++ "*") = names ++ ["*"])
    (hps : t.glob (stem ++ "*") = .ok ps) (hp : p ∈ ps) :
    ∃ name, IsEntryName name ∧ p = (names.foldl Path.join (startOf (stem ++ "*"))).join name := by
  rw [glob, Glob.compile_entries hstem, hcomponents, mapM_compile hnames] at hps
  simp only [map_ofPattern] at hps
  cases hps
  obtain ⟨hfound, -⟩ := List.mem_filter.mp (mem_sort.mp hp)
  exact mem_expand_literal H hfound

/-! ### Directories spelled by names -/

theorem join_reached (hbefore : ∀ n ∈ before, IsLiteralName n) (hname : IsEntryName name) :
    (reached before).join name = ⟨spell (before ++ [name])⟩ := by
  rcases List.eq_nil_or_concat before with rfl | ⟨init, last, rfl⟩
  · simp [reached, join, isAbsolute_eq_false hname.single, spell]
  · have hlast := (hbefore last (by simp)).toIsEntryName
    have hreached : reached (init ++ [last]) = ⟨spell (init ++ [last])⟩ := by simp [reached]
    have htext := join_spell init hlast hname.single
    rw [← spell_concat] at htext
    rw [List.concat_eq_append, hreached]
    exact congrArg Path.mk htext

theorem join_reached_eq_reached (hbefore : ∀ n ∈ before, IsLiteralName n)
    (hname : IsEntryName name) : (reached before).join name = reached (before ++ [name]) := by
  rw [join_reached hbefore hname]
  simp [reached]

theorem foldl_join_reached (hbefore : ∀ n ∈ before, IsLiteralName n)
    (hnames : ∀ n ∈ names, IsLiteralName n) :
    names.foldl Path.join (reached before) = reached (before ++ names) := by
  induction names generalizing before with
  | nil => rw [List.foldl_nil, List.append_nil]
  | cons n names ih =>
    obtain ⟨hn, hnames⟩ := List.forall_mem_cons.mp hnames
    have hreached : ∀ m ∈ before ++ [n], IsLiteralName m :=
      List.forall_mem_append.mpr ⟨hbefore, List.forall_mem_singleton.mpr hn⟩
    rw [List.foldl_cons, join_reached_eq_reached hbefore hn.toIsEntryName, ih hreached hnames,
      List.append_assoc, List.singleton_append]

theorem Plain.orderly (H : t.Plain) : t.view.Orderly := by
  rintro names ps - hnames hps p hp
  have hstar : spell names ++ "/*" = spell names ++ "/" ++ "*" := by
    rw [String.append_assoc]
    rfl
  have hps : t.glob (spell names ++ "/*") = .ok ps := hps
  have hstem : Glob.Literal (spell names ++ "/").toList := by
    rw [String.toList_append]
    exact List.forall_mem_append.mpr ⟨literal_spell hnames, Glob.literal_slash⟩
  have hstart : startOf (spell names ++ "/" ++ "*") = reached [] := by
    cases names <;> simp [startOf, reached, isAbsolute, spell]
  have hcomponents := componentsOf_listing hnames
  rw [hstar] at hps hcomponents
  obtain ⟨name, hname, rfl⟩ := mem_glob_entries H hstem (fun n hn => (hnames n hn).literal)
    hcomponents hps hp
  refine ⟨name, hname, ?_⟩
  rw [hstart, foldl_join_reached (List.forall_mem_nil _) hnames, List.nil_append,
    join_reached hnames hname]

/-! ### Directories of any spelling -/

theorem splitOn_star (cs : List Char) :
    (cs ++ ['/', '*']).splitOn '/' = cs.splitOn '/' ++ [['*']] := by
  rw [List.splitOn_append_cons_self]
  rfl

/-- The pieces of the pattern for a directory lead to that directory. -/
structure Way (dir : Path) (pieces : List (List Char)) : Prop where
  componentsOf : componentsOf (dir.stem ++ "*") = pieces.map String.ofList ++ ["*"]
  single : ∀ piece ∈ pieces, '/' ∉ piece
  subset : ∀ piece ∈ pieces, piece ⊆ dir.stem.toList
  reached : ((pieces.map String.ofList).foldl Path.join (startOf (dir.stem ++ "*"))).text ≠ ""
  components : ((pieces.map String.ofList).foldl Path.join (startOf (dir.stem ++ "*"))).components =
    dir.components

theorem forall_map_ofList (hsingle : ∀ piece ∈ pieces, '/' ∉ piece) :
    ∀ n ∈ pieces.map String.ofList, '/' ∉ n.toList := by
  simpa using hsingle

/-- From the root, the pieces lead to the directory. -/
theorem way_of_absolute {cs : List Char} (hdir : dir.text ≠ "")
    (hstem : dir.stem.toList = '/' :: (cs ++ ['/'])) : Way dir (cs.splitOn '/') := by
  have hsingle : ∀ piece ∈ cs.splitOn '/', '/' ∉ piece := fun _ h => not_mem_of_mem_splitOn h
  have hnames := forall_map_ofList hsingle
  have habsolute : isAbsolute (dir.stem ++ "*") = true := by simp [isAbsolute, hstem]
  have hroot : (⟨"/"⟩ : Path).text ≠ "" := by decide
  have hcomponents : dir.components =
      .root :: (cs.splitOn '/').filterMap Component.ofPiece? := by
    rw [← components_stem hdir, components_of_slash (p := ⟨dir.stem⟩) hstem, splitOn_concat,
      filterMap_concat_nil]
  refine ⟨componentsOf_of_split ?_, hsingle, ?_, ?_, ?_⟩
  · simp [habsolute, hstem, splitOn_star]
  · intro piece hpiece
    rw [hstem]
    have hsubset := List.subset_append_of_subset_left ['/'] (subset_of_mem_splitOn hpiece)
    exact List.subset_cons_of_subset '/' hsubset
  · rw [startOf, if_pos habsolute]
    exact foldl_join_text_ne_empty hroot hnames
  · rw [startOf, if_pos habsolute, components_foldl_join hroot hnames, hcomponents]
    simp [Function.comp_def]
    rfl

theorem way_of_root (hdir : dir.text ≠ "") (hstem : dir.stem = "/") : Way dir [] := by
  have habsolute : isAbsolute (dir.stem ++ "*") = true := by
    rw [hstem]
    rfl
  refine ⟨?_, by simp, by simp, ?_, ?_⟩
  · rw [hstem]
    decide
  · rw [startOf, if_pos habsolute]
    decide
  · rw [startOf, if_pos habsolute, ← components_stem hdir, hstem]
    rfl

/-- From where relative paths start, the first piece leads to a path that is not empty. -/
theorem way_of_relative {c : Char} {cs : List Char} (hdir : dir.text ≠ "") (hc : c ≠ '/')
    (hstem : dir.stem.toList = c :: cs ++ ['/']) : Way dir ((c :: cs).splitOn '/') := by
  have hsingle : ∀ piece ∈ (c :: cs).splitOn '/', '/' ∉ piece :=
    fun _ h => not_mem_of_mem_splitOn h
  have hrelative : isAbsolute (dir.stem ++ "*") = false := by simp [isAbsolute, hstem, hc]
  obtain ⟨first, pieces, hsplit⟩ : ∃ first pieces,
      (c :: cs).splitOn '/' = (c :: first) :: pieces := by
    rw [List.splitOn_cons_eq_if_modifyHead, if_neg (by simpa using hc)]
    cases hpieces : cs.splitOn '/' with
    | nil => exact absurd hpieces (List.splitOn_ne_nil '/' cs)
    | cons piece pieces => exact ⟨piece, pieces, rfl⟩
  have hfirst : '/' ∉ c :: first := hsingle _ (by rw [hsplit]; exact .head _)
  have hnames := forall_map_ofList fun piece hpiece =>
    hsingle piece (by rw [hsplit]; exact .tail _ hpiece)
  have hjoin : Path.join ⟨""⟩ (String.ofList (c :: first)) = ⟨String.ofList (c :: first)⟩ := by
    rw [join_eq (by simpa using hfirst)]
    simp [stem]
  have hne : (⟨String.ofList (c :: first)⟩ : Path).text ≠ "" := by simp [← String.toList_inj]
  have hcomponents : dir.components =
      ofPieces [c :: first] ++ pieces.filterMap Component.ofPiece? := by
    rw [← components_stem hdir, components_eq_ofPieces, hstem, splitOn_concat, hsplit,
      List.cons_append, ← List.singleton_append, ofPieces_append (by simp) (by simp),
      filterMap_concat_nil]
  refine ⟨componentsOf_of_split ?_, hsingle, ?_, ?_, ?_⟩
  · simp only [hrelative, Bool.false_eq_true, if_false, String.toList_append, hstem]
    rw [List.append_assoc]
    exact splitOn_star (c :: cs)
  · intro piece hpiece
    rw [hstem]
    exact List.subset_append_of_subset_left ['/'] (subset_of_mem_splitOn hpiece)
  · rw [startOf, hrelative, hsplit, List.map_cons, List.foldl_cons]
    simp only [Bool.false_eq_true, if_false, hjoin]
    exact foldl_join_text_ne_empty hne hnames
  · rw [startOf, hrelative, hsplit, List.map_cons, List.foldl_cons]
    simp only [Bool.false_eq_true, if_false, hjoin]
    rw [components_foldl_join hne hnames, hcomponents, components_eq_ofPieces, String.toList_ofList,
      List.splitOn_eq_singleton hfirst]
    simp [Function.comp_def]

theorem exists_way (hdir : dir.text ≠ "") : ∃ pieces, Way dir pieces := by
  obtain ⟨u, hu⟩ := exists_stem_eq hdir
  cases htext : u.toList with
  | nil =>
    obtain rfl : u = "" := String.toList_inj.mp htext
    exact ⟨[], way_of_root hdir hu⟩
  | cons c cs =>
    have hstem : dir.stem.toList = c :: cs ++ ['/'] := by simp [hu, htext]
    by_cases hc : c = '/'
    · subst hc
      exact ⟨_, way_of_absolute hdir hstem⟩
    · exact ⟨_, way_of_relative hdir hc hstem⟩

/-- Whatever way a directory is spelled, its entries are listed. -/
theorem Plain.listsEntries (H : t.Plain) : t.view.ListsEntries := by
  intro dir ps hdir hps p hp
  have hps : t.glob (dir.join "*").text = .ok ps := hps
  rw [join_eq (by decide)] at hps
  have hstem : Glob.Literal dir.stem.toList := literal_stem hdir
  by_cases hempty : dir.text = ""
  · obtain rfl : dir = ⟨""⟩ := congrArg Path.mk hempty
    have hcomponents : componentsOf (stem ⟨""⟩ ++ "*") = [] ++ ["*"] := by decide
    obtain ⟨name, hname, rfl⟩ := mem_glob_entries H hstem (by simp) hcomponents hps hp
    exact ⟨name, hname.single, same_refl⟩
  · obtain ⟨pieces, hway⟩ := exists_way hempty
    have hnames : ∀ n ∈ pieces.map String.ofList, Glob.Literal n.toList := by
      intro n hn c hc
      obtain ⟨piece, hpiece, rfl⟩ := List.mem_map.mp hn
      exact hstem c (hway.subset piece hpiece (by simpa using hc))
    obtain ⟨name, hname, rfl⟩ := mem_glob_entries H hstem hnames hway.componentsOf hps hp
    refine ⟨name, hname.single, same_iff.mpr ?_⟩
    rw [components_join hway.reached hname.single, hway.components,
      components_join hempty hname.single]

end NodeDisks.FileTree
