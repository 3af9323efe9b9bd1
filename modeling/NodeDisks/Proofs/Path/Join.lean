import NodeDisks.Proofs.Path.Below

/-!
Components of joined paths. A path is cut at its slashes, and behind a path that is not empty each
piece adds the component that it stands for (`components_join`); so what is joined to a directory lies
under it (`isUnder_join`).
-/

namespace NodeDisks.Path

variable {p dir : Path} {name : String} {names : List String} {piece : List Char}
  {pieces more : List (List Char)}

/-- The components of a path that is cut into these pieces. -/
def ofPieces : List (List Char) → List Component
  | [] => []
  | [] :: [] => []
  | [] :: pieces => .root :: pieces.filterMap Component.ofPiece?
  | ['.'] :: pieces => .current :: pieces.filterMap Component.ofPiece?
  | pieces => pieces.filterMap Component.ofPiece?

theorem components_eq_ofPieces (p : Path) :
    p.components = ofPieces (p.text.toList.splitOn '/') := rfl

/-- Only the first piece counts in a way of its own. -/
theorem ofPieces_append (hne : pieces ≠ []) (hsome : pieces ≠ [[]]) :
    ofPieces (pieces ++ more) = ofPieces pieces ++ more.filterMap Component.ofPiece? := by
  obtain ⟨piece, pieces, rfl⟩ := List.exists_cons_of_ne_nil hne
  by_cases hempty : piece = []
  · subst hempty
    cases pieces with
    | nil => exact absurd rfl hsome
    | cons piece pieces =>
      change .root :: (piece :: pieces ++ more).filterMap Component.ofPiece? = _
      rw [List.filterMap_append]
      rfl
  · by_cases hcurrent : piece = ['.']
    · subst hcurrent
      simp [ofPieces]
    · have hplain (ps : List (List Char)) :
          ofPieces (piece :: ps) = (piece :: ps).filterMap Component.ofPiece? := by
        simp [ofPieces, hempty, hcurrent]
      rw [hplain, List.cons_append, hplain, ← List.cons_append, List.filterMap_append]

theorem root_not_mem_filterMap : .root ∉ pieces.filterMap Component.ofPiece? := by
  intro h
  obtain ⟨piece, -, hpiece⟩ := List.mem_filterMap.mp h
  exact Component.ofPiece?_ne_root hpiece

/-- The root comes first or not at all. -/
theorem root_not_mem_tail_components (p : Path) : .root ∉ p.components.tail := by
  rw [components_eq_ofPieces]
  unfold ofPieces
  split
  case h_1 | h_2 => exact List.not_mem_nil
  case h_3 | h_4 => exact root_not_mem_filterMap
  case h_5 => exact fun h => root_not_mem_filterMap (List.mem_of_mem_tail h)

theorem root_not_mem_components (hp : isAbsolute p.text = false) : .root ∉ p.components := by
  have hhead : p.components.head? ≠ some .root := mt isAbsolute_iff.mpr (by simp [hp])
  have htail := root_not_mem_tail_components p
  cases hcomponents : p.components with
  | nil => exact List.not_mem_nil
  | cons c cs =>
    rw [hcomponents] at hhead htail
    have hne : c ≠ .root := fun h => hhead (by rw [h, List.head?_cons])
    exact List.not_mem_cons_of_ne_of_not_mem hne.symm htail

/-- What stands in front of a name that is joined to the path. -/
def stem (p : Path) : String :=
  if p.text = "" ∨ p.text.toList.getLast? = some '/' then p.text else p.text ++ "/"

theorem join_eq (hname : '/' ∉ name.toList) : p.join name = ⟨p.stem ++ name⟩ := by
  simp only [join, stem, isAbsolute_eq_false hname, Bool.false_eq_true, if_false, Bool.or_eq_true,
    String.isEmpty_iff, beq_iff_eq]
  split <;> rfl

theorem node_eq_join (hname : '/' ∉ name.toList) :
    (⟨"/dev/" ++ name⟩ : Path) = join ⟨"/dev"⟩ name := by
  have hstem : stem ⟨"/dev"⟩ = "/dev/" := by decide
  rw [join_eq hname, hstem]

theorem literal_stem (hp : Glob.Literal p.text.toList) : Glob.Literal p.stem.toList := by
  unfold stem
  split
  · exact hp
  · rw [String.toList_append]
    exact List.forall_mem_append.mpr ⟨hp, Glob.literal_slash⟩

theorem filterMap_piece (cs : List Char) :
    [cs].filterMap Component.ofPiece? = (Component.ofPiece? cs).toList := by
  cases h : Component.ofPiece? cs <;> simp [h]

theorem filterMap_concat_nil :
    (pieces ++ [[]]).filterMap Component.ofPiece? = pieces.filterMap Component.ofPiece? := by
  rw [List.filterMap_append, filterMap_piece]
  exact List.append_nil _

theorem splitOn_concat (cs : List Char) : (cs ++ ['/']).splitOn '/' = cs.splitOn '/' ++ [[]] := by
  rw [List.splitOn_append_cons_self, List.splitOn_nil]

/-- A text that is not empty is cut into more than one empty piece. -/
theorem splitOn_ne_singleton_nil {cs : List Char} (hcs : cs ≠ []) : cs.splitOn '/' ≠ [[]] :=
  fun h => hcs (splitOn_inj (h.trans (List.splitOn_nil '/').symm))

theorem subset_of_mem_splitOn {cs piece : List Char} (h : piece ∈ cs.splitOn '/') :
    piece ⊆ cs := by
  induction cs generalizing piece with
  | nil =>
    obtain rfl : piece = [] := by simpa using h
    exact List.nil_subset _
  | cons c cs ih =>
    rw [List.splitOn_cons_eq_if_modifyHead] at h
    split at h
    · rcases List.mem_cons.mp h with rfl | h
      · exact List.nil_subset _
      · exact List.subset_cons_of_subset c (ih h)
    · cases hpieces : cs.splitOn '/' with
      | nil => exact absurd hpieces (List.splitOn_ne_nil '/' cs)
      | cons first pieces =>
        rw [hpieces] at h ih
        rcases List.mem_cons.mp h with rfl | h
        · exact List.cons_subset_cons c (ih (.head _))
        · exact List.subset_cons_of_subset c (ih (.tail _ h))

theorem components_join (hp : p.text ≠ "") (hname : '/' ∉ name.toList) :
    (p.join name).components = p.components ++ (Component.ofPiece? name.toList).toList := by
  have htext : p.text.toList ≠ [] := fun h => hp (String.toList_inj.mp h)
  have hname' : name.toList.splitOn '/' = [name.toList] := List.splitOn_eq_singleton hname
  rw [join_eq hname, components_eq_ofPieces, components_eq_ofPieces, stem]
  by_cases hlast : p.text.toList.getLast? = some '/'
  · -- The empty piece behind the last slash makes room for the name.
    obtain ⟨cs, hcs⟩ := List.getLast?_eq_some_iff.mp hlast
    have hjoined : (p.text ++ name).toList = cs ++ '/' :: name.toList := by simp [hcs]
    rw [if_pos (.inr hlast), hjoined, hcs, List.splitOn_append_cons_self,
      List.splitOn_append_cons_self, hname', List.splitOn_nil]
    by_cases hroot : cs = []
    · subst hroot
      simp [ofPieces, filterMap_piece, Component.ofPiece?]
    · have hne := List.splitOn_ne_nil '/' cs
      have hsome := splitOn_ne_singleton_nil hroot
      rw [ofPieces_append hne hsome, ofPieces_append hne hsome, filterMap_piece, filterMap_piece]
      simp [Component.ofPiece?]
  · have hjoined : (p.text ++ "/" ++ name).toList = p.text.toList ++ '/' :: name.toList := by simp
    rw [if_neg (not_or.mpr ⟨hp, hlast⟩), hjoined, List.splitOn_append_cons_self, hname',
      ofPieces_append (List.splitOn_ne_nil _ _) (splitOn_ne_singleton_nil htext), filterMap_piece]

theorem join_text_ne_empty (hp : p.text ≠ "") (hname : '/' ∉ name.toList) :
    (p.join name).text ≠ "" := by
  rw [join_eq hname, stem]
  split <;> simp [hp]

theorem foldl_join_text_ne_empty (hp : p.text ≠ "") (hnames : ∀ n ∈ names, '/' ∉ n.toList) :
    (names.foldl join p).text ≠ "" := by
  induction names generalizing p with
  | nil => exact hp
  | cons n names ih =>
    obtain ⟨hn, hnames⟩ := List.forall_mem_cons.mp hnames
    exact ih (join_text_ne_empty hp hn) hnames

/-- Behind a path that is not empty, names are joined one by one. -/
theorem components_foldl_join (hp : p.text ≠ "") (hnames : ∀ n ∈ names, '/' ∉ n.toList) :
    (names.foldl join p).components =
      p.components ++ (names.map String.toList).filterMap Component.ofPiece? := by
  induction names generalizing p with
  | nil => simp
  | cons n names ih =>
    obtain ⟨hn, hnames⟩ := List.forall_mem_cons.mp hnames
    rw [List.foldl_cons, ih (join_text_ne_empty hp hn) hnames, components_join hp hn,
      List.map_cons, List.append_assoc, ← filterMap_piece, ← List.filterMap_append,
      List.singleton_append]

/-- A path that is not empty has the components of its stem. -/
theorem components_stem (hp : p.text ≠ "") : components ⟨p.stem⟩ = p.components := by
  have hjoin : (p.join "").components = p.components ++ [] := components_join hp (by simp)
  rwa [join_eq (by simp), String.append_empty, List.append_nil] at hjoin

theorem exists_stem_eq (hp : p.text ≠ "") : ∃ u : String, p.stem = u ++ "/" := by
  unfold stem
  split
  case isTrue h =>
    obtain ⟨cs, hcs⟩ := List.getLast?_eq_some_iff.mp (h.resolve_left hp)
    exact ⟨String.ofList cs, by simp [← String.toList_inj, hcs]⟩
  case isFalse => exact ⟨p.text, rfl⟩

/-- The name of an entry is the last component, whatever directory it is joined to. -/
theorem components_join_named (dir : Path) (hname : IsEntryName name) (hparent : name ≠ "..") :
    (dir.join name).components = dir.components ++ [.named name] := by
  have hpiece := Component.ofPiece?_of_name hname.nonempty hname.notCurrent hparent
  by_cases hdir : dir.text = ""
  · have hne : name.toList ≠ [] := fun h => hname.nonempty (String.toList_inj.mp h)
    have hcurrent : name.toList ≠ ['.'] := fun h => hname.notCurrent (String.toList_inj.mp h)
    have htext : (dir.join name).text = name := by
      rw [join_eq hname.single, stem, if_pos (.inl hdir), hdir, String.empty_append]
    rw [components_eq_nil_iff.mpr hdir, components_eq_ofPieces, htext,
      List.splitOn_eq_singleton hname.single, List.nil_append]
    simp [ofPieces, hne, hcurrent, hpiece]
  · rw [components_join hdir hname.single, hpiece, Option.toList_some]

theorem isAbsolute_join (hname : IsEntryName name) (hparent : name ≠ "..") :
    isAbsolute (dir.join name).text = isAbsolute dir.text := by
  rw [Bool.eq_iff_iff, isAbsolute_iff, isAbsolute_iff, components_join_named dir hname hparent]
  cases dir.components <;> simp

theorem fileName?_join (hname : IsEntryName name) (hparent : name ≠ "..") :
    (dir.join name).fileName? = some name := by
  rw [fileName?, components_join_named dir hname hparent, List.getLast?_concat]

theorem asksForDirectory_join (hname : IsEntryName name) :
    (dir.join name).asksForDirectory = false := by
  rw [join_eq hname.single]
  exact asksForDirectory_append _ hname

/-- A text is cut behind its last slash. -/
theorem exists_append_piece (cs : List Char) :
    ∃ front piece, cs = front ++ piece ∧ '/' ∉ piece ∧ (front = [] ∨ front.getLast? = some '/') := by
  induction cs with
  | nil => exact ⟨[], [], rfl, List.not_mem_nil, .inl rfl⟩
  | cons c cs ih =>
    obtain ⟨front, piece, rfl, hpiece, rfl | hfront⟩ := ih
    · by_cases hc : c = '/'
      · exact ⟨['/'], piece, by simp [hc], hpiece, .inr rfl⟩
      · exact ⟨[], c :: piece, rfl, List.not_mem_cons_of_ne_of_not_mem (Ne.symm hc) hpiece, .inl rfl⟩
    · exact ⟨c :: front, piece, rfl, hpiece, .inr (by simp [List.getLast?_cons, hfront])⟩

/-- A path with a file name, unless it asks for a directory, is that name in some directory. -/
theorem exists_join_of_fileName? (hfile : p.fileName? = some name)
    (hplain : p.asksForDirectory = false) :
    ∃ dir : Path, p = dir.join name ∧ IsEntryName name ∧ name ≠ ".." := by
  obtain ⟨front, piece, htext, hpiece, hfront⟩ := exists_append_piece p.text.toList
  have hsingle : '/' ∉ (String.ofList piece).toList := by simpa using hpiece
  have hjoin : p = (⟨String.ofList front⟩ : Path).join (String.ofList piece) := by
    have hstem : stem ⟨String.ofList front⟩ = String.ofList front := by
      rw [stem, if_pos]
      simpa using hfront
    rw [join_eq hsingle, hstem]
    exact congrArg Path.mk (String.toList_inj.mp (by simp [htext]))
  -- A last piece that is no name leaves no file name, or asks for a directory.
  have hname : piece ≠ [] ∧ piece ≠ ['.'] ∧ piece ≠ ['.', '.'] := by
    rcases hfront with rfl | hfront
    · have hcomponents : p.components = ofPieces [piece] := by
        rw [components_eq_ofPieces, htext, List.nil_append, List.splitOn_eq_singleton hpiece]
      refine ⟨?_, ?_, ?_⟩ <;> rintro rfl <;> simp [fileName?, hcomponents, ofPieces,
        Component.ofPiece?] at hfile
    · obtain ⟨init, rfl⟩ := List.getLast?_eq_some_iff.mp hfront
      refine ⟨?_, ?_, ?_⟩ <;> rintro rfl
      · simp [asksForDirectory, htext] at hplain
      · simp [asksForDirectory, htext] at hplain
      · have hne : (⟨String.ofList (init ++ ['/'])⟩ : Path).text ≠ "" := by
          simp [← String.toList_inj]
        rw [hjoin, fileName?, components_join hne hsingle] at hfile
        simp [Component.ofPiece?] at hfile
  have hentry : IsEntryName (String.ofList piece) :=
    ⟨by simpa [← String.toList_inj] using hname.1, hsingle,
      by simpa [← String.toList_inj] using hname.2.1⟩
  have hparent : String.ofList piece ≠ ".." := by simpa [← String.toList_inj] using hname.2.2
  rw [hjoin, fileName?_join hentry hparent] at hfile
  cases hfile
  exact ⟨_, hjoin, hentry, hparent⟩

theorem dropTail_of_plain (hplain : p.asksForDirectory = false) :
    dropTail p.text.toList.reverse = p.text.toList.reverse := by
  unfold asksForDirectory at hplain
  split at hplain
  case h_1 | h_2 => cases hplain
  case h_3 hslash hpoint =>
    unfold dropTail
    split
    case h_1 heq => exact absurd heq (hslash _)
    case h_2 heq => exact absurd heq (hslash _)
    case h_3 heq => exact absurd heq (hslash _)
    case h_4 heq => exact absurd heq (hpoint _)
    case h_5 => rfl

/-- Another extension keeps the directory and a front of the file name. -/
theorem exists_withExtension_join (hname : IsEntryName name) (hparent : name ≠ "..")
    (extension : String) : ∃ kept, kept ≠ "" ∧ kept.toList <+: name.toList ∧
      (dir.join name).withExtension extension = ⟨dir.stem ++ (kept ++ "." ++ extension)⟩ := by
  have hwhole : dropTail (dir.join name).text.toList.reverse =
      name.toList.reverse ++ dir.stem.toList.reverse := by
    rw [dropTail_of_plain (asksForDirectory_join hname), join_eq hname.single]
    simp
  rw [withExtension, fileName?_join hname hparent]
  simp only [hwhole]
  generalize (name.toList.reverse.takeWhile (· != '.')).length + 1 = tail
  by_cases htail : tail < name.length
  · have hlength : tail < name.toList.length := htail
    refine ⟨String.ofList (name.toList.take (name.toList.length - tail)), ?_, ?_, ?_⟩
    · have hne : name.toList ≠ [] := List.ne_nil_of_length_pos (by omega)
      simp [← String.toList_inj, List.take_eq_nil_iff, hne]
      omega
    · simpa using List.take_prefix _ _
    · have hle : tail ≤ name.toList.reverse.length := by simpa using Nat.le_of_lt hlength
      rw [if_pos htail, List.drop_append_of_le_length hle, List.drop_reverse]
      simp [← String.toList_inj]
  · refine ⟨name, hname.nonempty, List.prefix_refl _, ?_⟩
    rw [if_neg htail]
    simp [← String.toList_inj]

/-- What is joined to a directory lies under it. -/
theorem isUnder_join (hname : '/' ∉ name.toList) : (dir.join name).isUnder dir = true := by
  rw [isUnder, List.isPrefixOf_iff_prefix]
  by_cases hdir : dir.text = ""
  · rw [components_eq_nil_iff.mpr hdir]
    exact List.nil_prefix
  · rw [components_join hdir hname]
    exact List.prefix_append _ _

end NodeDisks.Path
