import NodeDisks.Path
import NodeDisks.Proofs.Glob

/-!
Paths put together from names. Text `spell names` is the absolute path through `names`: its
components are those names, its file name is the last of them, and no other names spell it
(`spell_inj`).
-/

namespace NodeDisks

namespace Component

variable {cs : List Char} {name : String}

/-- A piece stands for a component unless it is empty or a lone point. -/
theorem ofPiece?_eq_none_iff : ofPiece? cs = none ↔ cs = [] ∨ cs = ['.'] := by
  unfold ofPiece?
  split <;> simp_all

theorem ofPiece?_of_name (hempty : name ≠ "") (hcurrent : name ≠ ".") (hparent : name ≠ "..") :
    ofPiece? name.toList = some (.named name) := by
  have hempty : name.toList ≠ [] := fun h => hempty (String.toList_inj.mp h)
  have hcurrent : name.toList ≠ ['.'] := fun h => hcurrent (String.toList_inj.mp h)
  have hparent : name.toList ≠ ['.', '.'] := fun h => hparent (String.toList_inj.mp h)
  unfold ofPiece?
  split <;> simp_all

theorem ofPiece?_ne_root : ofPiece? cs ≠ some .root := by
  unfold ofPiece?
  split <;> simp

end Component

namespace Path

/-- The name of a directory entry. -/
structure IsEntryName (name : String) : Prop where
  nonempty : name ≠ ""
  single : '/' ∉ name.toList
  notCurrent : name ≠ "."

/-- A name that stands for itself, in a path and in a pattern. -/
structure IsLiteralName (name : String) : Prop extends IsEntryName name where
  notParent : name ≠ ".."
  literal : Glob.Literal name.toList

instance (name : String) : Decidable (IsEntryName name) :=
  decidable_of_iff (name ≠ "" ∧ '/' ∉ name.toList ∧ name ≠ ".")
    ⟨fun ⟨h₁, h₂, h₃⟩ => ⟨h₁, h₂, h₃⟩, fun ⟨h₁, h₂, h₃⟩ => ⟨h₁, h₂, h₃⟩⟩

instance (name : String) : Decidable (IsLiteralName name) :=
  decidable_of_iff (IsEntryName name ∧ name ≠ ".." ∧ Glob.Literal name.toList)
    ⟨fun ⟨h₁, h₂, h₃⟩ => ⟨h₁, h₂, h₃⟩, fun ⟨h₁, h₂, h₃⟩ => ⟨h₁, h₂, h₃⟩⟩

/-- The absolute path through `names`. -/
def spell : List String → String
  | [] => ""
  | name :: names => "/" ++ name ++ spell names

/-- Every piece after a slash stands for a component. -/
def IsNormal (p : Path) : Prop :=
  p.text = "/" ∨ ∀ piece ∈ (p.text.toList.splitOn '/').tail, Component.ofPiece? piece ≠ none

instance (p : Path) : Decidable (IsNormal p) := inferInstanceAs (Decidable (_ ∨ _))

variable {names names' : List String} {name : String}

/-- A name that leads back starts with no literal name. -/
theorem IsLiteralName.not_prefix_parent (hname : IsLiteralName name) :
    ¬name.toList <+: "..".toList := by
  have hparent : name.toList ≠ "..".toList := fun h => hname.notParent (String.toList_inj.mp h)
  have hcurrent : name.toList ≠ ".".toList := fun h => hname.notCurrent (String.toList_inj.mp h)
  have hempty : name.toList ≠ "".toList := fun h => hname.nonempty (String.toList_inj.mp h)
  intro hprefix
  obtain ⟨rest, hrest⟩ := hprefix
  match hlist : name.toList with
  | [] => exact hempty hlist
  | [a] => simp_all
  | [a, b] => simp_all
  | a :: b :: c :: cs => simp_all

/-! ### How a path starts -/

section Start

variable {p : Path} {c : Char} {cs : List Char}

theorem components_of_slash (h : p.text.toList = '/' :: cs) :
    p.components = .root :: (cs.splitOn '/').filterMap Component.ofPiece? := by
  have hsplit : ('/' :: cs).splitOn '/' = [] :: cs.splitOn '/' :=
    List.splitOn_append_cons_self_of_not_mem List.not_mem_nil cs
  rw [components, h, hsplit]
  cases hpieces : cs.splitOn '/' with
  | nil => exact absurd hpieces (List.splitOn_ne_nil '/' cs)
  | cons piece pieces => rfl

theorem head?_components_of_ne_slash (h : p.text.toList = c :: cs) (hc : c ≠ '/') :
    ∃ first, p.components.head? = some first ∧ first ≠ .root := by
  obtain ⟨piece, pieces, hsplit⟩ : ∃ piece pieces,
      (c :: cs).splitOn '/' = (c :: piece) :: pieces := by
    rw [List.splitOn_cons_eq_if_modifyHead, if_neg (by simpa using hc)]
    cases hpieces : cs.splitOn '/' with
    | nil => exact absurd hpieces (List.splitOn_ne_nil '/' cs)
    | cons piece pieces => exact ⟨piece, pieces, rfl⟩
  rw [components, h, hsplit]
  by_cases hcurrent : c :: piece = ['.']
  · rw [hcurrent]
    exact ⟨.current, rfl, by simp⟩
  · cases hpiece : Component.ofPiece? (c :: piece) with
    | none => simp [Component.ofPiece?_eq_none_iff, hcurrent] at hpiece
    | some first =>
      refine ⟨first, ?_, fun hroot => Component.ofPiece?_ne_root (hroot ▸ hpiece)⟩
      split <;> simp_all

theorem isAbsolute_iff : isAbsolute p.text = true ↔ p.components.head? = some .root := by
  cases h : p.text.toList with
  | nil => simp [isAbsolute, components, h]
  | cons c cs =>
    by_cases hc : c = '/'
    · subst hc
      simp [isAbsolute, h, components_of_slash h]
    · obtain ⟨first, hfirst, hne⟩ := head?_components_of_ne_slash h hc
      simp [isAbsolute, h, hc, hfirst, hne]

theorem components_eq_nil_iff : p.components = [] ↔ p.text = "" := by
  rw [← String.toList_eq_nil_iff]
  cases h : p.text.toList with
  | nil => simp [components, h]
  | cons c cs =>
    by_cases hc : c = '/'
    · subst hc
      simp [components_of_slash h]
    · obtain ⟨first, hfirst, -⟩ := head?_components_of_ne_slash h hc
      rw [← List.head?_eq_none_iff, hfirst]
      simp

end Start

/-! ### Paths through names -/

theorem node_eq_spell (kname : String) : "/dev/" ++ kname = spell ["dev", kname] := by
  simp [spell, ← String.toList_inj]

theorem exists_toList_spell (hne : names ≠ []) : ∃ cs, (spell names).toList = '/' :: cs := by
  cases names with
  | nil => exact absurd rfl hne
  | cons n names => exact ⟨n.toList ++ (spell names).toList, by simp [spell]⟩

theorem spell_concat : spell (names ++ [name]) = spell names ++ "/" ++ name := by
  induction names with
  | nil => simp [spell]
  | cons n names ih => simp [spell, ih, String.append_assoc]

theorem literal_spell (hnames : ∀ n ∈ names, IsLiteralName n) :
    Glob.Literal (spell names).toList := by
  induction names with
  | nil => simp [spell, Glob.Literal]
  | cons n names ih =>
    obtain ⟨hn, hnames⟩ := List.forall_mem_cons.mp hnames
    intro c hc
    simp only [spell, String.toList_append, List.mem_append] at hc
    rcases hc with (hc | hc) | hc
    · obtain rfl : c = '/' := by simpa using hc
      rfl
    · exact hn.literal c hc
    · exact ih hnames c hc

theorem splitOn_append_spell {cs : List Char} (hcs : '/' ∉ cs)
    (hnames : ∀ n ∈ names, '/' ∉ n.toList) :
    (cs ++ (spell names).toList).splitOn '/' = cs :: names.map String.toList := by
  -- The piece in front varies: the next name takes its place after each slash.
  induction names generalizing cs with
  | nil => simpa [spell] using List.splitOn_eq_singleton hcs
  | cons n names ih =>
    obtain ⟨hn, hnames⟩ := List.forall_mem_cons.mp hnames
    have htext : (spell (n :: names)).toList = '/' :: (n.toList ++ (spell names).toList) := by
      simp [spell]
    rw [htext, List.splitOn_append_cons_self_of_not_mem hcs, ih hn hnames, List.map_cons]

theorem splitOn_spell (hnames : ∀ n ∈ names, '/' ∉ n.toList) :
    (spell names).toList.splitOn '/' = [] :: names.map String.toList := by
  have hnil : '/' ∉ ([] : List Char) := List.not_mem_nil
  exact splitOn_append_spell hnil hnames

theorem spell_inj (hnames : ∀ n ∈ names, '/' ∉ n.toList) (hnames' : ∀ n ∈ names', '/' ∉ n.toList)
    (h : spell names = spell names') : names = names' := by
  have hpieces := splitOn_spell hnames
  rw [h, splitOn_spell hnames'] at hpieces
  exact ((List.map_inj_right fun _ _ => String.toList_inj.mp).mp (List.cons.inj hpieces).2).symm

theorem components_spell (hne : names ≠ []) (hnames : ∀ n ∈ names, '/' ∉ n.toList) :
    components ⟨spell names⟩ =
      .root :: (names.map String.toList).filterMap Component.ofPiece? := by
  rw [components, splitOn_spell hnames]
  cases names with
  | nil => exact absurd rfl hne
  | cons n names => rfl

theorem isEntryName_of_piece (hname : '/' ∉ name.toList)
    (hpiece : Component.ofPiece? name.toList ≠ none) : IsEntryName name := by
  rw [ne_eq, Component.ofPiece?_eq_none_iff, not_or] at hpiece
  exact ⟨fun h => hpiece.1 (by rw [h]; rfl), hname, fun h => hpiece.2 (by rw [h]; rfl)⟩

/-- The last name of a path in normal form is that of an entry. -/
theorem IsNormal.isEntryName (hp : IsNormal ⟨spell (names ++ [name])⟩) (hne : names ≠ [])
    (hnames : ∀ n ∈ names, IsLiteralName n) (hname : '/' ∉ name.toList) : IsEntryName name := by
  have hall : ∀ n ∈ names ++ [name], '/' ∉ n.toList :=
    List.forall_mem_append.mpr
      ⟨fun n hn => (hnames n hn).single, List.forall_mem_singleton.mpr hname⟩
  have hsplit := splitOn_spell hall
  have hpiece : Component.ofPiece? name.toList ≠ none := by
    rcases hp with hroot | hpieces
    · -- The root has a single piece after its slash.
      have hroot : spell (names ++ [name]) = "/" := hroot
      have hlength : 2 = ([] :: (names ++ [name]).map String.toList).length := by
        rw [← hsplit, hroot]
        rfl
      have hpos := List.length_pos_iff.mpr hne
      simp only [List.length_cons, List.length_map, List.length_append, List.length_nil] at hlength
      omega
    · exact hpieces _ (by rw [hsplit]; simp)
  exact isEntryName_of_piece hname hpiece

/-- The file name of an entry is its name, unless it leads back. -/
theorem fileName?_spell_concat (hnames : ∀ n ∈ names, '/' ∉ n.toList) (hname : IsEntryName name) :
    fileName? ⟨spell (names ++ [name])⟩ = if name = ".." then none else some name := by
  have hall : ∀ n ∈ names ++ [name], '/' ∉ n.toList :=
    List.forall_mem_append.mpr ⟨hnames, List.forall_mem_singleton.mpr hname.single⟩
  have hlast {c : Component} (hpiece : Component.ofPiece? name.toList = some c) :
      (components ⟨spell (names ++ [name])⟩).getLast? = some c := by
    rw [components_spell (by simp) hall, List.map_append, List.filterMap_append,
      List.map_singleton, List.filterMap_cons, hpiece, List.filterMap_nil, ← List.cons_append,
      List.getLast?_concat]
  by_cases hparent : name = ".."
  · have hpiece : Component.ofPiece? name.toList = some .parent := by rw [hparent]; rfl
    rw [fileName?, hlast hpiece, if_pos hparent]
  · have hpiece := Component.ofPiece?_of_name hname.nonempty hname.notCurrent hparent
    rw [fileName?, hlast hpiece, if_neg hparent]

theorem fileName?_node {kname : String} (hname : IsEntryName kname) (hparent : kname ≠ "..") :
    fileName? ⟨"/dev/" ++ kname⟩ = some kname := by
  have hdev : ∀ n ∈ ["dev"], '/' ∉ n.toList := by decide
  rw [node_eq_spell]
  exact (fileName?_spell_concat hdev hname).trans (if_neg hparent)

/-- A path that ends in the name of an entry does not ask for a directory. -/
theorem asksForDirectory_append (before : String) (hname : IsEntryName name) :
    asksForDirectory ⟨before ++ name⟩ = false := by
  have hne : name.toList ≠ [] := fun h => hname.nonempty (String.toList_inj.mp h)
  obtain ⟨init, c, hlist⟩ := (List.eq_nil_or_concat name.toList).resolve_left hne
  rw [List.concat_eq_append] at hlist
  have hsingle := hname.single
  rw [hlist] at hsingle
  have htext : (before ++ name).toList.reverse = c :: (init.reverse ++ before.toList.reverse) := by
    simp [hlist]
  unfold asksForDirectory
  rw [htext]
  split
  case h_1 heq =>
    cases heq
    simp at hsingle
  case h_2 heq =>
    obtain ⟨rfl, heq⟩ := List.cons.inj heq
    rcases List.eq_nil_or_concat init with rfl | ⟨init, d, rfl⟩
    · exact absurd (String.toList_inj.mp hlist) hname.notCurrent
    · simp at heq hsingle
      simp [heq] at hsingle
  case h_3 => rfl

theorem isAbsolute_eq_false (hname : '/' ∉ name.toList) : isAbsolute name = false := by
  rw [isAbsolute, beq_eq_false_iff_ne]
  exact fun h => hname (List.mem_of_head? h)

theorem join_spell (names : List String) {right : String} (hname : IsEntryName name)
    (hright : '/' ∉ right.toList) :
    (Path.join ⟨spell (names ++ [name])⟩ right).text = spell (names ++ [name]) ++ "/" ++ right := by
  have hempty : (spell (names ++ [name])).isEmpty = false := by
    simp [spell_concat]
  have hlast : ((spell (names ++ [name])).toList.getLast? == some '/') = false := by
    rw [beq_eq_false_iff_ne]
    intro h
    have hne : name.toList ≠ [] := fun h => hname.nonempty (String.toList_inj.mp h)
    rw [spell_concat, String.toList_append, List.getLast?_append,
      List.getLast?_eq_some_getLast hne, Option.some_or] at h
    exact hname.single (Option.some.inj h ▸ List.getLast_mem hne)
  simp only [join, isAbsolute_eq_false hright, hempty, hlast, Bool.or_self, Bool.false_eq_true,
    if_false]

end Path

end NodeDisks
