import NodeDisks.Proofs.Path
import NodeDisks.Proofs.Path.Spelling

/-!
What lies below a directory. An absolute path in normal form is spelled by names
(`IsNormal.exists_spell`), so for such paths a comparison of components is one of texts: what lies
below a directory has its text, a slash and something more in front of it (`IsNormal.isBelow_iff`).
Two of them with the same components are one (`IsNormal.eq_of_same`).
-/

namespace NodeDisks

/-- The component that an entry name stands for. -/
def Component.ofName (name : String) : Component := if name = ".." then .parent else .named name

theorem Component.ofName_inj {a b : String} (h : ofName a = ofName b) : a = b := by
  unfold ofName at h
  split at h <;> split at h <;> simp_all

namespace Path

/-- The components of `p` are those of `dir` and at least one more. -/
def IsBelow (p dir : Path) : Prop := ∃ more, more ≠ [] ∧ p.components = dir.components ++ more

instance (p dir : Path) : Decidable (p.IsBelow dir) :=
  decidable_of_iff (dir.components <+: p.components ∧ dir.components ≠ p.components) <| by
    constructor
    · rintro ⟨⟨more, hmore⟩, hne⟩
      exact ⟨more, fun hnil => hne (by simpa [hnil] using hmore), hmore.symm⟩
    · rintro ⟨more, hne, hmore⟩
      exact ⟨⟨more, hmore.symm⟩, fun heq => hne (by simpa [heq] using hmore)⟩

variable {names names' : List String} {name s : String} {p q dir : Path}

/-! ### Normal paths are spelled by names -/

theorem splitOn_inj {cs cs' : List Char} (h : cs.splitOn '/' = cs'.splitOn '/') : cs = cs' := by
  have hjoin := congrArg ['/'].intercalate h
  rwa [List.intercalate_splitOn, List.intercalate_splitOn] at hjoin

theorem not_mem_of_mem_splitOn {cs piece : List Char} (h : piece ∈ cs.splitOn '/') :
    '/' ∉ piece := by
  induction cs generalizing piece with
  | nil =>
    obtain rfl : piece = [] := by simpa using h
    exact List.not_mem_nil
  | cons c cs ih =>
    rw [List.splitOn_cons_eq_if_modifyHead] at h
    split at h
    · rcases List.mem_cons.mp h with rfl | h
      · exact List.not_mem_nil
      · exact ih h
    case isFalse hc =>
      have hc : '/' ≠ c := fun heq => hc (by rw [← heq]; rfl)
      cases hpieces : cs.splitOn '/' with
      | nil => exact absurd hpieces (List.splitOn_ne_nil '/' cs)
      | cons first pieces =>
        rw [hpieces] at h ih
        rcases List.mem_cons.mp h with rfl | h
        · exact List.not_mem_cons_of_ne_of_not_mem hc (ih (.head _))
        · exact ih (.tail _ h)

/-- An absolute path in normal form, other than the root, is the path through some names. -/
theorem IsNormal.exists_spell (hp : p.IsNormal) (habsolute : isAbsolute p.text = true)
    (hroot : p.text ≠ "/") :
    ∃ names, names ≠ [] ∧ (∀ n ∈ names, IsEntryName n) ∧ p = ⟨spell names⟩ := by
  obtain ⟨cs, hcs⟩ : ∃ cs, p.text.toList = '/' :: cs := by
    cases htext : p.text.toList with
    | nil => simp [isAbsolute, htext] at habsolute
    | cons c cs => exact ⟨cs, by simpa [isAbsolute, htext] using habsolute⟩
  have hsplit : p.text.toList.splitOn '/' = [] :: cs.splitOn '/' := by
    rw [hcs]
    exact List.splitOn_append_cons_self_of_not_mem List.not_mem_nil cs
  have hpieces := hp.resolve_left hroot
  rw [hsplit, List.tail_cons] at hpieces
  have hnames : ∀ n ∈ (cs.splitOn '/').map String.ofList, IsEntryName n := by
    intro n hn
    obtain ⟨piece, hpiece, rfl⟩ := List.mem_map.mp hn
    have hslash := not_mem_of_mem_splitOn hpiece
    exact isEntryName_of_piece (by simpa using hslash) (by simpa using hpieces piece hpiece)
  refine ⟨(cs.splitOn '/').map String.ofList, by simp [List.splitOn_ne_nil], hnames, ?_⟩
  have htext : p.text.toList = (spell ((cs.splitOn '/').map String.ofList)).toList := by
    refine splitOn_inj ?_
    rw [hsplit, splitOn_spell fun n hn => (hnames n hn).single, List.map_map]
    simp [Function.comp_def]
  exact congrArg Path.mk (String.toList_inj.mp htext)

theorem ofPiece?_of_isEntryName (hname : IsEntryName name) :
    Component.ofPiece? name.toList = some (Component.ofName name) := by
  by_cases hparent : name = ".."
  · subst hparent
    rfl
  · rw [Component.ofName, if_neg hparent]
    exact Component.ofPiece?_of_name hname.nonempty hname.notCurrent hparent

theorem filterMap_ofPiece? (hnames : ∀ n ∈ names, IsEntryName n) :
    (names.map String.toList).filterMap Component.ofPiece? = names.map Component.ofName := by
  induction names with
  | nil => rfl
  | cons n names ih =>
    obtain ⟨hn, hnames⟩ := List.forall_mem_cons.mp hnames
    rw [List.map_cons, List.filterMap_cons, ofPiece?_of_isEntryName hn, ih hnames, List.map_cons]

theorem components_spell_eq_map (hne : names ≠ []) (hnames : ∀ n ∈ names, IsEntryName n) :
    components ⟨spell names⟩ = .root :: names.map Component.ofName := by
  rw [components_spell hne fun n hn => (hnames n hn).single, filterMap_ofPiece? hnames]

/-! ### Below a directory -/

theorem IsBelow.trans (hp : p.IsBelow q) (hq : q.IsBelow dir) : p.IsBelow dir := by
  obtain ⟨more, -, hcomponents⟩ := hp
  obtain ⟨more', hmore', hcomponents'⟩ := hq
  exact ⟨more' ++ more, by simp [hmore'], by rw [hcomponents, hcomponents', List.append_assoc]⟩

theorem IsBelow.isAbsolute (hp : p.IsBelow dir) (hdir : Path.isAbsolute dir.text = true) :
    Path.isAbsolute p.text = true := by
  obtain ⟨more, -, hcomponents⟩ := hp
  rw [isAbsolute_iff, hcomponents, List.head?_append, isAbsolute_iff.mp hdir, Option.some_or]

theorem spell_append : spell (names ++ names') = spell names ++ spell names' := by
  induction names with
  | nil => simp [spell]
  | cons n names ih => simp [spell, ih, String.append_assoc]

section Normal

variable (hp : p.IsNormal) (hne : names ≠ []) (hnames : ∀ n ∈ names, IsEntryName n)

include hp hne hnames

theorem IsNormal.exists_more_of_isBelow (hbelow : p.IsBelow ⟨spell names⟩) :
    ∃ more, more ≠ [] ∧ (∀ n ∈ more, IsEntryName n) ∧ p = ⟨spell (names ++ more)⟩ := by
  obtain ⟨rest, hrest, hcomponents⟩ := hbelow
  rw [components_spell_eq_map hne hnames] at hcomponents
  have habsolute : isAbsolute p.text = true := isAbsolute_iff.mpr (by rw [hcomponents]; rfl)
  have hroot : p.text ≠ "/" := by
    intro hroot
    obtain rfl : p = ⟨"/"⟩ := congrArg Path.mk hroot
    have hlength : 1 = _ := congrArg List.length hcomponents
    simp [hne] at hlength
  obtain ⟨names', hne', hnames', rfl⟩ := hp.exists_spell habsolute hroot
  rw [components_spell_eq_map hne' hnames'] at hcomponents
  obtain ⟨front, more, rfl, hfront, rfl⟩ :=
    List.map_eq_append_iff.mp (List.cons.inj hcomponents).2
  obtain rfl := (List.map_inj_right fun _ _ => Component.ofName_inj).mp hfront
  exact ⟨more, by simpa using hrest, fun n hn => hnames' n (List.mem_append_right _ hn), rfl⟩

theorem IsNormal.exists_more_of_text {rest : String} (htext : p.text = spell names ++ "/" ++ rest) :
    ∃ more, more ≠ [] ∧ (∀ n ∈ more, IsEntryName n) ∧ p = ⟨spell (names ++ more)⟩ := by
  have htext : p.text.toList = (spell names).toList ++ '/' :: rest.toList := by simp [htext]
  obtain ⟨cs, hcs⟩ := exists_toList_spell hne
  have habsolute : isAbsolute p.text = true := by simp [isAbsolute, htext, hcs]
  have hroot : p.text ≠ "/" := by
    intro hroot
    simp [hroot, hcs] at htext
  obtain ⟨names', -, hnames', rfl⟩ := hp.exists_spell habsolute hroot
  -- Cut at its slashes, the text gives the names in front back, and what is left are the others.
  have hsplit := congrArg (List.splitOn '/') htext
  rw [List.splitOn_append_cons_self, splitOn_spell fun n hn => (hnames' n hn).single,
    splitOn_spell fun n hn => (hnames n hn).single] at hsplit
  obtain ⟨front, more, rfl, hfront, hmore⟩ := List.map_eq_append_iff.mp (List.cons.inj hsplit).2
  obtain rfl := (List.map_inj_right fun _ _ => String.toList_inj.mp).mp hfront
  refine ⟨more, ?_, fun n hn => hnames' n (List.mem_append_right _ hn), rfl⟩
  rintro rfl
  exact List.splitOn_ne_nil '/' rest.toList hmore.symm

end Normal

/-- For paths in normal form, being below a directory shows in the text. -/
theorem IsNormal.isBelow_iff (hp : p.IsNormal) (hdir : dir.IsNormal)
    (habsolute : isAbsolute dir.text = true) (hroot : dir.text ≠ "/") :
    p.IsBelow dir ↔ ∃ rest : String, p.text = dir.text ++ "/" ++ rest := by
  obtain ⟨names, hne, hnames, rfl⟩ := hdir.exists_spell habsolute hroot
  constructor
  · intro hbelow
    obtain ⟨more, hmore, -, rfl⟩ := hp.exists_more_of_isBelow hne hnames hbelow
    cases more with
    | nil => exact absurd rfl hmore
    | cons m more => exact ⟨m ++ spell more, by simp [spell_append, spell, String.append_assoc]⟩
  · rintro ⟨rest, htext⟩
    obtain ⟨more, hmore, hnames', rfl⟩ := hp.exists_more_of_text hne hnames htext
    have hall := List.forall_mem_append.mpr ⟨hnames, hnames'⟩
    refine ⟨more.map Component.ofName, by simpa using hmore, ?_⟩
    rw [components_spell_eq_map hne hnames, components_spell_eq_map (by simp [hne]) hall,
      List.map_append, List.cons_append]

/-! ### Below the root -/

theorem components_root : components ⟨"/"⟩ = [.root] := rfl

theorem isAbsolute_iff_exists : isAbsolute s = true ↔ ∃ rest : String, s = "/" ++ rest := by
  rw [isAbsolute, beq_iff_eq]
  constructor
  · intro h
    obtain ⟨cs, hcs⟩ := List.head?_eq_some_iff.mp h
    exact ⟨String.ofList cs, by rw [← String.toList_inj, hcs]; simp⟩
  · rintro ⟨rest, rfl⟩
    simp

/-- Every absolute path in normal form is below the root, but for the root. -/
theorem IsNormal.isBelow_root_iff (hp : p.IsNormal) :
    p.IsBelow ⟨"/"⟩ ↔ isAbsolute p.text = true ∧ p.text ≠ "/" := by
  constructor
  · rintro ⟨more, hmore, hcomponents⟩
    rw [components_root] at hcomponents
    refine ⟨isAbsolute_iff.mpr (by rw [hcomponents]; rfl), ?_⟩
    intro hroot
    obtain rfl : p = ⟨"/"⟩ := congrArg Path.mk hroot
    rw [components_root, List.self_eq_append_right] at hcomponents
    exact hmore hcomponents
  · rintro ⟨habsolute, hroot⟩
    obtain ⟨names, hne, hnames, rfl⟩ := hp.exists_spell habsolute hroot
    exact ⟨names.map Component.ofName, by simpa using hne, components_spell_eq_map hne hnames⟩

/-- An absolute path has one spelling in normal form. -/
theorem IsNormal.eq_of_same (hp : p.IsNormal) (hq : q.IsNormal)
    (habsolute : isAbsolute p.text = true) (hsame : p.same q = true) : p = q := by
  have hcomponents := same_iff.mp hsame
  have habsolute' : isAbsolute q.text = true := by
    rwa [isAbsolute_iff, ← hcomponents, ← isAbsolute_iff]
  have hbelow : p.IsBelow ⟨"/"⟩ ↔ q.IsBelow ⟨"/"⟩ := by rw [IsBelow, IsBelow, hcomponents]
  rw [hp.isBelow_root_iff, hq.isBelow_root_iff] at hbelow
  by_cases hroot : p.text = "/"
  · have hroot' : q.text = "/" := by simpa [hroot, habsolute'] using hbelow
    exact congrArg Path.mk (hroot.trans hroot'.symm)
  · have hroot' : q.text ≠ "/" := (hbelow.mp ⟨habsolute, hroot⟩).2
    obtain ⟨names, hne, hnames, rfl⟩ := hp.exists_spell habsolute hroot
    obtain ⟨names', hne', hnames', rfl⟩ := hq.exists_spell habsolute' hroot'
    rw [components_spell_eq_map hne hnames, components_spell_eq_map hne' hnames'] at hcomponents
    rw [(List.map_inj_right fun _ _ => Component.ofName_inj).mp (List.cons.inj hcomponents).2]

end Path

end NodeDisks
