import NodeDisks.Glob.Pattern

/-!
Patterns that list a directory. A text without characters of a special meaning stands for itself, and
behind it `/*` stands for one slash and a name (`compile_listing`, `accepts_listing_iff`), and `/**/*`
for a slash and anything (`compile_below`, `accepts_below_iff`).
-/

namespace NodeDisks.Glob

/-- No character has a meaning of its own. -/
def Literal (cs : List Char) : Prop := ∀ c ∈ cs, isMeta c = false

instance (cs : List Char) : Decidable (Literal cs) := List.decidableBAll _ cs

theorem literal_slash : Literal "/".toList := by decide +kernel

variable {cs rest text : List Char} {ts : List Token} {c : Char}

/-! ### Reading -/

theorem tokens?_cons_of_literal (hc : isMeta c = false) (most place : Nat) (start : Bool) :
    tokens? (most + 1) place start (c :: rest) =
      (tokens? most (place + 1) (c == '/') rest).map (.literal c :: ·) := by
  simp only [isMeta, Bool.or_eq_false_iff, decide_eq_false_iff_not] at hc
  obtain ⟨⟨hany, hstar⟩, hclass⟩ := hc
  rw [tokens?, if_neg hany, if_neg hstar, if_neg hclass]

/-- Literal characters become tokens one by one. -/
theorem tokens?_literal_append (hcs : Literal cs) (rest : List Char) (most place : Nat)
    (start : Bool) :
    ∃ start', tokens? (cs.length + most) place start (cs ++ rest) =
      (tokens? most (place + cs.length) start' rest).map (cs.map .literal ++ ·) := by
  induction cs generalizing place start with
  | nil =>
    refine ⟨start, ?_⟩
    cases h : tokens? most place start rest <;> simp [h, Except.map]
  | cons c cs ih =>
    obtain ⟨hc, hcs⟩ := List.forall_mem_cons.mp hcs
    obtain ⟨start', hrest⟩ := ih hcs (place + 1) (c == '/')
    refine ⟨start', ?_⟩
    rw [List.length_cons, Nat.add_right_comm, List.cons_append, tokens?_cons_of_literal hc, hrest,
      Nat.add_right_comm place 1, Nat.add_assoc place]
    cases tokens? most (place + (cs.length + 1)) start' rest <;> rfl

theorem compile_literal_append {dir : String} (hdir : Literal dir.toList) (rest : String) :
    ∃ start, Pattern.compile (dir ++ rest) =
      (tokens? rest.toList.length dir.toList.length start rest.toList).map
        fun ts => ⟨dir.toList.map .literal ++ ts⟩ := by
  obtain ⟨start, h⟩ := tokens?_literal_append hdir rest.toList rest.toList.length 0 true
  refine ⟨start, ?_⟩
  rw [Pattern.compile, String.toList_append, List.length_append, h, Nat.zero_add]
  cases tokens? rest.toList.length dir.toList.length start rest.toList <;> rfl

theorem compile_listing {dir : String} (hdir : Literal dir.toList) :
    Pattern.compile (dir ++ "/*") = .ok ⟨dir.toList.map .literal ++ [.literal '/', .sequence]⟩ := by
  obtain ⟨start, h⟩ := compile_literal_append hdir "/*"
  exact h

theorem compile_entries {stem : String} (hstem : Literal stem.toList) :
    Pattern.compile (stem ++ "*") = .ok ⟨stem.toList.map .literal ++ [.sequence]⟩ := by
  obtain ⟨start, h⟩ := compile_literal_append hstem "*"
  exact h

theorem compile_below {dir : String} (hdir : Literal dir.toList) :
    Pattern.compile (dir ++ "/**/*") =
      .ok ⟨dir.toList.map .literal ++ [.literal '/', .components, .sequence]⟩ := by
  obtain ⟨start, h⟩ := compile_literal_append hdir "/**/*"
  exact h

/-! ### Comparing -/

theorem accepts_literal_append :
    accepts (cs.map .literal ++ ts) text = true ↔
      ∃ rest, text = cs ++ rest ∧ accepts ts rest = true := by
  induction cs generalizing text with
  | nil => simp
  | cons c cs ih =>
    cases text with
    | nil => simp [accepts]
    | cons t text =>
      simp only [List.map_cons, List.cons_append, accepts, Token.accepts, Bool.and_eq_true,
        beq_iff_eq, ih, List.cons.injEq]
      constructor
      · rintro ⟨rfl, rest, rfl, hrest⟩
        exact ⟨rest, ⟨rfl, rfl⟩, hrest⟩
      · rintro ⟨rest, ⟨rfl, rfl⟩, hrest⟩
        exact ⟨rfl, rest, rfl, hrest⟩

theorem accepts_sequence_iff : accepts [.sequence] text = true ↔ '/' ∉ text := by
  rw [accepts]
  induction text with
  | nil => simp [afterRun, accepts]
  | cons c text ih =>
    rw [afterRun, Bool.or_eq_true, Bool.and_eq_true, bne_iff_ne, ih, List.mem_cons, not_or, ne_comm]
    simp [accepts]

/-- Behind a literal directory, a slash and a pattern `ts` fit what `ts` fits. -/
theorem accepts_in_iff {dir s : String} :
    accepts (dir.toList.map .literal ++ .literal '/' :: ts) s.toList = true ↔
      ∃ rest : String, s = dir ++ "/" ++ rest ∧ accepts ts rest.toList = true := by
  have hslash : Token.literal '/' :: ts = ['/'].map .literal ++ ts := rfl
  simp only [accepts_literal_append, hslash]
  constructor
  · rintro ⟨-, hs, rest, rfl, hrest⟩
    refine ⟨String.ofList rest, ?_, by simpa using hrest⟩
    rw [← String.toList_inj, hs]
    simp
  · rintro ⟨rest, rfl, hrest⟩
    exact ⟨'/' :: rest.toList, by simp, rest.toList, rfl, hrest⟩

/-- A listing consists of the directory, a slash and a name. -/
theorem accepts_listing_iff {dir s : String} :
    accepts (dir.toList.map .literal ++ [.literal '/', .sequence]) s.toList = true ↔
      ∃ name : String, s = dir ++ "/" ++ name ∧ '/' ∉ name.toList := by
  simp only [accepts_in_iff, accepts_sequence_iff]

/-- A star behind a literal text fits what goes on without a slash. -/
theorem accepts_entries_iff {stem s : String} :
    accepts (stem.toList.map .literal ++ [.sequence]) s.toList = true ↔
      ∃ name : String, s = stem ++ name ∧ '/' ∉ name.toList := by
  simp only [accepts_literal_append, accepts_sequence_iff]
  constructor
  · rintro ⟨rest, hs, hrest⟩
    refine ⟨String.ofList rest, ?_, by simpa using hrest⟩
    rw [← String.toList_inj, hs]
    simp
  · rintro ⟨name, rfl, hname⟩
    exact ⟨name.toList, String.toList_append, hname⟩

/-- Any number of components and a last one make up any text. -/
theorem accepts_components_sequence (text : List Char) :
    accepts [.components, .sequence] text = true := by
  have hend : ∀ cs, afterSlash (accepts [.sequence]) cs = true := by
    intro cs
    induction cs with
    | nil => rfl
    | cons c cs ih => rw [afterSlash, ih, Bool.or_true]
  rw [accepts, hend, Bool.or_true]

/-- A recursive listing consists of the directory, a slash and anything. -/
theorem accepts_below_iff {dir s : String} :
    accepts (dir.toList.map .literal ++ [.literal '/', .components, .sequence]) s.toList = true ↔
      ∃ rest : String, s = dir ++ "/" ++ rest := by
  simp only [accepts_in_iff, accepts_components_sequence, and_true]

end NodeDisks.Glob
