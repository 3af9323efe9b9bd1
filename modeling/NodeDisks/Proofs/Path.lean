import NodeDisks.Path

/-!
The order of paths. Components are linearly ordered, so component lists are, and so are paths up to
their spelling: of two paths either one is before the other or they are the same
(`Path.lt_or_same_or_lt`). Sorted by it, the copies of a path stand side by side, and keeping the
first of each run leaves a strictly increasing list with every path in it
(`Path.pairwise_keepFirst_sort`, `Path.exists_same_mem_keepFirst`).
-/

namespace NodeDisks

namespace Component

variable {a b c : Component}

theorem before_iff : a.before b = true ↔ a.rank < b.rank ∨ a.rank = b.rank ∧ a.name < b.name := by
  simp only [before, Bool.or_eq_true, Bool.and_eq_true, decide_eq_true_eq, beq_iff_eq]

theorem eq_of_rank_name (hr : a.rank = b.rank) (hn : a.name = b.name) : a = b := by
  cases a <;> cases b <;> simp_all [rank, name]

theorem before_irrefl : ¬a.before a = true := by
  rw [before_iff]
  rintro (h | ⟨-, h⟩)
  · exact Nat.lt_irrefl _ h
  · exact String.lt_irrefl _ h

theorem before_trans (hab : a.before b = true) (hbc : b.before c = true) :
    a.before c = true := by
  rw [before_iff] at hab hbc ⊢
  rcases hab with hab | ⟨hab, hab'⟩ <;> rcases hbc with hbc | ⟨hbc, hbc'⟩
  · exact .inl (Nat.lt_trans hab hbc)
  · exact .inl (hbc ▸ hab)
  · exact .inl (hab ▸ hbc)
  · exact .inr ⟨hab.trans hbc, String.lt_trans hab' hbc'⟩

theorem before_or_eq_or_before (a b : Component) :
    a.before b = true ∨ a = b ∨ b.before a = true := by
  simp only [before_iff]
  rcases Nat.lt_trichotomy a.rank b.rank with hr | hr | hr
  · exact .inl (.inl hr)
  · by_cases hn : a.name < b.name
    · exact .inl (.inr ⟨hr, hn⟩)
    by_cases hn' : b.name < a.name
    · exact .inr (.inr (.inr ⟨hr.symm, hn'⟩))
    exact .inr (.inl (eq_of_rank_name hr (String.le_antisymm hn' hn)))
  · exact .inr (.inr (.inl hr))

end Component

namespace Path

section Components

variable {as bs cs : List Component}

theorem componentsLt_cons_iff {a b : Component} : componentsLt (a :: as) (b :: bs) = true ↔
    a.before b = true ∨ a = b ∧ componentsLt as bs = true := by
  simp only [componentsLt, Bool.or_eq_true, Bool.and_eq_true, beq_iff_eq]

theorem componentsLt_irrefl : ¬componentsLt as as = true := by
  induction as with
  | nil => simp [componentsLt]
  | cons a as ih =>
    rw [componentsLt_cons_iff]
    rintro (h | ⟨-, h⟩)
    · exact Component.before_irrefl h
    · exact ih h

theorem componentsLt_trans (hab : componentsLt as bs = true) (hbc : componentsLt bs cs = true) :
    componentsLt as cs = true := by
  induction bs generalizing as cs with
  | nil => cases as <;> simp [componentsLt] at hab
  | cons b bs ih =>
    cases cs with
    | nil => simp [componentsLt] at hbc
    | cons c cs =>
      cases as with
      | nil => rfl
      | cons a as =>
        rw [componentsLt_cons_iff] at hab hbc ⊢
        rcases hab with hab | ⟨rfl, hab⟩ <;> rcases hbc with hbc | ⟨rfl, hbc⟩
        · exact .inl (Component.before_trans hab hbc)
        · exact .inl hab
        · exact .inl hbc
        · exact .inr ⟨rfl, ih hab hbc⟩

theorem componentsLt_or_eq_or_componentsLt (as bs : List Component) :
    componentsLt as bs = true ∨ as = bs ∨ componentsLt bs as = true := by
  induction as generalizing bs with
  | nil => cases bs <;> simp [componentsLt]
  | cons a as ih =>
    cases bs with
    | nil => simp [componentsLt]
    | cons b bs =>
      simp only [componentsLt_cons_iff]
      rcases Component.before_or_eq_or_before a b with h | rfl | h
      · exact .inl (.inl h)
      · rcases ih bs with h | rfl | h
        · exact .inl (.inr ⟨rfl, h⟩)
        · exact .inr (.inl rfl)
        · exact .inr (.inr (.inr ⟨rfl, h⟩))
      · exact .inr (.inr (.inl h))

end Components

variable {a b c p : Path} {ps : List Path}

theorem same_iff : a.same b = true ↔ a.components = b.components := by
  simp [same]

@[simp] theorem same_refl : a.same a = true := same_iff.mpr rfl

theorem same_symm (hab : a.same b = true) : b.same a = true := same_iff.mpr (same_iff.mp hab).symm

theorem same_trans (hab : a.same b = true) (hbc : b.same c = true) : a.same c = true :=
  same_iff.mpr ((same_iff.mp hab).trans (same_iff.mp hbc))

theorem fileName?_congr (hab : a.same b = true) : a.fileName? = b.fileName? := by
  rw [fileName?, fileName?, same_iff.mp hab]

theorem lt_trans (hab : a.lt b = true) (hbc : b.lt c = true) : a.lt c = true :=
  componentsLt_trans hab hbc

theorem lt_irrefl : ¬a.lt a = true := componentsLt_irrefl

instance : Std.Irrefl fun a b : Path => a.lt b = true := ⟨fun _ => lt_irrefl⟩

instance : Std.Antisymm fun a b : Path => a.lt b = true :=
  ⟨fun _ _ hab hba => absurd (lt_trans hab hba) lt_irrefl⟩

theorem lt_or_same_or_lt (a b : Path) : a.lt b = true ∨ a.same b = true ∨ b.lt a = true := by
  rw [same_iff]
  exact componentsLt_or_eq_or_componentsLt _ _

theorem le_iff : a.le b = true ↔ a.lt b = true ∨ a.same b = true := by
  have hirrefl : a.same b = true → ¬b.lt a = true := by
    rw [same_iff, lt]
    intro h
    rw [h]
    exact componentsLt_irrefl
  have hasymm : a.lt b = true → ¬b.lt a = true := fun hab hba =>
    componentsLt_irrefl (lt_trans hab hba)
  simp only [le, Bool.not_eq_true', ← Bool.not_eq_true]
  constructor
  · intro h
    rcases lt_or_same_or_lt a b with hab | hab | hab
    · exact .inl hab
    · exact .inr hab
    · exact absurd hab h
  · rintro (h | h)
    · exact hasymm h
    · exact hirrefl h

theorem le_trans (hab : a.le b = true) (hbc : b.le c = true) : a.le c = true := by
  rw [le_iff] at hab hbc ⊢
  simp only [same_iff, lt] at hab hbc ⊢
  rcases hab with hab | hab <;> rcases hbc with hbc | hbc
  · exact .inl (componentsLt_trans hab hbc)
  · exact .inl (hbc ▸ hab)
  · exact .inl (hab ▸ hbc)
  · exact .inr (hab.trans hbc)

theorem lt_of_lt_of_le (hab : a.lt b = true) (hbc : b.le c = true) : a.lt c = true := by
  rcases le_iff.mp hbc with hbc | hbc
  · exact lt_trans hab hbc
  · rwa [lt, ← same_iff.mp hbc]

theorem le_total (a b : Path) : (a.le b || b.le a) = true := by
  rw [Bool.or_eq_true, le_iff, le_iff]
  rcases lt_or_same_or_lt a b with h | h | h
  · exact .inl (.inl h)
  · exact .inl (.inr h)
  · exact .inr (.inl h)

@[simp] theorem mem_sort : p ∈ sort ps ↔ p ∈ ps := List.mem_mergeSort

theorem pairwise_sort (ps : List Path) : (sort ps).Pairwise fun a b => a.le b = true :=
  @List.pairwise_mergeSort _ le (fun _ _ _ hab hbc => le_trans hab hbc) le_total ps

/-! ### Keeping the first of each run -/

theorem mem_of_mem_keepFirst_go {kept : Path} (h : p ∈ keepFirst.go kept ps) : p ∈ ps := by
  induction ps generalizing kept with
  | nil => exact h
  | cons q ps ih =>
    rw [keepFirst.go] at h
    split at h
    · exact .tail _ (ih h)
    · rcases List.mem_cons.mp h with rfl | h
      · exact .head _
      · exact .tail _ (ih h)

theorem mem_of_mem_keepFirst (h : p ∈ keepFirst ps) : p ∈ ps := by
  cases ps with
  | nil => exact h
  | cons q ps =>
    rcases List.mem_cons.mp h with rfl | h
    · exact .head _
    · exact .tail _ (mem_of_mem_keepFirst_go h)

theorem exists_same_mem_keepFirst_go {kept : Path} (h : p ∈ kept :: ps) :
    ∃ q ∈ kept :: keepFirst.go kept ps, q.same p = true := by
  induction ps generalizing kept with
  | nil => exact ⟨p, by simpa [keepFirst.go] using h, same_refl⟩
  | cons q ps ih =>
    rw [keepFirst.go]
    split
    case isTrue hsame =>
      rcases List.mem_cons.mp h with rfl | h
      · exact ⟨p, .head _, same_refl⟩
      rcases List.mem_cons.mp h with rfl | h
      · exact ⟨kept, .head _, hsame⟩
      · exact ih (.tail _ h)
    case isFalse =>
      rcases List.mem_cons.mp h with rfl | h
      · exact ⟨p, .head _, same_refl⟩
      · obtain ⟨r, hr, hsame⟩ := ih h
        exact ⟨r, .tail _ hr, hsame⟩

theorem exists_same_mem_keepFirst (h : p ∈ ps) : ∃ q ∈ keepFirst ps, q.same p = true := by
  cases ps with
  | nil => cases h
  | cons q ps => exact exists_same_mem_keepFirst_go h

theorem pairwise_keepFirst_go {kept : Path}
    (h : (kept :: ps).Pairwise fun a b => a.le b = true) :
    (kept :: keepFirst.go kept ps).Pairwise fun a b => a.lt b = true := by
  induction ps generalizing kept with
  | nil => simp [keepFirst.go]
  | cons q ps ih =>
    obtain ⟨hkept, htail⟩ := List.pairwise_cons.mp h
    rw [keepFirst.go]
    split
    case isTrue =>
      refine ih (List.pairwise_cons.mpr ⟨fun r hr => hkept r (.tail _ hr), ?_⟩)
      exact htail.tail
    case isFalse hsame =>
      have hlt : kept.lt q = true := (le_iff.mp (hkept q (.head _))).resolve_right hsame
      have hrest := ih htail
      refine List.pairwise_cons.mpr ⟨fun r hr => ?_, hrest⟩
      rcases List.mem_cons.mp hr with rfl | hr
      · exact hlt
      · exact lt_trans hlt ((List.pairwise_cons.mp hrest).1 r hr)

theorem pairwise_keepFirst_sort (ps : List Path) :
    (keepFirst (sort ps)).Pairwise fun a b => a.lt b = true := by
  have hsorted := pairwise_sort ps
  cases hps : sort ps with
  | nil => exact .nil
  | cons q qs =>
    rw [hps] at hsorted
    exact pairwise_keepFirst_go hsorted

/-! ### Keeping the last of each run -/

theorem mem_of_mem_keepLast (h : p ∈ keepLast ps) : p ∈ ps := by
  induction ps using keepLast.induct with
  | case1 => exact h
  | case2 q => exact h
  | case3 q r ps hsame ih =>
    rw [keepLast, if_pos hsame] at h
    exact .tail _ (ih h)
  | case4 q r ps hsame ih =>
    rw [keepLast, if_neg hsame] at h
    rcases List.mem_cons.mp h with rfl | h
    · exact .head _
    · exact .tail _ (ih h)

theorem exists_same_mem_keepLast (h : p ∈ ps) : ∃ q ∈ keepLast ps, q.same p = true := by
  induction ps using keepLast.induct generalizing p with
  | case1 => cases h
  | case2 q => exact ⟨p, h, same_refl⟩
  | case3 q r ps hsame ih =>
    rw [keepLast, if_pos hsame]
    rcases List.mem_cons.mp h with rfl | h
    · -- The path goes, and what stays for the next one stays for it.
      obtain ⟨s, hs, hr⟩ := ih (.head _)
      exact ⟨s, hs, same_trans hr (same_symm hsame)⟩
    · exact ih h
  | case4 q r ps hsame ih =>
    rw [keepLast, if_neg hsame]
    rcases List.mem_cons.mp h with rfl | h
    · exact ⟨p, .head _, same_refl⟩
    · obtain ⟨s, hs, hp⟩ := ih h
      exact ⟨s, .tail _ hs, hp⟩

/-- Of a run only the last stays, so in a sorted list those that stay increase. -/
theorem pairwise_keepLast (h : ps.Pairwise fun a b => a.le b = true) :
    (keepLast ps).Pairwise fun a b => a.lt b = true := by
  induction ps using keepLast.induct with
  | case1 => exact .nil
  | case2 q => exact List.pairwise_singleton _ q
  | case3 q r ps hsame ih =>
    rw [keepLast, if_pos hsame]
    exact ih h.tail
  | case4 q r ps hsame ih =>
    rw [keepLast, if_neg hsame]
    obtain ⟨hq, htail⟩ := List.pairwise_cons.mp h
    have hlt : q.lt r = true := (le_iff.mp (hq r (.head _))).resolve_right hsame
    refine List.pairwise_cons.mpr ⟨fun s hs => ?_, ih htail⟩
    rcases List.mem_cons.mp (mem_of_mem_keepLast hs) with rfl | hs
    · exact hlt
    · exact lt_of_lt_of_le hlt (List.rel_of_pairwise_cons htail hs)

theorem keepLast_of_increasing (h : ps.Pairwise fun a b => a.lt b = true) : keepLast ps = ps := by
  induction ps using keepLast.induct with
  | case1 => rfl
  | case2 q => rfl
  | case3 q r ps hsame ih =>
    have hlt : q.lt r = true := List.rel_of_pairwise_cons h (.head _)
    rw [lt, same_iff.mp hsame] at hlt
    exact absurd hlt componentsLt_irrefl
  | case4 q r ps hsame ih => rw [keepLast, if_neg hsame, ih h.tail]

theorem sort_of_increasing (h : ps.Pairwise fun a b => a.lt b = true) : sort ps = ps :=
  List.mergeSort_of_pairwise (h.imp fun hab => le_iff.mpr (.inl hab))

end Path

end NodeDisks
