import NodeDisks.Proofs.Host.Resolution

/-!
Chains of links of a file system in memory. Links may lead anywhere, also back to where they came
from, so a chain is counted and is followed for a bounded number of stops. `LeadsTo` says where a path
leads without following anything: its chain ends at a path that is no link, within the bound, and no
stop up to there is sealed. `Stuck` says what there is instead. Following a chain finds the one or the
other (`follow_eq_ok_iff`, `follow_eq_error_iff`), by induction on the bound: a link hands the question
on to its target (`leadsTo_succ_iff_of_link`, `stuck_succ_iff_of_link`).

Paths are told apart by their components, and to lead to the same place is an equivalence of the paths
that lead somewhere; it is what the comparison of files answers (`links_resolved`).
-/

namespace NodeDisks.MemoryFiles

open NodeDisks.Path (same_refl same_symm same_trans)

/-- The path may not be evaluated. -/
def Sealed (m : MemoryFiles) (p : Path) : Prop := ∃ q ∈ m.sealedPaths, q.same p = true

/-- From the first path, so many links lead to the second. -/
inductive Chain (m : MemoryFiles) : Nat → Path → Path → Prop where
  | stop {p : Path} : Chain m 0 p p
  | hop {n : Nat} {p target q : Path} : m.links.get? p = some target → Chain m n target q →
    Chain m (n + 1) p q

/-- None of the first stops of the chain is sealed; `p` itself is the first. -/
def Open (m : MemoryFiles) (stops : Nat) (p : Path) : Prop :=
  ∀ k < stops, ∀ q, m.Chain k p q → ¬m.Sealed q

/-- The chain of `p` ends in `q`, and it may be followed so far. -/
def LeadsTo (m : MemoryFiles) (stops : Nat) (p q : Path) : Prop :=
  ∃ n < stops, m.Chain n p q ∧ m.links.get? q = none ∧ m.Open (n + 1) p

/-- What is in the way on the chain of `p`: the first sealed stop, or that no stop is the last. -/
inductive Stuck (m : MemoryFiles) (stops : Nat) (p : Path) : IoError → Prop where
  | atSeal {n : Nat} {q : Path} : n < stops → m.Chain n p q → m.Sealed q → m.Open n p →
    Stuck m stops p (sealedError q)
  | onward {q : Path} : m.Chain stops p q → m.Open stops p → Stuck m stops p loopError

/-- What is known of links and of the files at their ends. -/
structure ResolvesLinks (m : MemoryFiles) : Prop where
  /-- With 40 stops no more than 39 links are followed. -/
  ok_iff : ∀ p q, m.resolve p = .ok q ↔ m.LeadsTo 40 p q
  error_iff : ∀ p e, m.resolve p = .error e ↔ m.Stuck 40 p e
  settled : ∀ p q, m.resolve p = .ok q → m.resolve q = .ok q
  respelled : ∀ a b p, a.same b = true → m.resolve a = .ok p →
    ∃ q, m.resolve b = .ok q ∧ q.same p = true
  compared : ∀ a b p q, m.resolve a = .ok p → m.resolve b = .ok q →
    m.sameFile a b = .ok (p.same q)
  equivalence : Equivalence fun a b : { p // ∃ q, m.resolve p = .ok q } =>
    m.sameFile a b = .ok true
  sameTarget : ∀ a b p q, m.evalLinks a = .ok p → m.evalLinks b = .ok q → p.same q = true →
    m.sameFile a b = .ok true
  sameContent : ∀ a b, m.sameFile a b = .ok true →
    (∃ content, m.read a = .ok content ∧ m.read b = .ok content) ∨
      ∃ e e', m.read a = .error e ∧ m.read b = .error e' ∧ e.kind = .notFound ∧ e'.kind = .notFound

variable {m : MemoryFiles} {n stops : Nat} {a b p q target : Path} {e : IoError}

/-! ### Chains -/

theorem isSealed_iff : m.isSealed p = true ↔ m.Sealed p := by
  simp [isSealed, Sealed]

theorem chain_zero_iff : m.Chain 0 p q ↔ p = q := by
  constructor
  · intro H
    cases H
    rfl
  · rintro rfl
    exact .stop

theorem chain_succ_iff : m.Chain (n + 1) p q ↔
    ∃ target, m.links.get? p = some target ∧ m.Chain n target q := by
  constructor
  · intro H
    cases H with
    | hop hlink H => exact ⟨_, hlink, H⟩
  · rintro ⟨target, hlink, H⟩
    exact .hop hlink H

theorem open_zero : m.Open 0 p := fun k hk => absurd hk (Nat.not_lt_zero k)

theorem open_succ_iff : m.Open (stops + 1) p ↔
    ¬m.Sealed p ∧ ∀ target, m.links.get? p = some target → m.Open stops target := by
  constructor
  · intro H
    refine ⟨H 0 (Nat.succ_pos stops) p .stop, fun target hlink k hk q hq => ?_⟩
    exact H (k + 1) (Nat.succ_lt_succ hk) q (.hop hlink hq)
  · rintro ⟨hp, H⟩ k hk q hq
    cases hq with
    | stop => exact hp
    | hop hlink hq => exact H _ hlink _ (Nat.lt_of_succ_lt_succ hk) q hq

/-! ### The end of a chain -/

theorem not_leadsTo_of_sealed (hp : m.Sealed p) : ¬m.LeadsTo stops p q := by
  rintro ⟨n, -, -, -, hopen⟩
  exact (open_succ_iff.mp hopen).1 hp

theorem leadsTo_succ_iff_of_link (hp : ¬m.Sealed p) (hlink : m.links.get? p = some target) :
    m.LeadsTo (stops + 1) p q ↔ m.LeadsTo stops target q := by
  constructor
  · rintro ⟨n, hn, hchain, hend, hopen⟩
    cases hchain with
    | stop => cases hend.symm.trans hlink
    | hop hlink' hchain =>
      cases hlink.symm.trans hlink'
      exact ⟨_, Nat.lt_of_succ_lt_succ hn, hchain, hend, (open_succ_iff.mp hopen).2 _ hlink⟩
  · rintro ⟨n, hn, hchain, hend, hopen⟩
    refine ⟨n + 1, Nat.succ_lt_succ hn, .hop hlink hchain, hend, open_succ_iff.mpr ⟨hp, ?_⟩⟩
    intro target' hlink'
    cases hlink.symm.trans hlink'
    exact hopen

theorem leadsTo_succ_iff_of_end (hp : ¬m.Sealed p) (hend : m.links.get? p = none) :
    m.LeadsTo (stops + 1) p q ↔ p = q := by
  constructor
  · rintro ⟨n, -, hchain, -, -⟩
    cases hchain with
    | stop => rfl
    | hop hlink => cases hend.symm.trans hlink
  · rintro rfl
    refine ⟨0, Nat.succ_pos stops, .stop, hend, open_succ_iff.mpr ⟨hp, ?_⟩⟩
    exact fun target _ => open_zero

theorem stuck_succ_iff_of_sealed (hp : m.Sealed p) :
    m.Stuck (stops + 1) p e ↔ e = sealedError p := by
  constructor
  · intro H
    cases H with
    | @atSeal n q hn hchain hq hopen =>
      cases n with
      | zero => rw [chain_zero_iff.mp hchain]
      | succ n => exact absurd hp (open_succ_iff.mp hopen).1
    | onward _ hopen => exact absurd hp (open_succ_iff.mp hopen).1
  · rintro rfl
    exact .atSeal (Nat.succ_pos stops) .stop hp open_zero

theorem stuck_succ_iff_of_link (hp : ¬m.Sealed p) (hlink : m.links.get? p = some target) :
    m.Stuck (stops + 1) p e ↔ m.Stuck stops target e := by
  have hopen_iff {stops : Nat} : m.Open (stops + 1) p ↔ m.Open stops target := by
    rw [open_succ_iff, hlink]
    simp [hp]
  have hchain_iff {n : Nat} {q : Path} : m.Chain (n + 1) p q ↔ m.Chain n target q := by
    rw [chain_succ_iff, hlink]
    simp
  constructor
  · intro H
    cases H with
    | @atSeal n q hn hchain hq hopen =>
      cases n with
      | zero =>
        cases chain_zero_iff.mp hchain
        exact absurd hq hp
      | succ n =>
        exact .atSeal (Nat.lt_of_succ_lt_succ hn) (hchain_iff.mp hchain) hq (hopen_iff.mp hopen)
    | onward hchain hopen => exact .onward (hchain_iff.mp hchain) (hopen_iff.mp hopen)
  · intro H
    cases H with
    | atSeal hn hchain hq hopen =>
      exact .atSeal (Nat.succ_lt_succ hn) (hchain_iff.mpr hchain) hq (hopen_iff.mpr hopen)
    | onward hchain hopen => exact .onward (hchain_iff.mpr hchain) (hopen_iff.mpr hopen)

theorem not_stuck_succ_of_end (hp : ¬m.Sealed p) (hend : m.links.get? p = none) :
    ¬m.Stuck (stops + 1) p e := by
  intro H
  cases H with
  | atSeal _ hchain hq _ =>
    cases hchain with
    | stop => exact hp hq
    | hop hlink => cases hend.symm.trans hlink
  | onward hchain _ =>
    cases hchain with
    | hop hlink => cases hend.symm.trans hlink

theorem stuck_zero_iff : m.Stuck 0 p e ↔ e = loopError := by
  constructor
  · intro H
    cases H with
    | atSeal hn => exact absurd hn (Nat.not_lt_zero _)
    | onward => rfl
  · rintro rfl
    exact .onward .stop open_zero

/-! ### Following a chain -/

theorem follow_succ_of_sealed (hp : m.Sealed p) :
    m.follow (stops + 1) p = .error (sealedError p) := by
  rw [follow, if_pos (isSealed_iff.mpr hp)]

theorem follow_succ_of_link (hp : ¬m.Sealed p) (hlink : m.links.get? p = some target) :
    m.follow (stops + 1) p = m.follow stops target := by
  rw [follow, if_neg (mt isSealed_iff.mp hp), hlink]

theorem follow_succ_of_end (hp : ¬m.Sealed p) (hend : m.links.get? p = none) :
    m.follow (stops + 1) p = .ok p := by
  rw [follow, if_neg (mt isSealed_iff.mp hp), hend]

theorem follow_eq_ok_iff : m.follow stops p = .ok q ↔ m.LeadsTo stops p q := by
  induction stops generalizing p with
  | zero => simp [follow, LeadsTo]
  | succ stops ih =>
    by_cases hp : m.Sealed p
    · simp [follow_succ_of_sealed hp, not_leadsTo_of_sealed hp]
    · cases hlink : m.links.get? p with
      | some target => rw [follow_succ_of_link hp hlink, leadsTo_succ_iff_of_link hp hlink, ih]
      | none => simp [follow_succ_of_end hp hlink, leadsTo_succ_iff_of_end hp hlink]

theorem follow_eq_error_iff : m.follow stops p = .error e ↔ m.Stuck stops p e := by
  induction stops generalizing p with
  | zero => simp [follow, stuck_zero_iff, eq_comm]
  | succ stops ih =>
    by_cases hp : m.Sealed p
    · simp [follow_succ_of_sealed hp, stuck_succ_iff_of_sealed hp, eq_comm]
    · cases hlink : m.links.get? p with
      | some target => rw [follow_succ_of_link hp hlink, stuck_succ_iff_of_link hp hlink, ih]
      | none => simp [follow_succ_of_end hp hlink, not_stuck_succ_of_end hp hlink]

/-! ### Files at the ends of chains -/

theorem resolve_eq_ok_iff : m.resolve p = .ok q ↔ m.LeadsTo maxStops p q := follow_eq_ok_iff

theorem resolve_eq_error_iff : m.resolve p = .error e ↔ m.Stuck maxStops p e := follow_eq_error_iff

/-- Where a path leads, there is no link and no seal. -/
theorem LeadsTo.settled (H : m.LeadsTo stops p q) : m.LeadsTo stops q q := by
  obtain ⟨n, hn, hchain, hend, hopen⟩ := H
  have hq : ¬m.Sealed q := hopen n (Nat.lt_succ_self n) q hchain
  refine ⟨0, Nat.lt_of_le_of_lt (Nat.zero_le n) hn, .stop, hend, open_succ_iff.mpr ⟨hq, ?_⟩⟩
  exact fun target _ => open_zero

theorem sameFile_of_resolve (ha : m.resolve a = .ok p) (hb : m.resolve b = .ok q) :
    m.sameFile a b = .ok (p.same q) := by
  rw [sameFile, ha, hb]

theorem resolve_of_evalLinks (ha : m.evalLinks a = .ok p) : m.resolve a = .ok p := by
  unfold evalLinks at ha
  split at ha
  · exact ha
  · cases ha

theorem sameFile_equivalence (m : MemoryFiles) :
    Equivalence fun a b : { p // ∃ q, m.resolve p = .ok q } => m.sameFile a b = .ok true where
  refl a := by
    obtain ⟨a, p, ha⟩ := a
    exact sameFile_eq_ok_true_iff.mpr ⟨p, p, ha, ha, same_refl⟩
  symm hab := by
    obtain ⟨p, q, ha, hb, hpq⟩ := sameFile_eq_ok_true_iff.mp hab
    exact sameFile_eq_ok_true_iff.mpr ⟨q, p, hb, ha, same_symm hpq⟩
  trans hab hbc := by
    obtain ⟨p, q, ha, hb, hpq⟩ := sameFile_eq_ok_true_iff.mp hab
    obtain ⟨q', r, hb', hc, hqr⟩ := sameFile_eq_ok_true_iff.mp hbc
    cases hb.symm.trans hb'
    exact sameFile_eq_ok_true_iff.mpr ⟨p, r, ha, hc, same_trans hpq hqr⟩

theorem read_of_sameFile (hab : m.sameFile a b = .ok true) :
    (∃ content, m.read a = .ok content ∧ m.read b = .ok content) ∨
      m.read a = .error (missingError a) ∧ m.read b = .error (missingError b) := by
  obtain ⟨p, q, ha, hb, hpq⟩ := sameFile_eq_ok_true_iff.mp hab
  simp only [read, ha, hb, m.files.get?_congr hpq]
  cases m.files.get? q with
  | some content => exact .inl ⟨content, rfl, rfl⟩
  | none => exact .inr ⟨rfl, rfl⟩

/-- Links are followed to the ends of their chains, and files are compared by where they lead. -/
theorem links_resolved (m : MemoryFiles) : m.ResolvesLinks where
  ok_iff p q := resolve_eq_ok_iff
  error_iff p e := resolve_eq_error_iff
  settled p q hp := resolve_eq_ok_iff.mpr (resolve_eq_ok_iff.mp hp).settled
  respelled a b p hab ha := resolve_of_same hab ha
  compared a b p q ha hb := sameFile_of_resolve ha hb
  equivalence := sameFile_equivalence m
  sameTarget a b p q ha hb hpq := by
    rw [sameFile_of_resolve (resolve_of_evalLinks ha) (resolve_of_evalLinks hb), hpq]
  sameContent a b hab := by
    rcases read_of_sameFile hab with hread | ⟨ha, hb⟩
    · exact .inl hread
    · exact .inr ⟨_, _, ha, hb, rfl, rfl⟩

/-- A chain of 39 links is followed to its end, and one link more is too many. -/
example :
    let link (n : Nat) : Path × Path := (⟨"/" ++ Text.decimal n⟩, ⟨"/" ++ Text.decimal (n + 1)⟩)
    let chain (n : Nat) : MemoryFiles := { empty with links := ⟨(List.range n).map link⟩ }
    ((chain 39).resolve ⟨"/0"⟩).toOption = some ⟨"/39"⟩ ∧
      ((chain 40).resolve ⟨"/0"⟩).toOption = none := by
  decide +kernel

end NodeDisks.MemoryFiles
