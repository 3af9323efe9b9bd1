import Mathlib.Data.List.Forall2
import NodeDisks.NodeLabels
import NodeDisks.Proofs.Text.Decimal

/-!
Which nodes a selector picks. Requirements and terms are tried in turn, and the first answer other
than the one to go on with is the result (`inTurn`). So a selector picks a node by its first term that
accepts the labels, unless a bound that is not one integer is reached before (`picks_selects`).

The order matters for such bounds only. Without them a selector picks by its terms as a set, and in no
two orders does it pick differently, though one of them may fail (`Selects.reordered`).
-/

namespace NodeDisks

/-! ### Tests taken in turn -/

section InTurn

variable {α : Type} {test : α → Except Error Bool} {go : Bool} {x : α} {xs : List α}
  {r : Except Error Bool}

/-- Tries `test` on the elements in turn for as long as it answers `go`. -/
def inTurn (test : α → Except Error Bool) (go : Bool) : List α → Except Error Bool
  | [] => .ok go
  | x :: xs =>
    match test x with
    | .error e => .error e
    | .ok b => if b = go then inTurn test go xs else .ok b

theorem inTurn_cons_of_go (hx : test x = .ok go) :
    inTurn test go (x :: xs) = inTurn test go xs := by
  simp [inTurn, hx]

theorem inTurn_cons_of_ne (hx : test x ≠ .ok go) : inTurn test go (x :: xs) = test x := by
  rw [inTurn]
  cases h : test x with
  | error e => rfl
  | ok b =>
    have hb : b ≠ go := fun hb => hx (by rw [h, hb])
    simp [hb]

theorem inTurn_eq_go_iff : inTurn test go xs = .ok go ↔ ∀ x ∈ xs, test x = .ok go := by
  induction xs with
  | nil => simp [inTurn]
  | cons x xs ih =>
    rw [List.forall_mem_cons]
    by_cases hx : test x = .ok go
    · rw [inTurn_cons_of_go hx, ih]
      exact (and_iff_right hx).symm
    · rw [inTurn_cons_of_ne hx]
      exact (and_iff_left_of_imp fun h => absurd h hx).symm

/-- Another result is that of the first test that does not answer `go`. -/
theorem inTurn_eq_iff (hr : r ≠ .ok go) : inTurn test go xs = r ↔
    ∃ before x after, xs = before ++ x :: after ∧ (∀ y ∈ before, test y = .ok go) ∧
      test x = r := by
  induction xs with
  | nil => simp [inTurn, hr.symm]
  | cons x xs ih =>
    by_cases hx : test x = .ok go
    · rw [inTurn_cons_of_go hx, ih]
      constructor
      · rintro ⟨before, y, after, rfl, hbefore, hy⟩
        exact ⟨x :: before, y, after, rfl, List.forall_mem_cons.mpr ⟨hx, hbefore⟩, hy⟩
      · rintro ⟨before, y, after, hxs, hbefore, hy⟩
        cases before with
        | nil =>
          obtain ⟨rfl, rfl⟩ := List.cons.inj hxs
          exact absurd (hy.symm.trans hx) hr
        | cons z before =>
          obtain ⟨rfl, rfl⟩ := List.cons.inj hxs
          exact ⟨before, y, after, rfl, (List.forall_mem_cons.mp hbefore).2, hy⟩
    · rw [inTurn_cons_of_ne hx]
      constructor
      · intro h
        exact ⟨[], x, xs, rfl, List.forall_mem_nil _, h⟩
      · rintro ⟨before, y, after, hxs, hbefore, hy⟩
        cases before with
        | nil =>
          obtain ⟨rfl, rfl⟩ := List.cons.inj hxs
          exact hy
        | cons z before =>
          obtain ⟨rfl, rfl⟩ := List.cons.inj hxs
          exact absurd (hbefore x (.head _)) hx

end InTurn

/-! ### Requirements -/

namespace Requirement

/-- The text spells an integer of 64 bits. -/
def IsNumber (s : String) (n : Int) : Prop :=
  Text.SpellsInteger s.toList n ∧ Text.IsSignedWord n

/-- The labels are as the requirement asks. A label that is not there has no number, but is none of
any values. -/
inductive Satisfied (labels : NodeLabels) : Requirement → Prop where
  | isIn {key value : String} {values : List String} : labels.lookup key = some value →
    value ∈ values → Satisfied labels ⟨key, .isIn, values⟩
  | notIn {key : String} {values : List String} :
    (∀ value, labels.lookup key = some value → value ∉ values) →
    Satisfied labels ⟨key, .notIn, values⟩
  | present {key value : String} {values : List String} : labels.lookup key = some value →
    Satisfied labels ⟨key, .present, values⟩
  | absent {key : String} {values : List String} : labels.lookup key = none →
    Satisfied labels ⟨key, .absent, values⟩
  | greater {key value bound : String} {m n : Int} : labels.lookup key = some value →
    IsNumber value n → IsNumber bound m → m < n → Satisfied labels ⟨key, .greater, [bound]⟩
  | less {key value bound : String} {m n : Int} : labels.lookup key = some value →
    IsNumber value n → IsNumber bound m → n < m → Satisfied labels ⟨key, .less, [bound]⟩

/-- The requirement compares with a bound. -/
def Compares (r : Requirement) : Prop := r.operator = .greater ∨ r.operator = .less

/-- The bound of a requirement is not one integer, which is the fault `e`. -/
inductive Malformed (r : Requirement) : Error → Prop where
  | count : r.Compares → r.values.length ≠ 1 →
    Malformed r (.configuration (.boundCount r.operator.name r.key r.values.length))
  | text {value : String} : r.Compares → r.values = [value] → (∀ n, ¬IsNumber value n) →
    Malformed r (.configuration (.boundText r.key value))

variable {labels : NodeLabels} {r : Requirement} {e : Error} {n : Int} {value : String}

theorem signedWord?_eq_some_iff : Text.signedWord? value.toList = some n ↔ IsNumber value n :=
  Text.signedWord?_eq_some_iff

theorem signedWord?_eq_none_iff :
    Text.signedWord? value.toList = none ↔ ∀ n, ¬IsNumber value n := by
  simp only [← signedWord?_eq_some_iff, Option.eq_none_iff_forall_ne_some, ne_eq]

theorem labelNumber_eq_some_iff {label : Option String} :
    labelNumber label = some n ↔ ∃ value, label = some value ∧ IsNumber value n := by
  simp only [labelNumber, Option.bind_eq_some_iff, signedWord?_eq_some_iff]

theorem bound_eq_ok_iff : r.bound = .ok n ↔ ∃ value, r.values = [value] ∧ IsNumber value n := by
  unfold bound
  split
  case h_1 value hvalues =>
    simp only [hvalues, List.cons.injEq, and_true, exists_eq_left', ← signedWord?_eq_some_iff]
    cases Text.signedWord? value.toList <;> simp
  case h_2 hvalues =>
    refine iff_of_false (by simp) ?_
    rintro ⟨value, hvalue, -⟩
    exact hvalues value hvalue

theorem bound_eq_error_iff (hr : r.Compares) : r.bound = .error e ↔ r.Malformed e := by
  unfold bound
  constructor
  · intro h
    split at h
    case h_1 value hvalues =>
      split at h
      case h_1 => cases h
      case h_2 hnone =>
        cases h
        exact .text hr hvalues (signedWord?_eq_none_iff.mp hnone)
    case h_2 hvalues =>
      cases h
      refine .count hr fun hlength => ?_
      obtain ⟨value, hvalue⟩ := List.length_eq_one_iff.mp hlength
      exact hvalues value hvalue
  · intro H
    cases H with
    | count _ hlength =>
      split
      case h_1 value hvalues => simp [hvalues] at hlength
      case h_2 => rfl
    | @text value _ hvalues hnone => simp [hvalues, signedWord?_eq_none_iff.mpr hnone]

/-- A comparison is one of the label with the bound, when both are numbers. -/
theorem map_bound_eq_ok_true_iff {label : Option String} {p : Int → Int → Prop}
    [∀ m n, Decidable (p m n)] :
    (r.bound.map fun m => match labelNumber label with
      | some n => decide (p m n)
      | none => false) = .ok true ↔
    ∃ bound m value n, r.values = [bound] ∧ IsNumber bound m ∧ label = some value ∧
      IsNumber value n ∧ p m n := by
  constructor
  · intro h
    cases hbound : r.bound with
    | error e => simp [hbound, Except.map] at h
    | ok m =>
      cases hlabel : labelNumber label with
      | none => simp [hbound, hlabel, Except.map] at h
      | some n =>
        obtain ⟨bound, hvalues, hm⟩ := bound_eq_ok_iff.mp hbound
        obtain ⟨value, hvalue, hn⟩ := labelNumber_eq_some_iff.mp hlabel
        exact ⟨bound, m, value, n, hvalues, hm, hvalue, hn,
          by simpa [hbound, hlabel, Except.map] using h⟩
  · rintro ⟨bound, m, value, n, hvalues, hm, hvalue, hn, hp⟩
    have hbound := bound_eq_ok_iff.mpr ⟨bound, hvalues, hm⟩
    have hlabel := labelNumber_eq_some_iff.mpr ⟨value, hvalue, hn⟩
    simp [hbound, hlabel, Except.map, hp]

theorem holds_eq_ok_true_iff : holds labels r = .ok true ↔ r.Satisfied labels := by
  obtain ⟨key, operator, values⟩ := r
  constructor
  · intro h
    cases operator with
    | isIn =>
      cases hlabel : labels.lookup key with
      | none => simp [holds, hlabel] at h
      | some value => exact .isIn hlabel (by simpa [holds, hlabel] using h)
    | notIn =>
      refine .notIn fun value hlabel => ?_
      simpa [holds, hlabel] using h
    | present =>
      obtain ⟨value, hlabel⟩ : ∃ value, labels.lookup key = some value :=
        Option.isSome_iff_exists.mp (by simpa [holds] using h)
      exact .present hlabel
    | absent => exact .absent (by simpa [holds] using h)
    | greater =>
      obtain ⟨bound, m, value, n, rfl, hm, hlabel, hn, hlt⟩ := map_bound_eq_ok_true_iff.mp h
      exact .greater hlabel hn hm hlt
    | less =>
      obtain ⟨bound, m, value, n, rfl, hm, hlabel, hn, hlt⟩ := map_bound_eq_ok_true_iff.mp h
      exact .less hlabel hn hm hlt
  · intro H
    cases H with
    | isIn hlabel hmem => simp [holds, hlabel, hmem]
    | notIn hnone =>
      cases hlabel : labels.lookup key with
      | none => simp [holds, hlabel]
      | some value => simp [holds, hlabel, hnone value hlabel]
    | present hlabel => simp [holds, hlabel]
    | absent hlabel => simp [holds, hlabel]
    | greater hlabel hn hm hlt =>
      exact map_bound_eq_ok_true_iff.mpr ⟨_, _, _, _, rfl, hm, hlabel, hn, hlt⟩
    | less hlabel hn hm hlt =>
      exact map_bound_eq_ok_true_iff.mpr ⟨_, _, _, _, rfl, hm, hlabel, hn, hlt⟩

theorem holds_eq_error_iff : holds labels r = .error e ↔ r.Malformed e := by
  by_cases hr : r.Compares
  · rw [← bound_eq_error_iff hr]
    have hmap {f : Int → Bool} : r.bound.map f = .error e ↔ r.bound = .error e := by
      cases r.bound <;> simp [Except.map]
    unfold holds
    rcases hr with hr | hr <;> simp only [hr] <;> exact hmap
  · have hnone : ¬r.Malformed e := by
      intro H
      cases H with
      | count hcompares => exact hr hcompares
      | text hcompares => exact hr hcompares
    refine iff_of_false ?_ hnone
    unfold holds
    cases hoperator : r.operator with
    | greater => exact absurd (.inl hoperator) hr
    | less => exact absurd (.inr hoperator) hr
    | isIn | notIn | present | absent => simp

end Requirement

/-! ### Terms -/

namespace SelectorTerm

/-- The term has requirements, and the labels are as all of them ask. -/
structure Accepts (labels : NodeLabels) (t : SelectorTerm) : Prop where
  nonempty : t.requirements ≠ []
  satisfied : ∀ r ∈ t.requirements, r.Satisfied labels

/-- Behind requirements that are satisfied comes one that is malformed. -/
def Reaches (labels : NodeLabels) (t : SelectorTerm) (e : Error) : Prop :=
  ∃ before r after, t.requirements = before ++ r :: after ∧ (∀ q ∈ before, q.Satisfied labels) ∧
    r.Malformed e

/-- The term does not accept the labels, and no malformed requirement comes to light. -/
structure Rejects (labels : NodeLabels) (t : SelectorTerm) : Prop where
  not_accepts : ¬t.Accepts labels
  not_reaches : ∀ e, ¬t.Reaches labels e

variable {labels : NodeLabels} {t u : SelectorTerm} {e : Error}

theorem allHold_eq_inTurn (rs : List Requirement) :
    Requirement.allHold labels rs = inTurn (Requirement.holds labels) true rs := by
  induction rs with
  | nil => rfl
  | cons r rs ih =>
    rw [Requirement.allHold, inTurn]
    split <;> simp_all

theorem termHolds_of_nonempty (h : t.requirements ≠ []) : NodeSelector.termHolds labels t =
    inTurn (Requirement.holds labels) true t.requirements := by
  have hisEmpty : t.requirements.isEmpty = false := List.isEmpty_eq_false_iff.mpr h
  rw [NodeSelector.termHolds, hisEmpty, allHold_eq_inTurn]
  rfl

theorem termHolds_of_empty (h : t.requirements = []) :
    NodeSelector.termHolds labels t = .ok false := by
  simp [NodeSelector.termHolds, h]

theorem termHolds_eq_ok_true_iff :
    NodeSelector.termHolds labels t = .ok true ↔ t.Accepts labels := by
  by_cases h : t.requirements = []
  · rw [termHolds_of_empty h]
    exact iff_of_false (by simp) fun H => H.nonempty h
  · rw [termHolds_of_nonempty h, inTurn_eq_go_iff]
    simp only [Requirement.holds_eq_ok_true_iff]
    exact ⟨fun H => ⟨h, H⟩, fun H => H.satisfied⟩

theorem termHolds_eq_error_iff :
    NodeSelector.termHolds labels t = .error e ↔ t.Reaches labels e := by
  by_cases h : t.requirements = []
  · rw [termHolds_of_empty h]
    refine iff_of_false (by simp) ?_
    rintro ⟨before, r, after, hsplit, -⟩
    simp [h] at hsplit
  · rw [termHolds_of_nonempty h, inTurn_eq_iff (by simp)]
    simp only [Requirement.holds_eq_ok_true_iff, Requirement.holds_eq_error_iff, Reaches]

theorem termHolds_eq_ok_false_iff :
    NodeSelector.termHolds labels t = .ok false ↔ t.Rejects labels := by
  constructor
  · intro h
    constructor
    · rw [← termHolds_eq_ok_true_iff, h]
      simp
    · intro e
      rw [← termHolds_eq_error_iff, h]
      simp
  · rintro ⟨haccepts, hreaches⟩
    cases h : NodeSelector.termHolds labels t with
    | error e => exact absurd (termHolds_eq_error_iff.mp h) (hreaches e)
    | ok b =>
      cases b with
      | true => exact absurd (termHolds_eq_ok_true_iff.mp h) haccepts
      | false => rfl

theorem accepts_congr (h : t.requirements.Perm u.requirements) :
    t.Accepts labels ↔ u.Accepts labels := by
  have hnil : t.requirements = [] ↔ u.requirements = [] := by
    rw [← List.length_eq_zero_iff, h.length_eq, List.length_eq_zero_iff]
  constructor
  · rintro ⟨hne, hall⟩
    exact ⟨mt hnil.mpr hne, fun r hr => hall r (h.mem_iff.mpr hr)⟩
  · rintro ⟨hne, hall⟩
    exact ⟨mt hnil.mp hne, fun r hr => hall r (h.mem_iff.mp hr)⟩

end SelectorTerm

/-! ### Selectors -/

namespace NodeSelector

/-- The result of trying the terms in turn. -/
structure Decides (labels : NodeLabels) (terms : List SelectorTerm) (result : Except Error Bool) :
    Prop where
  /-- A term accepts the labels, and nothing malformed is reached on the way to it. -/
  picked : result = .ok true ↔ ∃ before t after, terms = before ++ t :: after ∧
    t.Accepts labels ∧ ∀ u ∈ before, ∀ e, ¬u.Reaches labels e
  /-- Behind terms that are rejected comes one in which something malformed is reached. -/
  failed : ∀ e, result = .error e ↔ ∃ before t after, terms = before ++ t :: after ∧
    (∀ u ∈ before, u.Rejects labels) ∧ t.Reaches labels e
  passedOver : result = .ok false ↔ ∀ t ∈ terms, t.Rejects labels
  fault : ∀ e, result = .error e → ∃ f, e = .configuration f

/-- No requirement is malformed. -/
def WellFormed (s : NodeSelector) : Prop :=
  ∀ t ∈ s.terms, ∀ r ∈ t.requirements, ∀ e, ¬r.Malformed e

/-- The other selector has the same terms in some order, each with the same requirements in some
order. -/
def Reordered (s s' : NodeSelector) : Prop :=
  ∃ terms, s.terms.Perm terms ∧
    List.Forall₂ (fun t u => t.requirements.Perm u.requirements) terms s'.terms

/-- What a selector picks, and what its order has to do with it. -/
structure Selects (labels : NodeLabels) (s : NodeSelector) : Prop where
  decides : Decides labels s.terms (picks labels (some s))
  /-- Without malformed requirements it picks by a disjunction of conjunctions. -/
  wellFormed : s.WellFormed → ∃ picked, picks labels (some s) = .ok picked ∧
    (picked = true ↔ ∃ t ∈ s.terms, t.Accepts labels)
  /-- Then the order does not matter. -/
  unordered : s.WellFormed → ∀ s', s.Reordered s' → picks labels (some s') = picks labels (some s)
  /-- In any case no other order picks differently, if it picks at all. -/
  reordered : ∀ s', s.Reordered s' → ∀ b b', picks labels (some s) = .ok b →
    picks labels (some s') = .ok b' → b = b'

variable {labels : NodeLabels} {s s' : NodeSelector} {ts : List SelectorTerm}

open SelectorTerm

theorem anyHolds_eq_inTurn (ts : List SelectorTerm) :
    anyHolds labels ts = inTurn (termHolds labels) false ts := by
  induction ts with
  | nil => rfl
  | cons t ts ih =>
    rw [anyHolds, inTurn]
    split <;> simp_all

theorem anyHolds_of_accepts {before after : List SelectorTerm} {t : SelectorTerm}
    (ht : t.Accepts labels) (hbefore : ∀ u ∈ before, ∀ e, ¬u.Reaches labels e) :
    anyHolds labels (before ++ t :: after) = .ok true := by
  rw [anyHolds_eq_inTurn]
  induction before with
  | nil =>
    have htrue := termHolds_eq_ok_true_iff.mpr ht
    rw [List.nil_append, inTurn_cons_of_ne (by simp [htrue]), htrue]
  | cons u before ih =>
    obtain ⟨hu, hbefore⟩ := List.forall_mem_cons.mp hbefore
    rw [List.cons_append]
    -- A term on the way is rejected, or accepts the labels itself.
    cases h : termHolds labels u with
    | error e => exact absurd (termHolds_eq_error_iff.mp h) (hu e)
    | ok b =>
      cases b with
      | false => rw [inTurn_cons_of_go h, ih hbefore]
      | true => rw [inTurn_cons_of_ne (by simp [h]), h]

theorem anyHolds_decides (labels : NodeLabels) (ts : List SelectorTerm) :
    Decides labels ts (anyHolds labels ts) where
  picked := by
    constructor
    · intro h
      rw [anyHolds_eq_inTurn, inTurn_eq_iff (by simp)] at h
      obtain ⟨before, t, after, hts, hbefore, ht⟩ := h
      refine ⟨before, t, after, hts, termHolds_eq_ok_true_iff.mp ht, fun u hu => ?_⟩
      exact (termHolds_eq_ok_false_iff.mp (hbefore u hu)).not_reaches
    · rintro ⟨before, t, after, rfl, ht, hbefore⟩
      exact anyHolds_of_accepts ht hbefore
  failed e := by
    rw [anyHolds_eq_inTurn, inTurn_eq_iff (by simp)]
    simp only [termHolds_eq_ok_false_iff, termHolds_eq_error_iff]
  passedOver := by
    rw [anyHolds_eq_inTurn, inTurn_eq_go_iff]
    simp only [termHolds_eq_ok_false_iff]
  fault e h := by
    rw [anyHolds_eq_inTurn, inTurn_eq_iff (by simp)] at h
    obtain ⟨-, t, -, -, -, ht⟩ := h
    obtain ⟨-, r, -, -, -, hr⟩ := termHolds_eq_error_iff.mp ht
    cases hr with
    | count => exact ⟨_, rfl⟩
    | text => exact ⟨_, rfl⟩

theorem exists_accepts_of_picked (h : picks labels (some s) = .ok true) :
    ∃ t ∈ s.terms, t.Accepts labels := by
  obtain ⟨before, t, after, hterms, ht, -⟩ := (anyHolds_decides labels s.terms).picked.mp h
  exact ⟨t, by simp [hterms], ht⟩

theorem not_accepts_of_passedOver (h : picks labels (some s) = .ok false) :
    ¬∃ t ∈ s.terms, t.Accepts labels := by
  rintro ⟨t, hmem, ht⟩
  exact ((anyHolds_decides labels s.terms).passedOver.mp h t hmem).not_accepts ht

theorem picked_iff {b : Bool} (h : picks labels (some s) = .ok b) :
    b = true ↔ ∃ t ∈ s.terms, t.Accepts labels := by
  cases b with
  | true => exact iff_of_true rfl (exists_accepts_of_picked h)
  | false => exact iff_of_false (by simp) (not_accepts_of_passedOver h)

theorem WellFormed.exists_picked (H : s.WellFormed) (labels : NodeLabels) :
    ∃ picked, picks labels (some s) = .ok picked := by
  cases h : picks labels (some s) with
  | ok b => exact ⟨b, rfl⟩
  | error e =>
    obtain ⟨before, t, after, hterms, -, rs, r, rs', hrequirements, -, hr⟩ :=
      ((anyHolds_decides labels s.terms).failed e).mp h
    exact absurd hr (H t (by simp [hterms]) r (by simp [hrequirements]) e)

/-! ### Orders -/

theorem exists_mem_iff_of_forall₂ {p : SelectorTerm → Prop} {ts us : List SelectorTerm}
    (H : List.Forall₂ (fun t u => t.requirements.Perm u.requirements) ts us)
    (hp : ∀ t u : SelectorTerm, t.requirements.Perm u.requirements → (p t ↔ p u)) :
    (∃ t ∈ ts, p t) ↔ ∃ u ∈ us, p u := by
  induction H with
  | nil => simp
  | cons htu _ ih => rw [List.exists_mem_cons_iff, List.exists_mem_cons_iff, ih, hp _ _ htu]

theorem Reordered.exists_mem_iff (H : s.Reordered s') {p : SelectorTerm → Prop}
    (hp : ∀ t u : SelectorTerm, t.requirements.Perm u.requirements → (p t ↔ p u)) :
    (∃ t ∈ s.terms, p t) ↔ ∃ t ∈ s'.terms, p t := by
  obtain ⟨terms, hperm, hforall⟩ := H
  rw [← exists_mem_iff_of_forall₂ hforall hp]
  simp only [hperm.mem_iff]

theorem Reordered.exists_accepts_iff (H : s.Reordered s') :
    (∃ t ∈ s.terms, t.Accepts labels) ↔ ∃ t ∈ s'.terms, t.Accepts labels :=
  H.exists_mem_iff fun _ _ => accepts_congr

theorem Reordered.wellFormed (H : s.Reordered s') (hs : s.WellFormed) : s'.WellFormed := by
  intro t ht r hr e he
  have hmalformed : ∃ t ∈ s.terms, ∃ r ∈ t.requirements, ∃ e, r.Malformed e := by
    rw [H.exists_mem_iff fun t u htu => by simp only [htu.mem_iff]]
    exact ⟨t, ht, r, hr, e, he⟩
  obtain ⟨t, ht, r, hr, e, he⟩ := hmalformed
  exact hs t ht r hr e he

/-- Where both orders come to a result, it is the same: whether any term accepts the labels. -/
theorem Reordered.picks_eq (H : s.Reordered s') {b b' : Bool} (h : picks labels (some s) = .ok b)
    (h' : picks labels (some s') = .ok b') : b = b' := by
  rw [Bool.eq_iff_iff, picked_iff h, picked_iff h']
  exact H.exists_accepts_iff

/-- Without a selector every node is picked, and a selector picks by the first of its terms that
accepts the labels. -/
theorem picks_selects (labels : NodeLabels) :
    picks labels none = .ok true ∧ ∀ s, Selects labels s := by
  refine ⟨rfl, fun s => ?_⟩
  constructor
  · exact anyHolds_decides labels s.terms
  · intro hs
    obtain ⟨picked, h⟩ := hs.exists_picked labels
    exact ⟨picked, h, picked_iff h⟩
  · intro hs s' H
    obtain ⟨b, h⟩ := hs.exists_picked labels
    obtain ⟨b', h'⟩ := (H.wellFormed hs).exists_picked labels
    rw [h, h', H.picks_eq h h']
  · intro s' H b b' h h'
    exact H.picks_eq h h'

end NodeSelector

end NodeDisks
