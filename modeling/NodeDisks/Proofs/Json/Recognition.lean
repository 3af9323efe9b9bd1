import NodeDisks.Proofs.Json.Grammar

/-!
The reader reads just the grammar. Each part of the reader `Recognizes` a grammar, and what is built
from parts recognizes what is built from their grammars: items between brackets, entries, and by
induction on the depth all values (`recognizes_value`). A text is therefore read as a value, or as a
record of one field, exactly when the grammar says so (`parse?_eq_some_iff`,
`arrayField?_eq_some_iff`).
-/

namespace NodeDisks.Json

open Grammar

variable {α : Type} {cs cs' rest : List Char} {c close : Char} {skip : Bool}

/-- The reader passes over white space and takes just what the grammar allows, as far as it is
followed by what may follow a value. -/
structure Recognizes (item : List Char → Reading α) (G : Grammar α) : Prop where
  opens {cs rest : List Char} {x : α} : G cs x rest → Opens cs
  length_le {cs rest : List Char} {x : α} : G cs x rest → rest.length ≤ cs.length
  sound {cs rest : List Char} {x : α} : item cs = some (x, rest) → ∃ cs', Gap cs cs' ∧ G cs' x rest
  complete {cs cs' rest : List Char} {x : α} : Gap cs cs' → G cs' x rest → Closed rest →
    item cs = some (x, rest)

/-! ### Items -/

section Items

variable {item : List Char → Reading α} {G G' : Grammar α} {xs : List α} {most : Nat}

theorem someItems?_sound (H : Recognizes item G)
    (h : someItems? item close most cs = some (xs, rest)) :
    xs ≠ [] ∧ Items G close cs xs rest := by
  induction most generalizing cs xs with
  | zero => cases h
  | succ most ih =>
    rw [someItems?] at h
    split at h
    case h_1 => cases h
    case h_2 x cs₂ hitem =>
      obtain ⟨cs₁, hgap, hx⟩ := H.sound hitem
      split at h
      case h_1 => cases h
      case h_2 c cs₃ hskip =>
        have hgap' : Gap cs₂ (c :: cs₃) := gap_of_skipBlank hskip
        split at h
        case isTrue hcomma =>
          obtain ⟨⟨ys, r⟩, hys, heq⟩ := Option.map_eq_some_iff.mp h
          cases heq
          obtain ⟨hne, hitems⟩ := ih hys
          rw [hcomma] at hgap'
          exact ⟨List.cons_ne_nil _ _, .more hgap hx hgap' hitems hne⟩
        case isFalse =>
          split at h
          case isTrue hclose =>
            cases h
            rw [hclose] at hgap'
            exact ⟨List.cons_ne_nil _ _, .last hgap hx hgap'⟩
          case isFalse => cases h

theorem Grammar.Items.length_le (H : Recognizes item G) (hitems : Items G close cs xs rest) :
    xs.length + rest.length ≤ cs.length := by
  induction hitems with
  | none hgap =>
    have hle := hgap.length_le
    simp only [List.length_cons, List.length_nil] at hle ⊢
    omega
  | last hgap hx hgap' =>
    have hle := hgap.length_le
    have hle' := H.length_le hx
    have hle'' := hgap'.length_le
    simp only [List.length_cons, List.length_nil] at hle'' ⊢
    omega
  | more hgap hx hgap' _ _ ih =>
    have hle := hgap.length_le
    have hle' := H.length_le hx
    have hle'' := hgap'.length_le
    simp only [List.length_cons] at hle'' ⊢
    omega

/-- An item ends where the next comma or the closing bracket is. -/
theorem Grammar.Gap.closed (H : Gap cs (c :: rest)) (hc : c = ',' ∨ IsClosing c) : Closed cs := by
  cases H with
  | none => exact closed_cons (.inr hc)
  | some hblank _ => exact closed_cons (.inl hblank)

theorem someItems?_complete (H : Recognizes item G) (hclosing : IsClosing close)
    (hitems : Items G close cs xs rest) (hne : xs ≠ []) (hmost : xs.length ≤ most) :
    someItems? item close most cs = some (xs, rest) := by
  induction hitems generalizing most with
  | none => exact absurd rfl hne
  | last hgap hx hgap' =>
    obtain ⟨most, rfl⟩ := Nat.exists_eq_add_one_of_ne_zero (Nat.ne_zero_of_lt hmost)
    rw [someItems?, H.complete hgap hx (hgap'.closed (.inr hclosing))]
    simp only [hgap'.skipBlank_cons hclosing.not_blank, if_neg hclosing.ne_comma, if_pos]
  | more hgap hx hgap' _ hne' ih =>
    obtain ⟨most, rfl⟩ := Nat.exists_eq_add_one_of_ne_zero (Nat.ne_zero_of_lt hmost)
    rw [someItems?, H.complete hgap hx (hgap'.closed (.inl rfl))]
    simp only [hgap'.skipBlank_cons (c := ',') rfl, if_pos, ih hne' (Nat.le_of_succ_le_succ hmost),
      Option.map_some]

/-- Items do not start with the bracket that closes them. -/
theorem Grammar.Items.exists_cons (H : Recognizes item G) (hclosing : IsClosing close)
    (hitems : Items G close cs xs rest) (hne : xs ≠ []) :
    ∃ c cs', skipBlank cs = c :: cs' ∧ c ≠ close := by
  have hstart {cs₁ cs₂ : List Char} {x : α} (hgap : Gap cs cs₁) (hx : G cs₁ x cs₂) :
      ∃ c cs', skipBlank cs = c :: cs' ∧ c ≠ close := by
    obtain ⟨c, cs', rfl, hblank, hc⟩ := H.opens hx
    refine ⟨c, cs', hgap.skipBlank_cons hblank, ?_⟩
    rintro rfl
    exact hc hclosing
  cases hitems with
  | none => exact absurd rfl hne
  | last hgap hx _ => exact hstart hgap hx
  | more hgap hx _ _ _ => exact hstart hgap hx

theorem items?_eq_some_iff (H : Recognizes item G) (hclosing : IsClosing close) :
    items? item close cs = some (xs, rest) ↔ Items G close cs xs rest := by
  constructor
  · intro h
    unfold items? at h
    split at h
    case h_1 => cases h
    case h_2 c cs' hskip =>
      split at h
      case isTrue hclose =>
        cases h
        rw [hclose] at hskip
        exact .none (gap_of_skipBlank hskip)
      case isFalse => exact (someItems?_sound H h).2
  · intro hitems
    by_cases hxs : xs = []
    · subst hxs
      cases hitems with
      | none hgap => simp [items?, hgap.skipBlank_cons hclosing.not_blank]
    · obtain ⟨c, cs', hskip, hc⟩ := hitems.exists_cons H hclosing hxs
      have hlength : xs.length ≤ cs.length :=
        Nat.le_trans (Nat.le_add_right _ _) (hitems.length_le H)
      simp only [items?, hskip, if_neg hc]
      exact someItems?_complete H hclosing hitems hxs hlength

theorem Grammar.Items.imp (H : Recognizes item G) (hitems : Items G close cs xs rest)
    (himp : ∀ {cs₁ cs₂ : List Char} {x : α}, cs₁.length ≤ cs.length → G cs₁ x cs₂ → G' cs₁ x cs₂) :
    Items G' close cs xs rest := by
  induction hitems with
  | none hgap => exact .none hgap
  | last hgap hx hgap' => exact .last hgap (himp hgap.length_le hx) hgap'
  | @more cs cs₁ cs₂ cs₃ rest x xs hgap hx hgap' _ hne ih =>
    have hlt : cs₃.length < cs.length :=
      Nat.lt_of_lt_of_le hgap'.length_le (Nat.le_trans (H.length_le hx) hgap.length_le)
    refine .more hgap (himp hgap.length_le hx) hgap' (ih fun hle => ?_) hne
    exact himp (Nat.le_trans hle (Nat.le_of_lt hlt))

end Items

/-! ### Lengths -/

theorem Grammar.Units.length_lt {us : List Nat} (H : Units cs us rest) :
    rest.length < cs.length := by
  induction H with
  | close => simp
  | hex _ _ ih | escape _ _ ih | plain _ _ _ _ ih =>
    simp only [List.length_cons]
    omega

theorem Grammar.Quoted.length_lt {s : String} (H : Quoted skip cs s rest) :
    rest.length < cs.length := by
  cases H with
  | kept hus _ | skipped hus => exact hus.length_lt

theorem Grammar.Digits.length_le {ds : List Char} (H : Digits cs ds rest) :
    rest.length ≤ cs.length := by
  simp [H.text]

theorem Grammar.Fraction.length_le {x : Option (List Char)} (H : Fraction cs x rest) :
    rest.length ≤ cs.length := by
  cases H with
  | absent => exact Nat.le_refl _
  | present hds => exact Nat.le_succ_of_le hds.length_le

theorem Grammar.Sign.length_le {x : Int} (H : Sign cs x rest) : rest.length ≤ cs.length := by
  cases H with
  | none => exact Nat.le_refl _
  | plus | minus => exact Nat.le_succ _

theorem Grammar.Exponent.length_le {x : Option Int} (H : Exponent cs x rest) :
    rest.length ≤ cs.length := by
  cases H with
  | absent => exact Nat.le_refl _
  | present _ hsign hds => exact Nat.le_succ_of_le (Nat.le_trans hds.length_le hsign.length_le)

theorem Grammar.Parts.length_le {p : NumberParts} (H : Parts cs p rest) :
    rest.length ≤ cs.length := by
  obtain ⟨hwhole, hfraction, hexponent⟩ := H
  calc rest.length
    _ ≤ _ := hexponent.length_le
    _ ≤ _ := hfraction.length_le
    _ ≤ cs.length := hwhole.digits.length_le

theorem Grammar.Numeral.length_le {n : Number} (H : Numeral skip cs n rest) :
    rest.length ≤ cs.length := by
  cases H with
  | kept hminus hparts _ | skipped hminus hparts =>
    cases hminus with
    | absent => exact hparts.length_le
    | present => exact Nat.le_succ_of_le hparts.length_le

theorem Grammar.Leaf.length_le {j : Json} (H : Leaf skip cs j rest) : rest.length ≤ cs.length := by
  cases H with
  | text hs => exact Nat.le_succ_of_le (Nat.le_of_lt hs.length_lt)
  | number hn => exact hn.length_le
  | null | true | false =>
    simp only [List.length_cons]
    omega

/-! ### Entries -/

section Entries

variable {value : String → List Char → Reading α} {V V' : String → Grammar α} {x : α}

theorem Grammar.Entry.length_le (H : ∀ key, Recognizes (value key) (V key))
    (hentry : Entry skip V cs x rest) : rest.length ≤ cs.length := by
  obtain ⟨hkey, hcolon, hgap, hx⟩ := hentry
  have h₁ := hkey.length_lt
  have h₂ := hcolon.length_le
  have h₃ := hgap.length_le
  have h₄ := (H _).length_le hx
  simp only [List.length_cons] at h₂ ⊢
  omega

theorem Grammar.Entry.imp (hentry : Entry skip V cs x rest)
    (himp : ∀ {key : String} {cs₁ : List Char}, cs₁.length ≤ cs.length → V key cs₁ x rest →
      V' key cs₁ x rest) : Entry skip V' cs x rest := by
  obtain ⟨hkey, hcolon, hgap, hx⟩ := hentry
  refine .mk hkey hcolon hgap (himp ?_ hx)
  have h₁ := hkey.length_lt
  have h₂ := hcolon.length_le
  have h₃ := hgap.length_le
  simp only [List.length_cons] at h₂ ⊢
  omega

theorem recognizes_entry (skip : Bool) (H : ∀ key, Recognizes (value key) (V key)) :
    Recognizes (pair? skip value) (Entry skip V) where
  opens hentry := by
    obtain ⟨-, -, -, -⟩ := hentry
    exact ⟨'"', _, rfl, rfl, by decide⟩
  length_le hentry := hentry.length_le H
  sound h := by
    unfold pair? at h
    split at h
    case h_2 => cases h
    case h_1 cs₀ hquote =>
      split at h
      case h_1 => cases h
      case h_2 key cs₁ hkey =>
        split at h
        case h_2 => cases h
        case h_1 cs₂ hcolon =>
          obtain ⟨cs₃, hgap, hx⟩ := (H key).sound h
          exact ⟨_, gap_of_skipBlank hquote,
            .mk (stringBody?_eq_some_iff.mp hkey) (gap_of_skipBlank hcolon) hgap hx⟩
  complete hgap hentry hclosed := by
    obtain ⟨hkey, hcolon, hgap', hx⟩ := hentry
    simp only [pair?, hgap.skipBlank_cons (c := '"') rfl, stringBody?_eq_some_iff.mpr hkey,
      hcolon.skipBlank_cons (c := ':') rfl, (H _).complete hgap' hx hclosed]

end Entries

/-! ### Values -/

variable {depth n : Nat} {j : Json}

theorem Grammar.Leaf.value (H : Leaf skip cs j rest) : Value skip depth cs j rest := by
  cases depth with
  | zero => exact H
  | succ depth => exact .inl H

theorem Grammar.Leaf.opens (H : Leaf skip cs j rest) : Opens cs := by
  cases H with
  | null | true | false | text _ => exact ⟨_, _, rfl, rfl, by decide⟩
  | number hn =>
    obtain ⟨c, cs', rfl, hdigit | rfl⟩ := hn.exists_cons
    · refine ⟨c, cs', rfl, not_isBlank_of_isDigit hdigit, ?_⟩
      rintro (rfl | rfl) <;> cases hdigit
    · exact ⟨'-', cs', rfl, rfl, by decide⟩

/-- A key and its value, as the reader of objects puts them together. -/
theorem recognizes_keyed {value : List Char → Reading Json} {V : Grammar Json}
    (H : Recognizes value V) (key : String) :
    Recognizes (fun cs => (value cs).map fun (v, r) => ((key, v), r)) (Keyed V key) where
  opens hkeyed := by
    obtain ⟨hv⟩ := hkeyed
    exact H.opens hv
  length_le hkeyed := by
    obtain ⟨hv⟩ := hkeyed
    exact H.length_le hv
  sound h := by
    obtain ⟨⟨v, r⟩, hv, heq⟩ := Option.map_eq_some_iff.mp h
    cases heq
    obtain ⟨cs', hgap, hv⟩ := H.sound hv
    exact ⟨cs', hgap, .mk hv⟩
  complete hgap hkeyed hclosed := by
    obtain ⟨hv⟩ := hkeyed
    simp only [H.complete hgap hv hclosed, Option.map_some]

theorem Grammar.Leaf.value?_eq (H : Leaf skip cs' j rest) (hgap : Gap cs cs')
    (hclosed : Closed rest) : value? skip depth cs = some (j, rest) := by
  have hskip : skipBlank cs = cs' := hgap.skipBlank_of_opens H.opens
  cases H with
  | null | true | false =>
    rw [value?, hskip]
    rfl
  | text hs =>
    rw [value?, hskip]
    simp [stringBody?_eq_some_iff.mpr hs]
  | number hn =>
    obtain ⟨c, cs', rfl, hc⟩ := hn.exists_cons
    rw [value?, hskip]
    split
    case h_7 => simp [hn.number?_eq hclosed]
    -- The other cases start with a letter, a quote or a bracket.
    all_goals
      rename_i heq
      obtain ⟨rfl, -⟩ := List.cons.inj heq
      rcases hc with hdigit | hminus
      · cases hdigit
      · cases hminus

theorem Grammar.Container.value?_eq (H : Recognizes (value? skip depth) (Value skip depth))
    (hgap : Gap cs cs') (hcontainer : Container skip (Value skip depth) cs' j rest) :
    value? skip (depth + 1) cs = some (j, rest) := by
  cases hcontainer with
  | array hitems =>
    rw [value?, hgap.skipBlank_cons (c := '[') rfl]
    simp [(items?_eq_some_iff H (by decide)).mpr hitems]
  | object hitems =>
    have hentry := recognizes_entry skip (recognizes_keyed H)
    rw [value?, hgap.skipBlank_cons (c := '\x7b') rfl]
    simp [(items?_eq_some_iff hentry (by decide)).mpr hitems]

theorem Grammar.Container.opens {V : Grammar Json} (H : Container skip V cs j rest) :
    Opens cs := by
  cases H <;> exact ⟨_, _, rfl, rfl, by decide⟩

theorem Grammar.Container.length_le (H : Recognizes (value? skip depth) (Value skip depth))
    (hcontainer : Container skip (Value skip depth) cs j rest) : rest.length ≤ cs.length := by
  cases hcontainer with
  | array hitems =>
    have hle := hitems.length_le H
    simp only [List.length_cons]
    omega
  | object hitems =>
    have hle := hitems.length_le (recognizes_entry skip (recognizes_keyed H))
    simp only [List.length_cons]
    omega

theorem value_iff : Value skip depth cs j rest ↔
    Leaf skip cs j rest ∨ ∃ d, depth = d + 1 ∧ Container skip (Value skip d) cs j rest := by
  cases depth <;> simp [Value]

/-- One level of values. -/
theorem recognizes_value_of (ih : ∀ d, depth = d + 1 → Recognizes (value? skip d) (Value skip d)) :
    Recognizes (value? skip depth) (Value skip depth) where
  opens H := by
    rcases value_iff.mp H with H | ⟨d, -, H⟩
    · exact H.opens
    · exact H.opens
  length_le H := by
    rcases value_iff.mp H with H | ⟨d, hd, H⟩
    · exact H.length_le
    · exact H.length_le (ih d hd)
  sound h := by
    unfold value? at h
    split at h
    case h_1 r hskip =>
      cases h
      exact ⟨_, gap_of_skipBlank hskip, Leaf.null.value⟩
    case h_2 r hskip =>
      cases h
      exact ⟨_, gap_of_skipBlank hskip, Leaf.true.value⟩
    case h_3 r hskip =>
      cases h
      exact ⟨_, gap_of_skipBlank hskip, Leaf.false.value⟩
    case h_4 r hskip =>
      obtain ⟨⟨s, r⟩, hs, heq⟩ := Option.map_eq_some_iff.mp h
      cases heq
      exact ⟨_, gap_of_skipBlank hskip, (Leaf.text (stringBody?_eq_some_iff.mp hs)).value⟩
    case h_5 r hskip =>
      split at h
      case h_1 => cases h
      case h_2 d =>
        obtain ⟨⟨xs, r⟩, hxs, heq⟩ := Option.map_eq_some_iff.mp h
        cases heq
        have hitems := (items?_eq_some_iff (ih d rfl) (by decide)).mp hxs
        exact ⟨_, gap_of_skipBlank hskip, .inr (.array hitems)⟩
    case h_6 r hskip =>
      split at h
      case h_1 => cases h
      case h_2 d =>
        obtain ⟨⟨es, r⟩, hes, heq⟩ := Option.map_eq_some_iff.mp h
        cases heq
        have hentry := recognizes_entry skip (recognizes_keyed (ih d rfl))
        have hitems := (items?_eq_some_iff hentry (by decide)).mp hes
        exact ⟨_, gap_of_skipBlank hskip, .inr (.object hitems)⟩
    case h_7 =>
      obtain ⟨⟨n, r⟩, hn, heq⟩ := Option.map_eq_some_iff.mp h
      cases heq
      exact ⟨_, gap_skipBlank _, (Leaf.number (numeral_of_eq hn)).value⟩
  complete hgap H hclosed := by
    rcases value_iff.mp H with hleaf | ⟨d, rfl, hcontainer⟩
    · exact hleaf.value?_eq hgap hclosed
    · exact hcontainer.value?_eq (ih d rfl) hgap

theorem recognizes_value (skip : Bool) (depth : Nat) :
    Recognizes (value? skip depth) (Value skip depth) := by
  induction depth with
  | zero => exact recognizes_value_of fun d hd => by cases hd
  | succ depth ih =>
    refine recognizes_value_of fun d hd => ?_
    cases hd
    exact ih

/-- The whole text is a value. -/
theorem parse?_eq_some_iff {s : String} : parse? s = some j ↔
    ∃ cs rest, Gap s.toList cs ∧ Value false maxDepth cs j rest ∧ Gap rest [] := by
  have hvalue := recognizes_value false maxDepth
  constructor
  · intro h
    unfold parse? at h
    split at h
    case h_2 => cases h
    case h_1 j' rest hread =>
      split at h
      case isFalse => cases h
      case isTrue hrest =>
        cases h
        obtain ⟨cs, hgap, hj⟩ := hvalue.sound hread
        exact ⟨cs, rest, hgap, hj, gap_of_skipBlank hrest⟩
  · rintro ⟨cs, rest, hgap, hj, hrest⟩
    have hclosed : Closed rest := by
      cases hrest with
      | none => simp [Closed]
      | some hblank _ => exact closed_cons (.inl hblank)
    have hnil : skipBlank rest = [] := hrest.skipBlank
    rw [parse?, hvalue.complete hgap hj hclosed]
    simp only [hnil, if_pos]

/-! ### Records of one field -/

/-- No value is nested deeper than its text is long. -/
theorem Grammar.Value.of_length_le (H : Value skip depth cs j rest) (hn : cs.length ≤ n) :
    Value skip n cs j rest := by
  induction depth generalizing cs j rest n with
  | zero => exact Leaf.value H
  | succ depth ih =>
    rcases H with H | H
    · exact H.value
    refine value_iff.mpr (.inr ?_)
    cases H with
    | array hitems =>
      obtain ⟨n, rfl⟩ := Nat.exists_eq_add_one_of_ne_zero (Nat.ne_zero_of_lt hn)
      refine ⟨n, rfl, .array (hitems.imp (recognizes_value skip depth) fun hle hx => ?_)⟩
      exact ih hx (Nat.le_trans hle (Nat.le_of_succ_le_succ hn))
    | object hitems =>
      obtain ⟨n, rfl⟩ := Nat.exists_eq_add_one_of_ne_zero (Nat.ne_zero_of_lt hn)
      have hvalue := recognizes_value skip depth
      have hentry := recognizes_entry skip (recognizes_keyed hvalue)
      refine ⟨n, rfl, .object (hitems.imp hentry fun hle he => ?_)⟩
      refine he.imp fun hle' ⟨hv⟩ => .mk (ih hv ?_)
      exact Nat.le_trans hle' (Nat.le_trans hle (Nat.le_of_succ_le_succ hn))

theorem recognizes_innerArray : Recognizes innerArray? InnerArray where
  opens H := by
    obtain ⟨H⟩ := H
    exact (recognizes_value _ _).opens H
  length_le H := by
    obtain ⟨H⟩ := H
    exact (recognizes_value _ _).length_le H
  sound h := by
    unfold innerArray? at h
    split at h
    case h_2 => cases h
    case h_1 xs r hvalue =>
      cases h
      obtain ⟨cs', hgap, hxs⟩ := (recognizes_value _ _).sound hvalue
      exact ⟨cs', hgap, .mk hxs⟩
  complete hgap H hclosed := by
    obtain ⟨H⟩ := H
    rw [innerArray?, (recognizes_value _ _).complete hgap H hclosed]

/-- The value of a member, as the reader of records takes it. -/
def member? (field key : String) (cs : List Char) : Reading (Option (List Json)) :=
  if key = field then (innerArray? cs).map fun (xs, r) => (some xs, r)
  else (skipValue? cs).map fun (_, r) => (none, r)

theorem recognizes_member (field key : String) :
    Recognizes (member? field key) (Member field key) where
  opens H := by
    cases H with
    | known _ H => exact recognizes_innerArray.opens H
    | unknown _ H => exact (recognizes_value _ _).opens H
  length_le H := by
    cases H with
    | known _ H => exact recognizes_innerArray.length_le H
    | unknown _ H => exact (recognizes_value _ _).length_le H
  sound {cs rest members} h := by
    unfold member? at h
    split at h
    case isTrue hkey =>
      obtain ⟨⟨xs, r⟩, hxs, heq⟩ := Option.map_eq_some_iff.mp h
      cases heq
      obtain ⟨cs', hgap, hxs⟩ := recognizes_innerArray.sound hxs
      exact ⟨cs', hgap, .known hkey hxs⟩
    case isFalse hkey =>
      simp only [skipValue?, Option.map_map] at h
      obtain ⟨⟨j, r⟩, hj, heq⟩ := Option.map_eq_some_iff.mp h
      cases heq
      obtain ⟨cs', hgap, hj⟩ := (recognizes_value _ _).sound hj
      exact ⟨cs', hgap, .unknown hkey hj⟩
  complete {cs cs' rest x} hgap H hclosed := by
    cases H with
    | known hkey H =>
      rw [member?, if_pos hkey, recognizes_innerArray.complete hgap H hclosed, Option.map_some]
    | unknown hkey H =>
      have hvalue := (recognizes_value true cs.length).complete hgap
        (H.of_length_le hgap.length_le) hclosed
      rw [member?, if_neg hkey, skipValue?, hvalue, Option.map_some, Option.map_some]

theorem onlyField?_of_absent {members : List (Option (List Json))}
    (H : ∀ m ∈ members, m = none) : onlyField? members = some [] := by
  induction members with
  | nil => rfl
  | cons m members ih =>
    obtain ⟨rfl, hrest⟩ := List.forall_mem_cons.mp H
    exact ih hrest

theorem onlyField?_eq_some_iff {members : List (Option (List Json))} {xs : List Json} :
    onlyField? members = some xs ↔ Sole members xs := by
  constructor
  · intro h
    induction members with
    | nil =>
      cases h
      exact .absent (by simp)
    | cons m members ih =>
      cases m with
      | none =>
        cases ih h with
        | absent H => exact .absent (List.forall_mem_cons.mpr ⟨rfl, H⟩)
        | @present before after _ hbefore hafter =>
          have hbefore' : ∀ m ∈ none :: before, m = none :=
            List.forall_mem_cons.mpr ⟨rfl, hbefore⟩
          exact @Sole.present (none :: before) after _ hbefore' hafter
      | some ys =>
        rw [onlyField?] at h
        split at h
        case isFalse => cases h
        case isTrue hrest =>
          cases h
          refine @Sole.present [] _ _ (by simp) fun m hm => ?_
          exact Option.isNone_iff_eq_none.mp (List.all_eq_true.mp hrest m hm)
  · intro H
    cases H with
    | absent H => exact onlyField?_of_absent H
    | @present before after xs hbefore hafter =>
      induction before with
      | nil =>
        have hrest : after.all Option.isNone = true :=
          List.all_eq_true.mpr fun m hm => Option.isNone_iff_eq_none.mpr (hafter m hm)
        rw [List.nil_append, onlyField?, if_pos hrest]
      | cons m before ih =>
        obtain ⟨rfl, hrest⟩ := List.forall_mem_cons.mp hbefore
        exact ih hrest

section ArrayField

variable {field s : String} {xs : List Json}

theorem arrayField?_of_brace (hs : skipBlank s.toList = '\x7b' :: cs) :
    arrayField? field s = some xs ↔ ∃ members rest,
      items? (pair? false (member? field)) '\x7d' cs = some (members, rest) ∧
        skipBlank rest = [] ∧ onlyField? members = some xs := by
  have hmember : member? field = fun key cs =>
      if key = field then (innerArray? cs).map fun (xs, r) => (some xs, r)
      else (skipValue? cs).map fun (_, r) => (none, r) := rfl
  simp only [arrayField?, hs, ← hmember]
  cases items? (pair? false (member? field)) '\x7d' cs with
  | none => simp
  | some read =>
    obtain ⟨members, rest⟩ := read
    by_cases hrest : skipBlank rest = [] <;> simp [hrest]

theorem arrayField?_of_bracket (hs : skipBlank s.toList = '[' :: cs) :
    arrayField? field s = some xs ↔ ∃ fields rest,
      items? innerArray? ']' cs = some (fields, rest) ∧
        skipBlank rest = [] ∧ fields.length ≤ 1 ∧ fields.flatten = xs := by
  simp only [arrayField?, hs]
  cases items? innerArray? ']' cs with
  | none => simp
  | some read =>
    obtain ⟨fields, rest⟩ := read
    by_cases hrest : skipBlank rest = []
    · rcases fields with - | ⟨ys, - | ⟨zs, fields⟩⟩ <;> simp [hrest]
    · simp [hrest]

/-- The reader of one field takes just the records of that field. -/
theorem arrayField?_eq_some_iff : arrayField? field s = some xs ↔ RecordOf field s.toList xs := by
  have hmembers {cs rest : List Char} {members : List (Option (List Json))} :
      items? (pair? false (member? field)) '\x7d' cs = some (members, rest) ↔
        Items (Entry false (Member field)) '\x7d' cs members rest :=
    items?_eq_some_iff (recognizes_entry false (recognizes_member field)) (by decide)
  have hfields {cs rest : List Char} {fields : List (List Json)} :
      items? innerArray? ']' cs = some (fields, rest) ↔ Items InnerArray ']' cs fields rest :=
    items?_eq_some_iff recognizes_innerArray (by decide)
  constructor
  · intro h
    have hother : (∃ cs, skipBlank s.toList = '\x7b' :: cs) ∨
        ∃ cs, skipBlank s.toList = '[' :: cs := by
      unfold arrayField? at h
      dsimp only at h
      split at h
      case h_1 cs hs => exact .inl ⟨cs, hs⟩
      case h_2 cs hs => exact .inr ⟨cs, hs⟩
      case h_3 => cases h
    rcases hother with ⟨cs, hs⟩ | ⟨cs, hs⟩
    · obtain ⟨members, rest, hitems, hrest, honly⟩ := (arrayField?_of_brace hs).mp h
      exact .object (gap_of_skipBlank hs) (hmembers.mp hitems) (gap_of_skipBlank hrest)
        (onlyField?_eq_some_iff.mp honly)
    · obtain ⟨fields, rest, hitems, hrest, hlength, rfl⟩ := (arrayField?_of_bracket hs).mp h
      exact .array (gap_of_skipBlank hs) (hfields.mp hitems) (gap_of_skipBlank hrest) hlength
  · intro H
    cases H with
    | object hgap hitems hrest hsole =>
      exact (arrayField?_of_brace (hgap.skipBlank_cons rfl)).mpr
        ⟨_, _, hmembers.mpr hitems, hrest.skipBlank, onlyField?_eq_some_iff.mpr hsole⟩
    | array hgap hitems hrest hlength =>
      exact (arrayField?_of_bracket (hgap.skipBlank_cons rfl)).mpr
        ⟨_, _, hfields.mpr hitems, hrest.skipBlank, hlength, rfl⟩

end ArrayField

end NodeDisks.Json
