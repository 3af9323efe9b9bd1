import NodeDisks.Proofs.Text
import NodeDisks.Text

/-!
Numbers read from text. What is read is what the digits spell, and nothing else is read: a natural
number from digits alone (`natural?_eq_some_iff`), an integer from digits with at most one sign in
front, if it fits into 64 bits (`signedWord?_eq_some_iff`).
-/

namespace NodeDisks.Text

/-- Decimal digits of the number, possibly with zeros in front. -/
structure Spells (digits : List Char) (n : Nat) : Prop where
  nonempty : digits ≠ []
  digit : ∀ c ∈ digits, c.isDigit
  value : Nat.ofDigitChars 10 digits 0 = n

/-- Decimal digits of the integer behind at most one sign. -/
inductive SpellsInteger : List Char → Int → Prop where
  | unsigned {digits : List Char} {n : Nat} : Spells digits n → SpellsInteger digits n
  | plus {digits : List Char} {n : Nat} : Spells digits n → SpellsInteger ('+' :: digits) n
  | minus {digits : List Char} {n : Nat} : Spells digits n → SpellsInteger ('-' :: digits) (-n)

/-- The integer is one of 64 bits. -/
def IsSignedWord (n : Int) : Prop := -(Nat.pow 2 63 : Int) ≤ n ∧ n < Nat.pow 2 63

theorem not_isBlank_of_isDigit {c : Char} (H : c.isDigit) : isBlank c = false := by
  simp only [Char.isDigit, Bool.and_eq_true, decide_eq_true_eq, UInt32.le_iff_toNat_le] at H
  obtain ⟨hlow, hhigh⟩ := H
  change 48 ≤ c.toNat at hlow
  change c.toNat ≤ 57 at hhigh
  simp [isBlank]
  omega

theorem natural?_eq_some_iff {cs : List Char} {n : Nat} : natural? cs = some n ↔ Spells cs n := by
  unfold natural?
  constructor
  · intro h
    split at h
    case isTrue hdigits =>
      simp only [Bool.and_eq_true, Bool.not_eq_true', List.isEmpty_eq_false_iff, List.all_eq_true]
        at hdigits
      exact ⟨hdigits.1, hdigits.2, Option.some.inj h⟩
    case isFalse => cases h
  · rintro ⟨hnonempty, hdigit, hvalue⟩
    simpa [hnonempty, hvalue] using hdigit

namespace Spells

variable {digits : List Char}

theorem trimmed {n : Nat} (H : Spells digits n) : Trimmed (String.ofList digits) :=
  trimmed_of_not_blank fun c hc => not_isBlank_of_isDigit (H.digit c hc)

/-- A sign is no digit. -/
theorem ne_sign {n : Nat} {c : Char} (H : Spells digits n) (hc : c.isDigit = false)
    (ds : List Char) : digits ≠ c :: ds := by
  rintro rfl
  rw [H.digit c (.head _)] at hc
  cases hc

theorem word?_eq {n : UInt64} (H : Spells digits n.toNat) : word? digits = some n := by
  rw [word?]
  · simp [natural?_eq_some_iff.mpr H, n.toNat_lt_size]
  · exact H.ne_sign rfl

end Spells

/-! ### Signed numbers -/

section Signed

variable {cs : List Char} {n : Int}

theorem bounded_eq_some_iff {p : Nat → Prop} [DecidablePred p] {f : Nat → Int} :
    (match natural? cs with
      | some m => if p m then some (f m) else none
      | none => none) = some n ↔ ∃ m, Spells cs m ∧ p m ∧ n = f m := by
  simp only [← natural?_eq_some_iff]
  cases natural? cs with
  | none => simp
  | some m => by_cases hm : p m <;> simp [hm, eq_comm]

theorem signedWord?_minus_iff {ds : List Char} :
    signedWord? ('-' :: ds) = some n ↔ ∃ m, Spells ds m ∧ m ≤ Nat.pow 2 63 ∧ n = -(m : Int) := by
  rw [signedWord?]
  exact bounded_eq_some_iff

theorem signedWord?_plus_iff {ds : List Char} :
    signedWord? ('+' :: ds) = some n ↔ ∃ m, Spells ds m ∧ m < Nat.pow 2 63 ∧ n = (m : Int) := by
  rw [signedWord?]
  exact bounded_eq_some_iff

theorem signedWord?_unsigned_iff (hminus : ∀ ds, cs ≠ '-' :: ds) (hplus : ∀ ds, cs ≠ '+' :: ds) :
    signedWord? cs = some n ↔ ∃ m, Spells cs m ∧ m < Nat.pow 2 63 ∧ n = (m : Int) := by
  rw [signedWord?]
  · exact bounded_eq_some_iff
  · exact hminus
  · exact hplus

/-- Signed numbers are read from the texts that spell them, and from no other. -/
theorem signedWord?_eq_some_iff :
    signedWord? cs = some n ↔ SpellsInteger cs n ∧ IsSignedWord n := by
  have hpos : 0 < Nat.pow 2 63 := by decide
  constructor
  · intro h
    by_cases hminus : ∃ ds, cs = '-' :: ds
    · obtain ⟨ds, rfl⟩ := hminus
      obtain ⟨m, hspells, hbound, rfl⟩ := signedWord?_minus_iff.mp h
      refine ⟨.minus hspells, ?_, ?_⟩ <;> omega
    by_cases hplus : ∃ ds, cs = '+' :: ds
    · obtain ⟨ds, rfl⟩ := hplus
      obtain ⟨m, hspells, hbound, rfl⟩ := signedWord?_plus_iff.mp h
      refine ⟨.plus hspells, ?_, ?_⟩ <;> omega
    · obtain ⟨m, hspells, hbound, rfl⟩ := (signedWord?_unsigned_iff (not_exists.mp hminus)
        (not_exists.mp hplus)).mp h
      refine ⟨.unsigned hspells, ?_, ?_⟩ <;> omega
  · rintro ⟨H, hlow, hhigh⟩
    cases H with
    | @unsigned _ m hspells =>
      refine (signedWord?_unsigned_iff (hspells.ne_sign rfl) (hspells.ne_sign rfl)).mpr ?_
      exact ⟨m, hspells, by omega, rfl⟩
    | @plus ds m hspells => exact signedWord?_plus_iff.mpr ⟨m, hspells, by omega, rfl⟩
    | @minus ds m hspells => exact signedWord?_minus_iff.mpr ⟨m, hspells, by omega, rfl⟩

end Signed

end NodeDisks.Text
