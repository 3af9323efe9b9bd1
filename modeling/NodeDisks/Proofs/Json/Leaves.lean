import NodeDisks.Json.Basic
import NodeDisks.Json.Reader

/-!
Reading back what is written of a string and of a natural number. A string ends by itself, because the
quotes in it are escaped (`stringBody?_stringText`); a number is read up to a text that is `Closed`,
which is all that may follow a value (`number?_toDigits`).
-/

namespace NodeDisks.Json

/-- What may follow a value: nothing, white space, or a comma or a bracket. -/
def Closed (rest : List Char) : Prop :=
  ∀ c ∈ rest.head?, isBlank c ∨ c = ',' ∨ c = ']' ∨ c = '\x7d'

variable {c : Char} {cs rest : List Char}

theorem isBlank_iff : isBlank c ↔ c = ' ' ∨ c = '\t' ∨ c = '\n' ∨ c = '\r' := by
  simp [isBlank, or_assoc]

/-! ### Strings -/

/-- The escape of a control character. -/
theorem fourHex_of_control : ∀ n < 0x20,
    fourHex n = ['0', '0', Nat.digitChar (n / 16), Nat.digitChar (n % 16)] := by decide +kernel

theorem fourHex?_of_control : ∀ n < 0x20,
    fourHex? '0' '0' (Nat.digitChar (n / 16)) (Nat.digitChar (n % 16)) = some n := by
  decide +kernel

theorem stringUnits?_escapedChar (c : Char) : stringUnits? (escapedChar c ++ cs) =
    (stringUnits? cs).map fun (us, r) => (c.toNat :: us, r) := by
  by_cases hletter : c ∈ ['"', '\\', '\x08', '\x09', '\x0a', '\x0c', '\x0d']
  · simp only [List.mem_cons, List.not_mem_nil, or_false] at hletter
    rcases hletter with rfl | rfl | rfl | rfl | rfl | rfl | rfl <;>
      simp [escapedChar, stringUnits?, simpleEscape?]
  · simp only [List.mem_cons, List.not_mem_nil, or_false, not_or] at hletter
    by_cases hcontrol : c.toNat < 0x20
    · simp [escapedChar, hletter, hcontrol, fourHex_of_control c.toNat hcontrol, stringUnits?,
        fourHex?_of_control c.toNat hcontrol]
    · simp [escapedChar, hletter, hcontrol, stringUnits?]

theorem stringUnits?_escaped (s : List Char) :
    stringUnits? (s.flatMap escapedChar ++ '"' :: rest) = some (s.map Char.toNat, rest) := by
  induction s with
  | nil => simp [stringUnits?]
  | cons c s ih => simp [List.append_assoc, stringUnits?_escapedChar, ih]

theorem not_surrogate (c : Char) :
    isHighSurrogate c.toNat = false ∧ isLowSurrogate c.toNat = false := by
  have hvalid : c.toNat < 0xD800 ∨ 0xDFFF < c.toNat ∧ c.toNat < 0x110000 := c.valid
  simp only [isHighSurrogate, isLowSurrogate, Bool.and_eq_false_iff, decide_eq_false_iff_not]
  omega

theorem joinSurrogates_map (s : List Char) : joinSurrogates (s.map Char.toNat) = some s := by
  induction s with
  | nil => rfl
  | cons c s ih =>
    obtain ⟨hhigh, hlow⟩ := not_surrogate c
    cases s with
    | nil => simp [joinSurrogates, hhigh, hlow]
    | cons d s => simp_all [joinSurrogates]

theorem stringBody?_stringText (s : String) : ∃ cs, stringText s ++ rest = '"' :: cs ∧
    stringBody? false cs = some (s, rest) := by
  refine ⟨s.toList.flatMap escapedChar ++ '"' :: rest, by simp [stringText], ?_⟩
  simp [stringBody?, stringUnits?_escaped, joinSurrogates_map]

/-! ### Numbers -/

theorem not_isDigit_of_closed (H : Closed rest) : ∀ c ∈ rest.head?, c.isDigit = false := by
  intro c hc
  rcases H c hc with hblank | rfl | rfl | rfl
  · rcases isBlank_iff.mp hblank with rfl | rfl | rfl | rfl <;> rfl
  all_goals rfl

theorem digits_append {ds : List Char} (hds : ∀ c ∈ ds, c.isDigit) (H : Closed rest) :
    digits (ds ++ rest) = (ds, rest) := by
  rw [digits, List.takeWhile_append_of_pos hds, List.dropWhile_append_of_pos hds]
  cases rest with
  | nil => simp
  | cons c rest => simp [not_isDigit_of_closed H c rfl]

theorem isDigit_of_mem_toDigits {n : Nat} (H : c ∈ Nat.toDigits 10 n) : c.isDigit :=
  Nat.isDigit_of_mem_toDigits (by decide) (by decide) H

theorem exists_toDigits_eq_cons (n : Nat) : ∃ d ds, Nat.toDigits 10 n = d :: ds ∧ d.isDigit := by
  obtain ⟨d, ds, hds⟩ := List.exists_cons_of_ne_nil (@Nat.toDigits_ne_nil n 10)
  exact ⟨d, ds, hds, isDigit_of_mem_toDigits (by rw [hds]; exact .head _)⟩

/-- A number that is not zero does not start with a zero. -/
theorem head?_toDigits {n : Nat} (hn : 0 < n) : (Nat.toDigits 10 n).head? ≠ some '0' := by
  induction n using Nat.strongRecOn with
  | ind n ih =>
    by_cases hsmall : n < 10
    · have H : ∀ m < 10, 0 < m → [Nat.digitChar m].head? ≠ some '0' := by decide
      rw [Nat.toDigits_of_lt_base hsmall]
      exact H n hsmall hn
    · obtain ⟨d, ds, hds, -⟩ := exists_toDigits_eq_cons (n / 10)
      have hrest := ih (n / 10) (by omega) (by omega)
      rw [Nat.toDigits_of_base_le (by omega) (by omega), hds]
      rwa [hds] at hrest

theorem wholePart?_toDigits (n : Nat) (H : Closed rest) :
    wholePart? (Nat.toDigits 10 n ++ rest) = some (Nat.toDigits 10 n, rest) := by
  have hzero : ∀ d ds, Nat.toDigits 10 n ≠ '0' :: d :: ds := by
    intro d ds hds
    rcases Nat.eq_zero_or_pos n with rfl | hn
    · cases hds
    · exact head?_toDigits hn (by rw [hds]; rfl)
  rw [wholePart?, digits_append (fun _ hc => isDigit_of_mem_toDigits hc) H]
  split
  case h_1 h => exact absurd (Prod.mk.inj h).1 Nat.toDigits_ne_nil
  case h_2 h => exact absurd (Prod.mk.inj h).1 (hzero _ _)
  case h_3 h =>
    cases h
    rfl

theorem fractionPart?_of_closed (H : Closed rest) : fractionPart? rest = some (none, rest) := by
  cases rest with
  | nil => rfl
  | cons c rest =>
    have hc : c ≠ '.' := by
      rintro rfl
      simpa [isBlank] using H _ rfl
    simp [fractionPart?, hc]

theorem exponentPart?_of_closed (H : Closed rest) : exponentPart? rest = some (none, rest) := by
  cases rest with
  | nil => rfl
  | cons c rest =>
    have hc : ¬(c = 'e' ∨ c = 'E') := by
      rintro (rfl | rfl) <;> simpa [isBlank] using H _ rfl
    simp [exponentPart?, hc]

theorem numberParts?_toDigits (n : Nat) (H : Closed rest) :
    numberParts? (Nat.toDigits 10 n ++ rest) = some (⟨Nat.toDigits 10 n, none, none⟩, rest) := by
  simp [numberParts?, wholePart?_toDigits n H, fractionPart?_of_closed H,
    exponentPart?_of_closed H]

theorem le_ofDigitChars (n : Nat) : n ≤ Nat.ofDigitChars 10 cs n := by
  induction cs generalizing n with
  | nil => exact Nat.le_refl n
  | cons c cs ih =>
    rw [Nat.ofDigitChars_cons]
    exact Nat.le_trans (by omega) (ih _)

/-- Digits are absorbed as long as the whole number fits. -/
theorem absorb_eq {n : Nat} (H : Nat.ofDigitChars 10 cs n < UInt64.size) :
    absorb n cs = (Nat.ofDigitChars 10 cs n, cs.length) := by
  induction cs generalizing n with
  | nil => rfl
  | cons c cs ih =>
    rw [Nat.ofDigitChars_cons, Nat.mul_comm] at H ⊢
    have hnext : n * 10 + (c.toNat - '0'.toNat) < UInt64.size :=
      Nat.lt_of_le_of_lt (le_ofDigitChars _) H
    simp only [absorb, if_pos hnext, ih H, List.length_cons]

theorem value?_toDigits (n : UInt64) :
    NumberParts.value? false ⟨Nat.toDigits 10 n.toNat, none, none⟩ = some (.natural n) := by
  have hn : Nat.ofDigitChars 10 (Nat.toDigits 10 n.toNat) 0 = n.toNat :=
    Nat.ofDigitChars_toDigits (by decide) (by decide)
  have habsorb : absorb 0 (Nat.toDigits 10 n.toNat) =
      (n.toNat, (Nat.toDigits 10 n.toNat).length) := by
    rw [absorb_eq (by rw [hn]; exact n.toNat_lt_size), hn]
  simp [NumberParts.value?, habsorb]

theorem number?_toDigits (n : UInt64) (H : Closed rest) :
    number? false (Nat.toDigits 10 n.toNat ++ rest) = some (.natural n, rest) := by
  obtain ⟨d, ds, hds, hd⟩ := exists_toDigits_eq_cons n.toNat
  have hminus : ∀ cs, Nat.toDigits 10 n.toNat ++ rest ≠ '-' :: cs := by
    intro cs h
    rw [hds, List.cons_append] at h
    obtain ⟨rfl, -⟩ := List.cons.inj h
    cases hd
  rw [number?]
  · simp [numberParts?_toDigits n.toNat H, value?_toDigits n]
  · exact hminus

end NodeDisks.Json
