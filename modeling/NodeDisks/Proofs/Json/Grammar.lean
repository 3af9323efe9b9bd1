import Mathlib.Data.List.TakeWhile
import NodeDisks.Proofs.Json.Text

/-!
The grammar of JSON text. A grammar relates a text to what its front spells and to the rest behind it,
so that a production is written by the texts between its parts: `Value` for a value, `RecordOf` for a
record of one field. Strings and numbers are treated here: the reader takes from the front of a text
just what they allow (`stringBody?_eq_some_iff`), a number up to a text that is `Closed`
(`numeral_of_eq`, `Numeral.number?_eq`).
-/

namespace NodeDisks.Json

/-- What the front of a text spells, and what is left of the text behind it. -/
abbrev Grammar (α : Type) := List Char → α → List Char → Prop

namespace Grammar

variable {α : Type}

/-- White space. -/
inductive Gap : List Char → List Char → Prop where
  | none {cs : List Char} : Gap cs cs
  | some {c : Char} {cs rest : List Char} : isBlank c → Gap cs rest → Gap (c :: cs) rest

/-! ### Strings -/

/-- The code units of a string, behind its opening quote. -/
inductive Units : Grammar (List Nat) where
  | close {rest : List Char} : Units ('"' :: rest) [] rest
  | hex {a b c d : Char} {n : Nat} {cs rest : List Char} {us : List Nat} :
    fourHex? a b c d = some n → Units cs us rest →
    Units ('\\' :: 'u' :: a :: b :: c :: d :: cs) (n :: us) rest
  | escape {c e : Char} {cs rest : List Char} {us : List Nat} : simpleEscape? c = some e →
    Units cs us rest → Units ('\\' :: c :: cs) (e.toNat :: us) rest
  | plain {c : Char} {cs rest : List Char} {us : List Nat} : 0x20 ≤ c.toNat → c ≠ '"' → c ≠ '\\' →
    Units cs us rest → Units (c :: cs) (c.toNat :: us) rest

/-- A string behind its opening quote. Only of one that is kept do the surrogates have to match. -/
inductive Quoted : (skip : Bool) → Grammar String where
  | kept {cs rest s : List Char} {us : List Nat} : Units cs us rest → joinSurrogates us = some s →
    Quoted false cs (String.ofList s) rest
  | skipped {cs rest : List Char} {us : List Nat} : Units cs us rest → Quoted true cs "" rest

/-! ### Numbers -/

/-- Digits, at least one. -/
structure Digits (cs ds rest : List Char) : Prop where
  text : cs = ds ++ rest
  ne_nil : ds ≠ []
  isDigit : ∀ c ∈ ds, c.isDigit

/-- The digits before the point, which start with a zero only when that is all. -/
structure Whole (cs ds rest : List Char) : Prop where
  digits : Digits cs ds rest
  zero_alone : ∀ d ds', ds ≠ '0' :: d :: ds'

inductive Fraction : Grammar (Option (List Char)) where
  | absent {rest : List Char} : Fraction rest none rest
  | present {cs ds rest : List Char} : Digits cs ds rest → Fraction ('.' :: cs) (some ds) rest

/-- The sign of an exponent, as a factor. -/
inductive Sign : Grammar Int where
  | none {rest : List Char} : Sign rest 1 rest
  | plus {rest : List Char} : Sign ('+' :: rest) 1 rest
  | minus {rest : List Char} : Sign ('-' :: rest) (-1) rest

inductive Exponent : Grammar (Option Int) where
  | absent {rest : List Char} : Exponent rest none rest
  | present {e : Char} {cs cs' ds rest : List Char} {sign : Int} : e = 'e' ∨ e = 'E' →
    Sign cs sign cs' → Digits cs' ds rest →
    Exponent (e :: cs) (some (sign * Nat.ofDigitChars 10 ds 0)) rest

/-- A number without its sign. -/
inductive Parts : Grammar NumberParts where
  | mk {cs₀ cs₁ cs₂ cs₃ whole : List Char} {fraction : Option (List Char)} {exponent : Option Int} :
    Whole cs₀ whole cs₁ → Fraction cs₁ fraction cs₂ → Exponent cs₂ exponent cs₃ →
    Parts cs₀ ⟨whole, fraction, exponent⟩ cs₃

/-- Whether a number is negative. -/
inductive Minus : Grammar Bool where
  | absent {rest : List Char} : Minus rest false rest
  | present {rest : List Char} : Minus ('-' :: rest) true rest

/-- A number. Only one that is kept has to be in range. -/
inductive Numeral : (skip : Bool) → Grammar Number where
  | kept {cs cs' rest : List Char} {negative : Bool} {p : NumberParts} {n : Number} :
    Minus cs negative cs' → Parts cs' p rest → p.value? negative = some n →
    Numeral false cs n rest
  | skipped {cs cs' rest : List Char} {negative : Bool} {p : NumberParts} :
    Minus cs negative cs' → Parts cs' p rest → Numeral true cs (.natural 0) rest

/-! ### Values -/

/-- Items with commas between them and white space around them, and the closing bracket. -/
inductive Items (item : Grammar α) (close : Char) : Grammar (List α) where
  | none {cs rest : List Char} : Gap cs (close :: rest) → Items item close cs [] rest
  | last {cs₀ cs₁ cs₂ rest : List Char} {x : α} : Gap cs₀ cs₁ → item cs₁ x cs₂ →
    Gap cs₂ (close :: rest) → Items item close cs₀ [x] rest
  | more {cs₀ cs₁ cs₂ cs₃ rest : List Char} {x : α} {xs : List α} : Gap cs₀ cs₁ → item cs₁ x cs₂ →
    Gap cs₂ (',' :: cs₃) → Items item close cs₃ xs rest → xs ≠ [] →
    Items item close cs₀ (x :: xs) rest

/-- A key, a colon, and what may stand under that key. -/
inductive Entry (skip : Bool) (value : String → Grammar α) : Grammar α where
  | mk {cs₀ cs₁ cs₂ cs₃ cs₄ : List Char} {key : String} {x : α} : Quoted skip cs₀ key cs₁ →
    Gap cs₁ (':' :: cs₂) → Gap cs₂ cs₃ → value key cs₃ x cs₄ →
    Entry skip value ('"' :: cs₀) x cs₄

/-- A value without others in it. -/
inductive Leaf (skip : Bool) : Grammar Json where
  | null {rest : List Char} : Leaf skip ('n' :: 'u' :: 'l' :: 'l' :: rest) .null rest
  | true {rest : List Char} : Leaf skip ('t' :: 'r' :: 'u' :: 'e' :: rest) (.bool true) rest
  | false {rest : List Char} :
    Leaf skip ('f' :: 'a' :: 'l' :: 's' :: 'e' :: rest) (.bool false) rest
  | text {cs rest : List Char} {s : String} : Quoted skip cs s rest →
    Leaf skip ('"' :: cs) (.text s) rest
  | number {cs rest : List Char} {n : Number} : Numeral skip cs n rest →
    Leaf skip cs (.number n) rest

/-- A value under a key. -/
inductive Keyed (value : Grammar Json) (key : String) : Grammar (String × Json) where
  | mk {cs rest : List Char} {j : Json} : value cs j rest → Keyed value key cs (key, j) rest

/-- An array or an object of such values. -/
inductive Container (skip : Bool) (value : Grammar Json) : Grammar Json where
  | array {cs rest : List Char} {xs : List Json} : Items value ']' cs xs rest →
    Container skip value ('[' :: cs) (.array xs) rest
  | object {cs rest : List Char} {es : List (String × Json)} :
    Items (Entry skip (Keyed value)) '\x7d' cs es rest →
    Container skip value ('\x7b' :: cs) (ofEntries es) rest

/-- A value with containers at most `depth` deep. -/
def Value (skip : Bool) : (depth : Nat) → Grammar Json
  | 0 => Leaf skip
  | depth + 1 => fun cs j rest => Leaf skip cs j rest ∨ Container skip (Value skip depth) cs j rest

/-! ### Records of one field -/

/-- An array in a record, two levels below the top. -/
inductive InnerArray : Grammar (List Json) where
  | mk {cs rest : List Char} {xs : List Json} : Value false (maxDepth - 1) cs (.array xs) rest →
    InnerArray cs xs rest

/-- The value of a member of a record: an array under the key of its field, and anything under other
keys. -/
inductive Member (field key : String) : Grammar (Option (List Json)) where
  | known {cs rest : List Char} {xs : List Json} : key = field → InnerArray cs xs rest →
    Member field key cs (some xs) rest
  | unknown {cs rest : List Char} {depth : Nat} {j : Json} : key ≠ field →
    Value true depth cs j rest → Member field key cs none rest

/-- The field comes once, or not at all and then it is empty. -/
inductive Sole : List (Option (List Json)) → List Json → Prop where
  | absent {members : List (Option (List Json))} : (∀ m ∈ members, m = none) → Sole members []
  | present {before after : List (Option (List Json))} {xs : List Json} :
    (∀ m ∈ before, m = none) → (∀ m ∈ after, m = none) → Sole (before ++ some xs :: after) xs

/-- The text is a record whose only field is this one, an array of these elements. It is written as an
object or as the array of its fields. -/
inductive RecordOf (field : String) (text : List Char) : List Json → Prop where
  | object {cs rest : List Char} {members : List (Option (List Json))} {xs : List Json} :
    Gap text ('\x7b' :: cs) → Items (Entry false (Member field)) '\x7d' cs members rest →
    Gap rest [] → Sole members xs → RecordOf field text xs
  | array {cs rest : List Char} {fields : List (List Json)} :
    Gap text ('[' :: cs) → Items InnerArray ']' cs fields rest → Gap rest [] →
    fields.length ≤ 1 → RecordOf field text fields.flatten

variable {cs cs' rest : List Char} {c : Char}

/-! ### White space -/

theorem Gap.skipBlank (H : Gap cs cs') : skipBlank cs = skipBlank cs' := by
  induction H with
  | none => rfl
  | some hc _ ih => rw [← ih, Json.skipBlank, List.dropWhile_cons_of_pos hc, Json.skipBlank]

theorem Gap.skipBlank_cons (H : Gap cs (c :: rest)) (hc : isBlank c = false) :
    Json.skipBlank cs = c :: rest := by
  rw [H.skipBlank, Json.skipBlank_cons hc]

theorem Gap.skipBlank_of_opens (H : Gap cs cs') (hopens : Opens cs') : Json.skipBlank cs = cs' := by
  obtain ⟨c, rest, rfl, hc, -⟩ := hopens
  exact H.skipBlank_cons hc

theorem gap_skipBlank (cs : List Char) : Gap cs (Json.skipBlank cs) := by
  induction cs with
  | nil => exact .none
  | cons c cs ih =>
    cases hc : isBlank c with
    | true =>
      rw [Json.skipBlank, List.dropWhile_cons_of_pos hc]
      exact .some hc ih
    | false =>
      rw [Json.skipBlank_cons hc]
      exact .none

theorem gap_of_skipBlank (H : Json.skipBlank cs = cs') : Gap cs cs' := by
  rw [← H]
  exact gap_skipBlank cs

theorem Gap.length_le (H : Gap cs cs') : cs'.length ≤ cs.length := by
  induction H with
  | none => exact Nat.le_refl _
  | some _ _ ih => exact Nat.le_succ_of_le ih

/-! ### Strings -/

theorem stringUnits?_eq_some_iff {us : List Nat} :
    stringUnits? cs = some (us, rest) ↔ Units cs us rest := by
  constructor
  · intro H
    fun_induction stringUnits? cs generalizing us with
    | case1 => cases H
    | case2 =>
      cases H
      exact .close
    | case3 => cases H
    | case4 a b c d cs n hn ih =>
      obtain ⟨⟨us', r⟩, hus, heq⟩ := Option.map_eq_some_iff.mp H
      cases heq
      exact .hex hn (ih hus)
    | case5 => cases H
    | case6 c cs hne e he ih =>
      obtain ⟨⟨us', r⟩, hus, heq⟩ := Option.map_eq_some_iff.mp H
      cases heq
      exact .escape he (ih hus)
    | case7 => cases H
    | case8 c cs hquote hu hback hc ih =>
      obtain ⟨⟨us', r⟩, hus, heq⟩ := Option.map_eq_some_iff.mp H
      cases heq
      have hplain : c ≠ '\\' := by
        rintro rfl
        cases cs with
        | nil => cases hus
        | cons c' cs => exact hback c' cs rfl rfl
      exact .plain (Nat.not_lt.mp hc) hquote hplain (ih hus)
  · intro H
    induction H with
    | close => rw [stringUnits?]
    | hex hn _ ih => simp [stringUnits?, hn, ih]
    | @escape c e cs rest us he _ ih =>
      have hc : c ≠ 'u' := by
        rintro rfl
        cases he
      simp [stringUnits?, hc, he, ih]
    | plain hc hquote hback _ ih =>
      simp [stringUnits?, hback, Nat.not_lt.mpr hc, ih]

theorem stringBody?_eq_some_iff {skip : Bool} {s : String} :
    stringBody? skip cs = some (s, rest) ↔ Quoted skip cs s rest := by
  constructor
  · intro H
    unfold stringBody? at H
    split at H
    case h_1 => cases H
    case h_2 us r hus =>
      have hunits : Units cs us r := stringUnits?_eq_some_iff.mp hus
      cases skip with
      | true =>
        cases H
        exact .skipped hunits
      | false =>
        obtain ⟨chars, hchars, heq⟩ := Option.map_eq_some_iff.mp H
        cases heq
        exact .kept hunits hchars
  · intro H
    cases H with
    | kept hunits hchars => simp [stringBody?, stringUnits?_eq_some_iff.mpr hunits, hchars]
    | skipped hunits => simp [stringBody?, stringUnits?_eq_some_iff.mpr hunits]

/-! ### Numbers -/

/-- A number does not go on with this text. -/
def Ends (cs : List Char) : Prop := ∀ c ∈ cs.head?, c.isDigit = false

theorem Digits.digits_eq {ds : List Char} (H : Digits cs ds rest) (hrest : Ends rest) :
    digits cs = (ds, rest) := by
  rw [digits, H.text, List.takeWhile_append_of_pos H.isDigit,
    List.dropWhile_append_of_pos H.isDigit]
  cases rest with
  | nil => simp
  | cons c rest => simp [hrest c rfl]

theorem digits_of_eq {ds : List Char} (H : digits cs = (ds, rest)) (hne : ds ≠ []) :
    Digits cs ds rest := by
  obtain ⟨rfl, rfl⟩ := Prod.mk.inj H
  exact ⟨List.takeWhile_append_dropWhile.symm, hne, fun c hc => List.mem_takeWhile_imp hc⟩

theorem Digits.exists_cons {ds : List Char} (H : Digits cs ds rest) :
    ∃ c cs', cs = c :: cs' ∧ c.isDigit := by
  obtain ⟨c, ds, rfl⟩ := List.exists_cons_of_ne_nil H.ne_nil
  exact ⟨c, ds ++ rest, H.text, H.isDigit c (.head _)⟩

theorem ends_of_closed (H : Closed rest) : Ends rest := not_isDigit_of_closed H

theorem Exponent.ends {x : Option Int} (H : Exponent cs x rest) (hrest : Ends rest) : Ends cs := by
  cases H with
  | absent => exact hrest
  | present he _ _ =>
    rintro c ⟨⟩
    rcases he with rfl | rfl <;> rfl

theorem Exponent.ne_point {x : Option Int} (H : Exponent cs x rest) (hclosed : Closed rest)
    (cs' : List Char) : cs ≠ '.' :: cs' := by
  rintro rfl
  cases H with
  | absent => simpa [isBlank] using hclosed '.' rfl
  | present he _ _ => simp at he

theorem Fraction.ends {x : Option (List Char)} (H : Fraction cs x rest) (hrest : Ends rest) :
    Ends cs := by
  cases H with
  | absent => exact hrest
  | present _ =>
    rintro c ⟨⟩
    rfl

theorem whole_of_eq {ds : List Char} (H : wholePart? cs = some (ds, rest)) : Whole cs ds rest := by
  fun_cases wholePart? cs with
  | case1 r hdigits => simp [wholePart?, hdigits] at H
  | case2 c ds' r hdigits => simp [wholePart?, hdigits] at H
  | case3 ds' r hne hzero hdigits =>
    simp only [wholePart?, hdigits] at H
    cases H
    exact ⟨digits_of_eq hdigits hne, hzero⟩

theorem Whole.wholePart?_eq {ds : List Char} (H : Whole cs ds rest) (hrest : Ends rest) :
    wholePart? cs = some (ds, rest) := by
  simp [wholePart?, H.digits.digits_eq hrest, H.digits.ne_nil, H.zero_alone]

theorem fraction_of_eq {x : Option (List Char)} (H : fractionPart? cs = some (x, rest)) :
    Fraction cs x rest := by
  fun_cases fractionPart? cs with
  | case1 cs' r hdigits => simp [fractionPart?, hdigits] at H
  | case2 cs' ds r hne hdigits =>
    simp only [fractionPart?, hdigits] at H
    cases H
    exact .present (digits_of_eq hdigits hne)
  | case3 =>
    simp only [fractionPart?] at H
    cases H
    exact .absent

theorem Fraction.fractionPart?_eq {x : Option (List Char)} (H : Fraction cs x rest)
    (hends : Ends rest) (hpoint : ∀ cs', rest ≠ '.' :: cs') :
    fractionPart? cs = some (x, rest) := by
  cases H with
  | absent => simp [fractionPart?]
  | present hds => simp [fractionPart?, hds.digits_eq hends, hds.ne_nil]

theorem exponentValue?_of_eq {x : Int} (H : exponentValue? cs = some (x, rest)) :
    ∃ sign cs' ds, Sign cs sign cs' ∧ Digits cs' ds rest ∧ x = sign * Nat.ofDigitChars 10 ds 0 := by
  fun_cases exponentValue? cs with
  | case1 sign cs' hsign r hdigits => simp [exponentValue?, hsign, hdigits] at H
  | case2 sign cs' hsign ds r hne hdigits =>
    simp only [exponentValue?, hsign, hdigits] at H
    cases H
    have hds : Digits cs' ds rest := digits_of_eq hdigits hne
    split at hsign <;> cases hsign
    · exact ⟨1, _, ds, .plus, hds, rfl⟩
    · exact ⟨-1, _, ds, .minus, hds, rfl⟩
    · exact ⟨1, _, ds, .none, hds, rfl⟩

theorem Sign.exponentValue?_eq {sign : Int} {ds : List Char} (H : Sign cs sign cs')
    (hds : Digits cs' ds rest) (hends : Ends rest) :
    exponentValue? cs = some (sign * Nat.ofDigitChars 10 ds 0, rest) := by
  cases H with
  | plus => simp [exponentValue?, hds.digits_eq hends, hds.ne_nil]
  | minus => simp [exponentValue?, hds.digits_eq hends, hds.ne_nil]
  | none =>
    obtain ⟨c, cs', rfl, hc⟩ := hds.exists_cons
    have hplus : c ≠ '+' := by
      rintro rfl
      cases hc
    have hminus : c ≠ '-' := by
      rintro rfl
      cases hc
    simp [exponentValue?, hplus, hminus, hds.digits_eq hends, hds.ne_nil]

theorem exponent_of_eq {x : Option Int} (H : exponentPart? cs = some (x, rest)) :
    Exponent cs x rest := by
  fun_cases exponentPart? cs with
  | case1 c cs' he =>
    simp only [exponentPart?, he, if_true] at H
    obtain ⟨⟨e, r⟩, hvalue, heq⟩ := Option.map_eq_some_iff.mp H
    cases heq
    obtain ⟨sign, cs'', ds, hsign, hds, rfl⟩ := exponentValue?_of_eq hvalue
    exact .present (by simpa using he) hsign hds
  | case2 c cs' he =>
    simp only [exponentPart?, he] at H
    cases H
    exact .absent
  | case3 =>
    cases H
    exact .absent

theorem Exponent.exponentPart?_eq {x : Option Int} (H : Exponent cs x rest)
    (hclosed : Closed rest) :
    exponentPart? cs = some (x, rest) := by
  cases H with
  | absent => exact exponentPart?_of_closed hclosed
  | present he hsign hds =>
    simp [exponentPart?, he, hsign.exponentValue?_eq hds (ends_of_closed hclosed)]

theorem parts_of_eq {p : NumberParts} (H : numberParts? cs = some (p, rest)) : Parts cs p rest := by
  unfold numberParts? at H
  split at H
  case h_1 => cases H
  case h_2 whole cs₁ hwhole =>
    split at H
    case h_1 => cases H
    case h_2 fraction cs₂ hfraction =>
      obtain ⟨⟨exponent, r⟩, hexponent, heq⟩ := Option.map_eq_some_iff.mp H
      cases heq
      exact .mk (whole_of_eq hwhole) (fraction_of_eq hfraction) (exponent_of_eq hexponent)

theorem Parts.numberParts?_eq {p : NumberParts} (H : Parts cs p rest) (hclosed : Closed rest) :
    numberParts? cs = some (p, rest) := by
  obtain ⟨hwhole, hfraction, hexponent⟩ := H
  have hends := hexponent.ends (ends_of_closed hclosed)
  rw [numberParts?, hwhole.wholePart?_eq (hfraction.ends hends)]
  simp [hfraction.fractionPart?_eq hends (hexponent.ne_point hclosed),
    hexponent.exponentPart?_eq hclosed]

theorem Parts.exists_cons {p : NumberParts} (H : Parts cs p rest) :
    ∃ c cs', cs = c :: cs' ∧ c.isDigit := by
  obtain ⟨hwhole, -, -⟩ := H
  exact hwhole.digits.exists_cons

theorem numeral_of_eq {skip : Bool} {n : Number} (H : number? skip cs = some (n, rest)) :
    Numeral skip cs n rest := by
  fun_cases number? skip cs with
  | case1 negative cs' hminus hparts => simp [number?, hminus, hparts] at H
  | case2 negative cs' hminus p r hparts hskip =>
    simp only [number?, hminus, hparts, hskip, if_true] at H
    cases H
    have hnumeral := parts_of_eq hparts
    rw [hskip]
    split at hminus <;> cases hminus
    · exact .skipped .present hnumeral
    · exact .skipped .absent hnumeral
  | case3 negative cs' hminus p r hparts hskip =>
    simp only [number?, hminus, hparts, hskip] at H
    obtain ⟨n', hn, heq⟩ := Option.map_eq_some_iff.mp H
    cases heq
    have hnumeral := parts_of_eq hparts
    rw [Bool.not_eq_true] at hskip
    rw [hskip]
    split at hminus <;> cases hminus
    · exact .kept .present hnumeral hn
    · exact .kept .absent hnumeral hn

/-- The sign of a number is told by its first character. -/
theorem Minus.number?_eq {skip negative : Bool} {p : NumberParts} (H : Minus cs negative cs')
    (hparts : Parts cs' p rest) (hclosed : Closed rest) : number? skip cs =
      if skip then some (.natural 0, rest) else (p.value? negative).map fun n => (n, rest) := by
  cases H with
  | present => simp [number?, hparts.numberParts?_eq hclosed]
  | absent =>
    obtain ⟨c, cs, rfl, hc⟩ := hparts.exists_cons
    have hminus : c ≠ '-' := by
      rintro rfl
      cases hc
    simp [number?, hminus, hparts.numberParts?_eq hclosed]

theorem Numeral.number?_eq {skip : Bool} {n : Number} (H : Numeral skip cs n rest)
    (hclosed : Closed rest) : number? skip cs = some (n, rest) := by
  cases H with
  | kept hminus hparts hn => simp [hminus.number?_eq hparts hclosed, hn]
  | skipped hminus hparts => simp [hminus.number?_eq hparts hclosed]

theorem Numeral.exists_cons {skip : Bool} {n : Number} (H : Numeral skip cs n rest) :
    ∃ c cs', cs = c :: cs' ∧ (c.isDigit ∨ c = '-') := by
  have hcs {negative : Bool} {cs' : List Char} {p : NumberParts} (hminus : Minus cs negative cs')
      (hparts : Parts cs' p rest) : ∃ c cs', cs = c :: cs' ∧ (c.isDigit ∨ c = '-') := by
    cases hminus with
    | present => exact ⟨'-', cs', rfl, .inr rfl⟩
    | absent =>
      obtain ⟨c, cs', rfl, hc⟩ := hparts.exists_cons
      exact ⟨c, cs', rfl, .inl hc⟩
  cases H with
  | kept hminus hparts _ => exact hcs hminus hparts
  | skipped hminus hparts => exact hcs hminus hparts

end Grammar
end NodeDisks.Json
