import NodeDisks.Json.Basic
import NodeDisks.Text

/-!
Reading JSON text. `parse?` reads one value that fills the whole text; `arrayField?` reads the array
under one key of a record and passes over everything else in it.

Containers nest at most `maxDepth` deep. A value that is passed over has to be well formed only: its
numbers may be of any size, its strings may hold lone surrogates and its depth is not limited.
-/

namespace NodeDisks.Json

/-- What a reader that succeeds leaves of the text, beside what it read. -/
abbrev Reading (α : Type) := Option (α × List Char)

def maxDepth : Nat := 127

def isBlank (c : Char) : Bool := c = ' ' || c = '\t' || c = '\n' || c = '\r'

def skipBlank (cs : List Char) : List Char := cs.dropWhile isBlank

/-! ### Strings -/

/-- The number written by four hexadecimal digits. -/
def fourHex? (a b c d : Char) : Option Nat := do
  let a ← Text.hexDigit? a
  let b ← Text.hexDigit? b
  let c ← Text.hexDigit? c
  let d ← Text.hexDigit? d
  some (((a * 16 + b) * 16 + c) * 16 + d)

def isHighSurrogate (n : Nat) : Bool := 0xD800 ≤ n && n < 0xDC00
def isLowSurrogate (n : Nat) : Bool := 0xDC00 ≤ n && n < 0xE000

/-- The character that a high and a low surrogate stand for. -/
def surrogatePair (high low : Nat) : Char :=
  Char.ofNat (0x10000 + (high - 0xD800) * 0x400 + (low - 0xDC00))

/-- The character behind a backslash and one letter. -/
def simpleEscape? (c : Char) : Option Char :=
  if c = '"' || c = '\\' || c = '/' then some c
  else if c = 'b' then some '\x08'
  else if c = 't' then some '\x09'
  else if c = 'n' then some '\x0a'
  else if c = 'f' then some '\x0c'
  else if c = 'r' then some '\x0d'
  else none

/-- The code units up to the closing quote: code points, and surrogates where escapes write them. -/
def stringUnits? : List Char → Reading (List Nat)
  | [] => none
  | '"' :: rest => some ([], rest)
  | '\\' :: 'u' :: a :: b :: c :: d :: rest =>
    match fourHex? a b c d with
    | none => none
    | some n => (stringUnits? rest).map fun (us, r) => (n :: us, r)
  | '\\' :: c :: rest =>
    match simpleEscape? c with
    | none => none
    | some e => (stringUnits? rest).map fun (us, r) => (e.toNat :: us, r)
  | c :: rest =>
    if c.toNat < 0x20 then none
    else (stringUnits? rest).map fun (us, r) => (c.toNat :: us, r)

/-- Puts surrogate pairs together; `none` when a surrogate stands alone. -/
def joinSurrogates : List Nat → Option (List Char)
  | [] => some []
  | [n] => if isHighSurrogate n || isLowSurrogate n then none else some [Char.ofNat n]
  | n :: m :: rest =>
    if isHighSurrogate n && isLowSurrogate m then
      (joinSurrogates rest).map (surrogatePair n m :: ·)
    else if isHighSurrogate n || isLowSurrogate n then none
    else (joinSurrogates (m :: rest)).map (Char.ofNat n :: ·)

/-- A string after its opening quote. With `skip` its surrogates do not matter. -/
def stringBody? (skip : Bool) (cs : List Char) : Reading String :=
  match stringUnits? cs with
  | none => none
  | some (units, rest) =>
    if skip then some ("", rest)
    else (joinSurrogates units).map fun s => (String.ofList s, rest)

/-! ### Numbers -/

/-- The digits at the front, and what follows them. -/
def digits (cs : List Char) : List Char × List Char :=
  (cs.takeWhile Char.isDigit, cs.dropWhile Char.isDigit)

/-- Extends `significand` by the digits in turn, as long as it stays below `2 ^ 64`; with the number
of digits taken. -/
def absorb (significand : Nat) : List Char → Nat × Nat
  | [] => (significand, 0)
  | c :: cs =>
    let next := significand * 10 + (c.toNat - '0'.toNat)
    if next < UInt64.size then
      let (s, n) := absorb next cs
      (s, n + 1)
    else (significand, 0)

/-- The parts of a number: the digits before the point, those after it, and the exponent. -/
structure NumberParts where
  whole : List Char
  fraction : Option (List Char)
  exponent : Option Int

/-- The digits before the point; a zero stands alone. -/
def wholePart? (cs : List Char) : Reading (List Char) :=
  match digits cs with
  | ([], _) => none
  | ('0' :: _ :: _, _) => none
  | (ds, rest) => some (ds, rest)

def fractionPart? : List Char → Reading (Option (List Char))
  | '.' :: cs =>
    match digits cs with
    | ([], _) => none
    | (ds, rest) => some (some ds, rest)
  | cs => some (none, cs)

/-- An exponent without its letter. -/
def exponentValue? (cs : List Char) : Reading Int :=
  let (sign, cs) : Int × List Char := match cs with
    | '+' :: cs => (1, cs)
    | '-' :: cs => (-1, cs)
    | cs => (1, cs)
  match digits cs with
  | ([], _) => none
  | (ds, rest) => some (sign * Nat.ofDigitChars 10 ds 0, rest)

def exponentPart? : List Char → Reading (Option Int)
  | c :: cs =>
    if c = 'e' || c = 'E' then (exponentValue? cs).map fun (e, r) => (some e, r)
    else some (none, c :: cs)
  | [] => some (none, [])

def numberParts? (cs : List Char) : Reading NumberParts :=
  match wholePart? cs with
  | none => none
  | some (whole, cs) =>
    match fractionPart? cs with
    | none => none
    | some (fraction, cs) =>
      (exponentPart? cs).map fun (exponent, r) => (⟨whole, fraction, exponent⟩, r)

/-- The number that the parts stand for. Digits beyond 64 bits only count as places. -/
def NumberParts.value? (negative : Bool) (p : NumberParts) : Option Number := do
  let (s, taken) := absorb 0 p.whole
  let dropped := p.whole.length - taken
  if p.fraction.isNone && p.exponent.isNone && dropped == 0
      && (!negative || (0 < s && s ≤ Nat.pow 2 63)) then
    some (if negative then .negative s else .natural (UInt64.ofNat s))
  else
    let (s, places) := absorb s (p.fraction.getD [])
    let exponent : Int := p.exponent.getD 0 + dropped - places
    some (.real ⟨negative, ← Magnitude.ofDecimal? s exponent⟩)

def number? (skip : Bool) (cs : List Char) : Reading Number :=
  let (negative, cs) : Bool × List Char := match cs with
    | '-' :: cs => (true, cs)
    | cs => (false, cs)
  match numberParts? cs with
  | none => none
  | some (parts, cs) =>
    if skip then some (.natural 0, cs)
    else (parts.value? negative).map fun n => (n, cs)

/-! ### Values -/

/-- Items separated by commas, up to `close`. There are at least one, and at most `most`. -/
def someItems? {α : Type} (item : List Char → Reading α) (close : Char) :
    (most : Nat) → List Char → Reading (List α)
  | 0, _ => none
  | most + 1, cs =>
    match item cs with
    | none => none
    | some (x, cs) =>
      match skipBlank cs with
      | [] => none
      | c :: cs =>
        if c = ',' then (someItems? item close most cs).map fun (xs, r) => (x :: xs, r)
        else if c = close then some ([x], cs)
        else none

/-- Items separated by commas, up to `close`. -/
def items? {α : Type} (item : List Char → Reading α) (close : Char) (cs : List Char) :
    Reading (List α) :=
  match skipBlank cs with
  | [] => none
  | c :: rest => if c = close then some ([], rest) else someItems? item close cs.length cs

/-- A key, a colon, and what `value` reads for that key. -/
def pair? {α : Type} (skip : Bool) (value : String → List Char → Reading α) (cs : List Char) :
    Reading α :=
  match skipBlank cs with
  | '"' :: cs =>
    match stringBody? skip cs with
    | none => none
    | some (key, cs) =>
      match skipBlank cs with
      | ':' :: cs => value key cs
      | _ => none
  | _ => none

/-- A value at the front of the text, with containers at most `depth` deep in it. -/
def value? (skip : Bool) : (depth : Nat) → List Char → Reading Json
  | depth, cs =>
    match skipBlank cs with
    | 'n' :: 'u' :: 'l' :: 'l' :: cs => some (.null, cs)
    | 't' :: 'r' :: 'u' :: 'e' :: cs => some (.bool true, cs)
    | 'f' :: 'a' :: 'l' :: 's' :: 'e' :: cs => some (.bool false, cs)
    | '"' :: cs => (stringBody? skip cs).map fun (s, r) => (.text s, r)
    | '[' :: cs =>
      match depth with
      | 0 => none
      | depth + 1 => (items? (value? skip depth) ']' cs).map fun (xs, r) => (.array xs, r)
    | '\x7b' :: cs =>
      match depth with
      | 0 => none
      | depth + 1 =>
        let entry := pair? skip fun key cs => (value? skip depth cs).map fun (v, r) => ((key, v), r)
        (items? entry '\x7d' cs).map fun (es, r) => (ofEntries es, r)
    | cs => (number? skip cs).map fun (n, r) => (.number n, r)

/-- The whole text as one value. -/
def parse? (s : String) : Option Json :=
  match value? false maxDepth s.toList with
  | some (j, rest) => if skipBlank rest = [] then some j else none
  | none => none

/-! ### One field of a record -/

/-- The elements of an array two levels below the top. -/
def innerArray? (cs : List Char) : Reading (List Json) :=
  match value? false (maxDepth - 1) cs with
  | some (.array xs, rest) => some (xs, rest)
  | _ => none

/-- Passes over a value. -/
def skipValue? (cs : List Char) : Reading Unit :=
  (value? true cs.length cs).map fun (_, r) => ((), r)

/-- The one field among the entries of a record, if it is there, and nothing when it stands twice. -/
def onlyField? : List (Option (List Json)) → Option (List Json)
  | [] => some []
  | none :: rest => onlyField? rest
  | some xs :: rest => if rest.all Option.isNone then some xs else none

/-- The array under `field` of the record that the text holds; an absent one counts as empty. A record
may also be written as an array of its fields, of which this is the only one. -/
def arrayField? (field : String) (s : String) : Option (List Json) :=
  let atEnd {α : Type} (r : Reading α) : Option α :=
    match r with
    | some (x, rest) => if skipBlank rest = [] then some x else none
    | none => none
  match skipBlank s.toList with
  | '\x7b' :: cs =>
    let entry := pair? false fun key cs =>
      if key = field then (innerArray? cs).map fun (xs, r) => (some xs, r)
      else (skipValue? cs).map fun (_, r) => (none, r)
    (atEnd (items? entry '\x7d' cs)).bind onlyField?
  | '[' :: cs =>
    match atEnd (items? innerArray? ']' cs) with
    | some [] => some []
    | some [xs] => some xs
    | _ => none
  | _ => none

end NodeDisks.Json
