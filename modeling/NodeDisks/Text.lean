/-!
Text, as the tools of a node write it and messages quote it: white space, cutting, integers in
decimal, bytes that may not be UTF-8, and how much two texts are alike.
-/

/-!
## White space

White space in the sense of the Unicode property `White_Space`, and the readings of text that
depend on it: trimming, the blank test and the split into words.

The operations work on `List Char`; `trim` and `blank` are the same on `String`.
-/

namespace NodeDisks.Text

/-- The code points with the property `White_Space`. -/
def isBlank (c : Char) : Bool :=
  let n := c.toNat
  (9 ≤ n && n ≤ 13) || n == 0x20 || n == 0x85 || n == 0xA0 || n == 0x1680
    || (0x2000 ≤ n && n ≤ 0x200A) || n == 0x2028 || n == 0x2029 || n == 0x202F
    || n == 0x205F || n == 0x3000

/-- Drops blanks at the end. -/
def stripRight : List Char → List Char
  | [] => []
  | c :: cs =>
    match stripRight cs with
    | [] => if isBlank c then [] else [c]
    | d :: ds => c :: d :: ds

/-- Drops blanks at both ends. -/
def strip (cs : List Char) : List Char :=
  stripRight (cs.dropWhile isBlank)

/-- The text without the blanks at its two ends. -/
def trim (s : String) : String :=
  String.ofList (strip s.toList)

/-- Nothing but blanks. -/
def blank (s : String) : Bool :=
  s.toList.all isBlank

/-- The maximal runs of characters that are not blank. -/
def words (cs : List Char) : List (List Char) :=
  (cs.splitOnP isBlank).filter fun w => !w.isEmpty

/-!
## Cutting

Cutting text at given characters: lines, the first occurrence of a separator, and the test for an
occurrence of one text in another.
-/

/-- The text before and after the first `sep`, if there is one. -/
def splitOnce (sep : Char) : List Char → Option (List Char × List Char)
  | [] => none
  | c :: cs =>
    if c = sep then some ([], cs)
    else (splitOnce sep cs).map fun (l, r) => (c :: l, r)

/-- Drops one final carriage return. -/
def dropReturn : List Char → List Char
  | [] => []
  | [c] => if c = '\r' then [] else [c]
  | c :: d :: cs => c :: dropReturn (d :: cs)

/-- Turns the pieces between line feeds into lines: a piece that a line feed ended loses a final
carriage return, and the piece after the last line feed counts only when it holds something. -/
def endedLines : List (List Char) → List (List Char)
  | [] => []
  | [s] => if s.isEmpty then [] else [s]
  | s :: t :: ss => dropReturn s :: endedLines (t :: ss)

/-- The lines of a text, without their line ends (`\n` or `\r\n`). -/
def lines (cs : List Char) : List (List Char) :=
  endedLines (cs.splitOn '\n')

/-- Text `needle` occurs somewhere in the other one. -/
def occursIn (needle : List Char) : List Char → Bool
  | [] => needle.isEmpty
  | c :: cs => needle.isPrefixOf (c :: cs) || occursIn needle cs

/-- Text `needle` occurs somewhere in `s`. -/
def contains (s needle : String) : Bool :=
  occursIn needle.toList s.toList

/-- Text `s` starts with `start`. -/
def startsWith (s start : String) : Bool :=
  start.toList.isPrefixOf s.toList

/-- Drops `c` at both ends, as often as it stands there. -/
def stripChar (c : Char) (cs : List Char) : List Char :=
  ((cs.dropWhile (· == c)).reverse.dropWhile (· == c)).reverse

/-!
## Integers in decimal

Integers in decimal: writing a number, and reading one with a bound on its size.

A number is read from ASCII digits alone. A plus sign may stand in front of any number and a minus
sign in front of a signed one; there is no white space, no separator and at least one digit.
-/

/-- A non-empty sequence of digits. -/
def natural? (cs : List Char) : Option Nat :=
  if !cs.isEmpty && cs.all Char.isDigit then some (Nat.ofDigitChars 10 cs 0) else none

/-- An unsigned 64-bit number. -/
def word? (cs : List Char) : Option UInt64 :=
  let digits := match cs with
    | '+' :: ds => ds
    | ds => ds
  match natural? digits with
  | some n => if n < UInt64.size then some (UInt64.ofNat n) else none
  | none => none

/-- A signed 64-bit number. -/
def signedWord? : List Char → Option Int
  | '-' :: ds =>
    match natural? ds with
    | some n => if n ≤ Nat.pow 2 63 then some (-(n : Int)) else none
    | none => none
  | cs =>
    let digits := match cs with
      | '+' :: ds => ds
      | ds => ds
    match natural? digits with
    | some n => if n < Nat.pow 2 63 then some (n : Int) else none
    | none => none

/-- The decimal digits of a natural number. -/
def decimal (n : Nat) : String :=
  String.ofList (Nat.toDigits 10 n)

/-- The decimal text of an integer. -/
def integer (n : Int) : String :=
  if n < 0 then "-" ++ decimal n.natAbs else decimal n.natAbs

/-- The decimal digits of `n`, with zeros in front up to `width`. -/
def padded (width n : Nat) : String :=
  let digits := Nat.toDigits 10 n
  String.ofList (List.replicate (width - digits.length) '0' ++ digits)

/-- The value of a hexadecimal digit in either case. -/
def hexDigit? (c : Char) : Option Nat :=
  if c.isDigit then some (c.toNat - '0'.toNat)
  else if 'a' ≤ c && c ≤ 'f' then some (c.toNat - 'a'.toNat + 10)
  else if 'A' ≤ c && c ≤ 'F' then some (c.toNat - 'A'.toNat + 10)
  else none

/-!
## Bytes

Text from bytes that may not be UTF-8. Every longest beginning of a character that is not completed,
and every byte that begins none, becomes the replacement character.
-/

def replacement : Char := Char.ofNat 0xFFFD

def inRange (first last : UInt8) (b : UInt8) : Bool := first ≤ b && b ≤ last

/-- A byte that continues a character. -/
def continues : UInt8 → Bool := inRange 0x80 0xBF

/-- For the first byte of a character of several bytes: the bits it gives, and what each byte after it
has to be. Together they leave out longer spellings, surrogates and numbers that are too large. -/
def leadOf? (a : UInt8) : Option (Nat × List (UInt8 → Bool)) :=
  let n := a.toNat
  if inRange 0xC2 0xDF a then some (n - 0xC0, [continues])
  else if a = 0xE0 then some (0, [inRange 0xA0 0xBF, continues])
  else if a = 0xED then some (13, [inRange 0x80 0x9F, continues])
  else if inRange 0xE1 0xEF a then some (n - 0xE0, [continues, continues])
  else if a = 0xF0 then some (0, [inRange 0x90 0xBF, continues, continues])
  else if a = 0xF4 then some (4, [inRange 0x80 0x8F, continues, continues])
  else if inRange 0xF1 0xF3 a then some (n - 0xF0, [continues, continues, continues])
  else none

/-- The bytes at the start that pass the tests, one after the other. -/
def passing : List (UInt8 → Bool) → List UInt8 → List UInt8
  | test :: tests, b :: bs => if test b then b :: passing tests bs else []
  | _, _ => []

/-- The characters of a text. -/
def ofBytes (bytes : List UInt8) : List Char :=
  match bytes with
  | [] => []
  | a :: bs =>
    if a < 0x80 then Char.ofNat a.toNat :: ofBytes bs
    else
      match leadOf? a with
      | none => replacement :: ofBytes bs
      | some (bits, tests) =>
        let found := passing tests bs
        let c := if found.length = tests.length then
            Char.ofNat (found.foldl (fun n b => n * 64 + b.toNat % 64) bits)
          else replacement
        c :: ofBytes (bs.drop found.length)
termination_by bytes.length
decreasing_by
  all_goals
    simp only [List.length_drop, List.length_cons]
    omega

/-!
## Similarity

How much two texts are alike, by the characters they share in about the same places. Two equal
characters are partners when their places differ by less than half the length of the longer text; the
first free partner is taken. The similarity is the mean of three parts: of the first text the part that
has partners, of the second one the same, and of the pairs those that keep their order.
-/

/-- How far apart partners can be. -/
def partnerRange (a b : List Char) : Nat := max a.length b.length / 2 - 1

/-- The place in `b` of the partner for `c` at place `i`, one that is not taken. -/
def partner? (range : Nat) (b : List Char) (taken : List Nat) (i : Nat) (c : Char) : Option Nat :=
  (List.range b.length).find? fun j =>
    i - range ≤ j && j ≤ i + range && b[j]? == some c && !taken.contains j

/-- The places of the partners in `b`, for the characters from place `i` on that have one. -/
def partners (range : Nat) (b : List Char) : (taken : List Nat) → (i : Nat) → List Char →
    List (Char × Nat)
  | _, _, [] => []
  | taken, i, c :: cs =>
    match partner? range b taken i c with
    | some j => (c, j) :: partners range b (j :: taken) (i + 1) cs
    | none => partners range b taken (i + 1) cs

/-- The similarity as a numerator and a denominator. -/
def similarity (a b : List Char) : Nat × Nat :=
  let pairs := partners (partnerRange a b) b [] 0 a
  let found := pairs.length
  if found = 0 then (if a.isEmpty && b.isEmpty then 1 else 0, 1)
  else
    let inOrder := ((pairs.map (·.2)).mergeSort).filterMap (b[·]?)
    let moved := ((pairs.map (·.1)).zip inOrder).countP fun (c, d) => c != d
    let m := a.length
    let n := b.length
    (found * n * found + found * m * found + (found - moved / 2) * m * n, 3 * m * n * found)

/-- The text most similar to `s` among those whose similarity is above seven tenths. Of equals the last
one counts. -/
def mostSimilar? (s : String) (texts : List String) : Option String :=
  let rated := texts.map fun t => (t, similarity s.toList t.toList)
  let better (best : Option (String × Nat × Nat)) (r : String × Nat × Nat) :=
    let (_, n, d) := r
    if 10 * n ≤ 7 * d then best
    else
      match best with
      | none => some r
      | some (_, n', d') => if n * d' < n' * d then best else some r
  (rated.foldl better none).map (·.1)

end NodeDisks.Text
