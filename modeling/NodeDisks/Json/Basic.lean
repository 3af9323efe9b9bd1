import NodeDisks.Number

/-!
## Values

JSON values. A number is a 64-bit natural number, a negative integer down to `-2 ^ 63`, or a
binary64 number for anything else. An object is a list of entries: records are written in the order
of their fields, and an object read from text is sorted by key with the last of equal keys kept.
-/

namespace NodeDisks

inductive Json.Number where
  | natural (n : UInt64)
  /-- The number `-magnitude`, which is not zero. -/
  | negative (magnitude : Nat)
  | real (x : Binary64)
  deriving DecidableEq, Repr, Inhabited

inductive Json where
  | null
  | bool (b : Bool)
  | number (n : Json.Number)
  | text (s : String)
  | array (elements : List Json)
  | object (entries : List (String × Json))
  deriving Repr, Inhabited

namespace Json

/-- Puts an entry at its place among entries sorted by key, in place of one with the same key. -/
def insertEntry (key : String) (value : Json) : List (String × Json) → List (String × Json)
  | [] => [(key, value)]
  | (k, v) :: rest =>
    if key = k then (key, value) :: rest
    else if key < k then (key, value) :: (k, v) :: rest
    else (k, v) :: insertEntry key value rest

/-- The object with these entries, sorted by key; of equal keys the last counts. -/
def ofEntries (entries : List (String × Json)) : Json :=
  .object (entries.foldl (fun sorted (k, v) => insertEntry k v sorted) [])

def lookup (key : String) : List (String × Json) → Option Json
  | [] => none
  | (k, v) :: rest => if k = key then some v else lookup key rest

/-- The value under a key of an object. -/
def get? (key : String) : Json → Option Json
  | .object entries => lookup key entries
  | _ => none

def natural (n : UInt64) : Json := .number (.natural n)

/-- The natural number that a value holds. -/
def natural? : Json → Option UInt64
  | .number (.natural n) => some n
  | _ => none

/-- The binary64 number nearest to a number. -/
def Number.toBinary64? : Number → Option Binary64
  | .natural n => (Magnitude.ofRatio? n.toNat 1).map (⟨false, ·⟩)
  | .negative n => (Magnitude.ofRatio? n 1).map (⟨true, ·⟩)
  | .real x => some x

/-- Text or `null`. -/
def ofText? : Option String → Json
  | none => .null
  | some s => .text s

/-- A natural number or `null`. -/
def ofNatural? : Option UInt64 → Json
  | none => .null
  | some n => natural n

def texts (ss : List String) : Json := .array (ss.map .text)

end Json

end NodeDisks

/-!
## Text

JSON text. `compact` puts no white space anywhere; `pretty` puts every element and entry on a line
of its own, two spaces deeper than the line that opens it.

In a string a quote, a backslash and the control characters are escaped and all else stands for
itself.
-/

namespace NodeDisks.Json

/-- A four-digit hexadecimal number in lower case. -/
def fourHex (n : Nat) : List Char :=
  let digits := Nat.toDigits 16 n
  List.replicate (4 - digits.length) '0' ++ digits

/-- One character of a string. -/
def escapedChar (c : Char) : List Char :=
  if c = '"' || c = '\\' then ['\\', c]
  else if c = '\x08' then ['\\', 'b']
  else if c = '\x09' then ['\\', 't']
  else if c = '\x0a' then ['\\', 'n']
  else if c = '\x0c' then ['\\', 'f']
  else if c = '\x0d' then ['\\', 'r']
  else if c.toNat < 0x20 then ['\\', 'u'] ++ fourHex c.toNat
  else [c]

def stringText (s : String) : List Char :=
  ['"'] ++ s.toList.flatMap escapedChar ++ ['"']

def Number.render : Number → List Char
  | .natural n => Nat.toDigits 10 n.toNat
  | .negative m => '-' :: Nat.toDigits 10 m
  | .real x => x.compact

mutual

def compactChars : Json → List Char
  | .null => ['n', 'u', 'l', 'l']
  | .bool true => ['t', 'r', 'u', 'e']
  | .bool false => ['f', 'a', 'l', 's', 'e']
  | .number n => n.render
  | .text s => stringText s
  | .array [] => ['[', ']']
  | .array (x :: xs) => '[' :: compactChars x ++ compactElements xs
  | .object [] => ['\x7b', '\x7d']
  | .object ((k, v) :: rest) =>
    '\x7b' :: stringText k ++ ':' :: compactChars v ++ compactEntries rest

/-- The elements after the first, and the closing bracket. -/
def compactElements : List Json → List Char
  | [] => [']']
  | x :: xs => ',' :: compactChars x ++ compactElements xs

/-- The entries after the first, and the closing brace. -/
def compactEntries : List (String × Json) → List Char
  | [] => ['\x7d']
  | (k, v) :: rest => ',' :: stringText k ++ ':' :: compactChars v ++ compactEntries rest

end

/-- A line end and the indentation at `depth`. -/
def newline (depth : Nat) : List Char :=
  '\n' :: List.replicate (2 * depth) ' '

mutual

def prettyChars (depth : Nat) : Json → List Char
  | .null => ['n', 'u', 'l', 'l']
  | .bool true => ['t', 'r', 'u', 'e']
  | .bool false => ['f', 'a', 'l', 's', 'e']
  | .number n => n.render
  | .text s => stringText s
  | .array [] => ['[', ']']
  | .array (x :: xs) =>
    '[' :: newline (depth + 1) ++ prettyChars (depth + 1) x ++ prettyElements depth xs
  | .object [] => ['\x7b', '\x7d']
  | .object ((k, v) :: rest) =>
    '\x7b' :: newline (depth + 1) ++ stringText k ++ ':' :: ' ' :: prettyChars (depth + 1) v
      ++ prettyEntries depth rest

/-- The elements after the first, and the closing bracket. -/
def prettyElements (depth : Nat) : List Json → List Char
  | [] => newline depth ++ [']']
  | x :: xs =>
    ',' :: newline (depth + 1) ++ prettyChars (depth + 1) x ++ prettyElements depth xs

/-- The entries after the first, and the closing brace. -/
def prettyEntries (depth : Nat) : List (String × Json) → List Char
  | [] => newline depth ++ ['\x7d']
  | (k, v) :: rest =>
    ',' :: newline (depth + 1) ++ stringText k ++ ':' :: ' ' :: prettyChars (depth + 1) v
      ++ prettyEntries depth rest

end

/-- JSON text without white space. -/
def compact (j : Json) : String := String.ofList (compactChars j)

/-- Indented JSON text. -/
def pretty (j : Json) : String := String.ofList (prettyChars 0 j)

end NodeDisks.Json
