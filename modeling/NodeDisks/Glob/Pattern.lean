import NodeDisks.Text

/-!
File name patterns. `?` stands for one character, `*` for any run of characters, `[abc]`, `[a-z]` and
`[!abc]` for one character of a class; none of them stands for a slash. `**` as a whole path
component stands for any number of components.

`Pattern.compile` reads a pattern, `Pattern.accepts` compares a text with it.
-/

namespace NodeDisks.Glob

/-- Characters from `first` to `last`. -/
structure Interval where
  first : Char
  last : Char
  deriving DecidableEq, Repr

inductive Token where
  | literal (c : Char)
  | anyChar
  | anyOf (members : List Interval)
  | noneOf (members : List Interval)
  /-- A run of characters without a slash. -/
  | sequence
  /-- Whole components with the slash behind each, or all that is left. -/
  | components
  deriving DecidableEq, Repr

inductive Fault where
  /-- More than two stars. -/
  | stars
  /-- Two stars that share a component with something else. -/
  | sharedComponent
  /-- A class that is not closed. -/
  | openClass
  deriving DecidableEq, Repr

/-- A fault and the place of the character where it shows. -/
structure PatternError where
  place : Nat
  fault : Fault
  deriving DecidableEq, Repr

def Fault.message : Fault → String
  | stars => "wildcards are either regular `*` or recursive `**`"
  | sharedComponent => "recursive wildcards must form a single path component"
  | openClass => "invalid range pattern"

def PatternError.message (e : PatternError) : String :=
  "Pattern syntax error near position " ++ Text.decimal e.place ++ ": " ++ e.fault.message

/-- The members of a class; a dash between two characters makes an interval. -/
def members : List Char → List Interval
  | a :: '-' :: b :: rest => ⟨a, b⟩ :: members rest
  | a :: rest => ⟨a, a⟩ :: members rest
  | [] => []

/-- What stands up to the next `]`, and what follows it. -/
def untilBracket : List Char → Option (List Char × List Char)
  | [] => none
  | ']' :: rest => some ([], rest)
  | c :: rest => (untilBracket rest).map fun (body, after) => (c :: body, after)

/-- A class after its opening bracket, with the number of characters it takes. The first member may
be a closing bracket. -/
def class? : List Char → Option (Token × Nat × List Char)
  | '!' :: first :: rest =>
    (untilBracket rest).map fun (body, after) =>
      (.noneOf (members (first :: body)), body.length + 3, after)
  | '!' :: [] => none
  | first :: rest =>
    (untilBracket rest).map fun (body, after) =>
      (.anyOf (members (first :: body)), body.length + 2, after)
  | [] => none

/-- Reads tokens from `place` on; `start` says that a component starts there. `most` bounds the number
of tokens. -/
def tokens? : (most : Nat) → (place : Nat) → (start : Bool) → List Char →
    Except PatternError (List Token)
  | _, _, _, [] => .ok []
  | 0, _, _, _ :: _ => .ok []
  | most + 1, place, start, c :: rest =>
    if c = '?' then (tokens? most (place + 1) false rest).map (.anyChar :: ·)
    else if c = '*' then
      let more := (rest.takeWhile (· == '*')).length
      let after := rest.dropWhile (· == '*')
      if more = 0 then (tokens? most (place + 1) false after).map (.sequence :: ·)
      else if 1 < more then .error ⟨place + 2, .stars⟩
      else if !start then .error ⟨place - 1, .sharedComponent⟩
      else match after with
        | [] => .ok [.components]
        | '/' :: after => (tokens? most (place + 3) true after).map (.components :: ·)
        | _ => .error ⟨place + 2, .sharedComponent⟩
    else if c = '[' then
      match class? rest with
      | none => .error ⟨place, .openClass⟩
      | some (token, width, after) =>
        (tokens? most (place + 1 + width) false after).map (token :: ·)
    else (tokens? most (place + 1) (c == '/') rest).map (.literal c :: ·)

/-- A compiled pattern. -/
structure Pattern where
  tokens : List Token
  deriving DecidableEq, Repr

/-- Reads a pattern. -/
def Pattern.compile (s : String) : Except PatternError Pattern :=
  (tokens? s.toList.length 0 true s.toList).map Pattern.mk

/-- One character against the members of a class. -/
def isMember (members : List Interval) (c : Char) : Bool :=
  members.any fun i => i.first ≤ c && c ≤ i.last

/-- A token that stands for one character accepts `c`. -/
def Token.accepts : Token → Char → Bool
  | literal d, c => c == d
  | anyChar, c => c != '/'
  | anyOf ms, c => c != '/' && isMember ms c
  | noneOf ms, c => c != '/' && !isMember ms c
  | sequence, _ | components, _ => false

/-- Test `accept` holds after some run of characters without a slash. -/
def afterRun (accept : List Char → Bool) : List Char → Bool
  | [] => accept []
  | c :: cs => accept (c :: cs) || (c != '/' && afterRun accept cs)

/-- Test `accept` holds here, after some later slash, or at the end. -/
def afterSlash (accept : List Char → Bool) : List Char → Bool
  | [] => accept []
  | c :: cs => (c == '/' && accept cs) || afterSlash accept cs

def accepts : List Token → List Char → Bool
  | [], cs => cs.isEmpty
  | .sequence :: ts, cs => afterRun (accepts ts) cs
  | .components :: ts, cs => accepts ts cs || afterSlash (accepts ts) cs
  | _ :: _, [] => false
  | t :: ts, c :: cs => t.accepts c && accepts ts cs

/-- The whole text fits the pattern. -/
def Pattern.accepts (p : Pattern) (s : String) : Bool :=
  Glob.accepts p.tokens s.toList

/-- A character with a meaning of its own in patterns. -/
def isMeta (c : Char) : Bool := c = '?' || c = '*' || c = '['

end NodeDisks.Glob
