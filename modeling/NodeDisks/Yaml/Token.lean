import NodeDisks.Yaml.Scalar

/-!
The tokens of a YAML stream. Punctuation, scalars and directives are tokens; so is the start and the
end of each collection that only its indentation shows.

A key of a mapping is known as one by the colon after it. Until then every token that may start a key
is remembered, and the colon puts the `key` token in front of it. Such a key stays on its line and is
at most 1024 characters long.
-/

namespace NodeDisks.Yaml

inductive Token where
  | versionDirective (major minor : Nat)
  /-- In tags, `handle` stands for `full`. -/
  | tagDirective (handle full : String)
  | documentStart
  | documentEnd
  | blockSequenceStart
  | blockMappingStart
  | blockEnd
  | flowSequenceStart
  | flowSequenceEnd
  | flowMappingStart
  | flowMappingEnd
  | blockEntry
  | flowEntry
  | key
  | value
  | alias (name : String)
  | anchor (name : String)
  | tag (handle suffix : String)
  | scalar (s : Scalar)
  deriving DecidableEq, Repr

/-- A place where a key may have started. -/
structure PossibleKey where
  /-- The number of tokens in front of it. -/
  tokensBefore : Nat
  place : Position
  /-- Nothing but a key can stand there. -/
  required : Bool
  deriving DecidableEq, Repr

/-- A key that started at `k` cannot reach to `p`. -/
def PossibleKey.isStale (k : PossibleKey) (p : Position) : Bool :=
  k.place.line < p.line || k.place.column + 1024 < p.column

/-- A stream up to some place. -/
structure Lexer where
  rest : List Char
  place : Position := ⟨0, 0⟩
  /-- The tokens so far, the newest first. -/
  tokens : List Token := []
  count : Nat := 0
  /-- The columns of the open block collections, the innermost first. -/
  columns : List Nat := []
  /-- The latest place in the innermost collection where a key may have started. -/
  possibleKey : Option PossibleKey := none
  /-- The same for the collections around the open flow collections, the innermost first. -/
  outerKeys : List (Option PossibleKey) := []
  /-- A key may start here. -/
  keyAllowed : Bool := true

namespace Lexer

def inFlow (s : Lexer) : Bool := !s.outerKeys.isEmpty

/-- The least column of what belongs to the innermost block collection. -/
def margin (s : Lexer) : Nat :=
  match s.columns with
  | [] => 0
  | c :: _ => c + 1

def push (s : Lexer) (t : Token) : Lexer :=
  { s with tokens := t :: s.tokens, count := s.count + 1 }

/-- Puts a token behind the first `n` ones. -/
def pushAt (s : Lexer) (n : Nat) (t : Token) : Lexer :=
  let newer := s.count - n
  { s with tokens := s.tokens.take newer ++ t :: s.tokens.drop newer, count := s.count + 1 }

/-- Moves on by `n` characters of the line. -/
def skip (s : Lexer) (n : Nat) : Lexer :=
  { s with rest := s.rest.drop n, place := s.place.right n }

/-! ### Space between tokens -/

/-- Skips space, comments and line ends. A new line of a block may start with a key, and then a tab
does not count as space. -/
def skipSpace (flow : Bool) : (keyAllowed comment : Bool) → List Char → Position →
    Bool × List Char × Position
  | keyAllowed, _, [], p => (keyAllowed, [], p)
  | keyAllowed, comment, c :: cs, p =>
    if isBreak c then skipSpace flow (keyAllowed || !flow) false cs p.down
    else if comment || c == '#' then skipSpace flow keyAllowed true cs (p.right 1)
    else if c == ' ' || (c == '\t' && (flow || !keyAllowed)) then
      skipSpace flow keyAllowed false cs (p.right 1)
    else (keyAllowed, c :: cs, p)

/-! ### Keys -/

/-- Forgets the keys that cannot reach to this place; none of them may be required. -/
def forgetStale? (s : Lexer) : Option Lexer :=
  let stale : Option PossibleKey → Bool := fun k => k.any (·.isStale s.place)
  let bad : Option PossibleKey → Bool := fun k => stale k && k.any (·.required)
  let fresh : Option PossibleKey → Option PossibleKey := fun k => if stale k then none else k
  if bad s.possibleKey || s.outerKeys.any bad then none
  else some { s with possibleKey := fresh s.possibleKey, outerKeys := s.outerKeys.map fresh }

/-- Forgets the key of the innermost collection, which may not be required. -/
def dropKey? (s : Lexer) : Option Lexer :=
  if s.possibleKey.any (·.required) then none else some { s with possibleKey := none }

/-- Remembers this place as one where a key may start. -/
def saveKey? (s : Lexer) : Option Lexer :=
  if s.keyAllowed then
    let required := !s.inFlow && s.columns.head? == some s.place.column
    s.dropKey?.map fun t => { t with possibleKey := some ⟨s.count, s.place, required⟩ }
  else some s

/-! ### Block collections -/

/-- Opens a block collection at `column` in front of the token number `n`, unless one is open there. -/
def openBlock (s : Lexer) (column n : Nat) (start : Token) : Lexer :=
  if s.inFlow || column < s.margin then s
  else { s.pushAt n start with columns := column :: s.columns }

/-- Closes the blocks for which `closes` holds of their column, from the innermost on. -/
def closeBlocks (s : Lexer) (closes : Nat → Bool) : Lexer :=
  if s.inFlow then s
  else
    let closed := s.columns.takeWhile closes
    { s with
      columns := s.columns.drop closed.length
      tokens := List.replicate closed.length .blockEnd ++ s.tokens
      count := s.count + closed.length }

def closeAllBlocks (s : Lexer) : Lexer := s.closeBlocks fun _ => true

/-! ### The kinds of tokens -/

/-- A token of `n` characters that no key may start at; `keyAllowed` says whether one may follow. -/
def indicator? (s : Lexer) (n : Nat) (keyAllowed : Bool) (t : Token) : Option Lexer :=
  s.dropKey?.map fun s => { (s.push t).skip n with keyAllowed }

def openFlow? (s : Lexer) (t : Token) : Option Lexer :=
  s.saveKey?.map fun s =>
    { (s.push t).skip 1 with
      possibleKey := none, outerKeys := s.possibleKey :: s.outerKeys, keyAllowed := true }

def closeFlow? (s : Lexer) (t : Token) : Option Lexer :=
  (s.indicator? 1 false t).map fun s =>
    match s.outerKeys with
    | [] => s
    | k :: ks => { s with possibleKey := k, outerKeys := ks }

/-- A dash in front of an element of a block sequence. -/
def blockEntry? (s : Lexer) : Option Lexer :=
  if !s.inFlow && !s.keyAllowed then none
  else (s.openBlock s.place.column s.count .blockSequenceStart).indicator? 1 true .blockEntry

/-- A question mark in front of a key. -/
def keyMark? (s : Lexer) : Option Lexer :=
  if !s.inFlow && !s.keyAllowed then none
  else (s.openBlock s.place.column s.count .blockMappingStart).indicator? 1 (!s.inFlow) .key

/-- A colon in front of a value. -/
def valueMark? (s : Lexer) : Option Lexer :=
  match s.possibleKey with
  | some k =>
    let s := (s.pushAt k.tokensBefore .key).openBlock k.place.column k.tokensBefore .blockMappingStart
    some { (s.push .value).skip 1 with possibleKey := none, keyAllowed := false }
  | none =>
    if !s.inFlow && !s.keyAllowed then none
    else
      let t := s.openBlock s.place.column s.count .blockMappingStart
      some { (t.push .value).skip 1 with keyAllowed := !s.inFlow }

/-- A name after an ampersand or an asterisk. -/
def named? (s : Lexer) (make : String → Token) : Option Lexer := do
  let s := { (← s.saveKey?) with keyAllowed := false }
  let name := (s.rest.drop 1).takeWhile isName
  let after := s.rest.drop (1 + name.length)
  let ended := endsHere after
    || after.head?.any ['?', ':', ',', ']', '\x7d', '%', '@', Char.ofNat 0x60].contains
  if name.isEmpty || !ended then none
  else some ((s.push (make (String.ofList name))).skip (1 + name.length))

/-! ### Tags and directives -/

def isUriChar (verbatim : Bool) (c : Char) : Bool :=
  isName c || ";/?:@&=+$.!~*'()%".toList.contains c || (verbatim && [',', '[', ']'].contains c)

/-- Puts bytes in the place of percent signs with two digits. -/
def percentDecoded? : List Char → Option (List UInt8)
  | [] => some []
  | '%' :: a :: b :: cs =>
    match Text.hexDigit? a, Text.hexDigit? b with
    | some x, some y => (percentDecoded? cs).map (UInt8.ofNat (16 * x + y) :: ·)
    | _, _ => none
  | c :: cs => if c = '%' then none else (percentDecoded? cs).map (UInt8.ofNat c.toNat :: ·)

/-- The text that an address stands for. -/
def uri? (cs : List Char) : Option String := do
  String.fromUTF8? ⟨(← percentDecoded? cs).toArray⟩

/-- A tag handle: an exclamation mark, a name and perhaps another mark. -/
def handle (cs : List Char) : List Char :=
  let name := (cs.drop 1).takeWhile isName
  let mark := if (cs.drop (1 + name.length)).head? = some '!' then ['!'] else []
  cs.take 1 ++ name ++ mark

/-- A tag, with its length in characters. A whole address stands between angle brackets; otherwise a
handle comes first, which is a lone mark when no second one follows. -/
def tagAt? (cs : List Char) : Option (Token × Nat) :=
  match cs with
  | '!' :: '<' :: cs =>
    let address := cs.takeWhile (isUriChar true)
    if address.isEmpty || (cs.drop address.length).head? != some '>' then none
    else (uri? address).map fun u => (.tag "" u, address.length + 3)
  | _ =>
    let h := handle cs
    if 2 ≤ h.length && h.getLast? = some '!' then
      let suffix := (cs.drop h.length).takeWhile (isUriChar false)
      if suffix.isEmpty then none
      else (uri? suffix).map fun u => (.tag (String.ofList h) u, h.length + suffix.length)
    else
      let suffix := (cs.drop 1).takeWhile (isUriChar false)
      if suffix.isEmpty then some (.tag "" "!", 1)
      else (uri? suffix).map fun u => (.tag "!" u, 1 + suffix.length)

def tag? (s : Lexer) : Option Lexer := do
  let s := { (← s.saveKey?) with keyAllowed := false }
  let (t, n) ← tagAt? s.rest
  let s := (s.push t).skip n
  if endsHere s.rest || (s.inFlow && s.rest.head? = some ',') then some s else none

/-- Digits at the start, at most nine. -/
def versionNumber? (cs : List Char) : Option (Nat × List Char) :=
  let digits := cs.takeWhile Char.isDigit
  if 9 < digits.length then none
  else (Text.natural? digits).map fun n => (n, cs.drop digits.length)

/-- The content of a directive, and what follows it. -/
def directiveAt? (cs : List Char) : Option (Token × List Char) :=
  let name := cs.takeWhile isName
  let after := cs.drop name.length
  if !endsHere after then none
  else if name = "YAML".toList then
    match versionNumber? (after.dropWhile isSpace) with
    | some (major, '.' :: cs) => (versionNumber? cs).map fun (minor, cs) =>
        (.versionDirective major minor, cs)
    | _ => none
  else if name = "TAG".toList then
    let cs := after.dropWhile isSpace
    let h := handle cs
    let after := cs.drop h.length
    let address := (after.dropWhile isSpace).takeWhile (isUriChar true)
    let rest := (after.dropWhile isSpace).drop address.length
    if h.head? = some '!' && (h.length = 1 || h.getLast? = some '!') && after.head?.any isSpace
        && !address.isEmpty && endsHere rest then
      (uri? address).map fun u => (.tagDirective (String.ofList h) u, rest)
    else none
  else none

/-- A line that starts with a percent sign. -/
def directive? (s : Lexer) : Option Lexer := do
  let s ← s.closeAllBlocks.dropKey?
  let (t, cs) ← directiveAt? (s.rest.drop 1)
  let (rest, place) := match (← lineEnd? cs) with
    | [] => ([], s.place.right 1)
    | _ :: cs => (cs, s.place.down)
  return { s.push t with rest, place, keyAllowed := false }

/-! ### Scalars -/

/-- Puts a scalar that has been read. -/
def pushScalar (s : Lexer) (style : ScalarStyle) (r : Scanned) (keyAllowed : Bool) : Lexer :=
  { s.push (.scalar ⟨style, String.ofList r.text⟩) with
    rest := r.rest, place := r.place, keyAllowed }

def block? (s : Lexer) (style : ScalarStyle) : Option Lexer := do
  let s ← s.dropKey?
  let r ← blockScalar (style != .literal) s.margin (s.rest.drop 1) (s.place.right 1)
  return s.pushScalar style r true

def quoted? (s : Lexer) (quote : Char) : Option Lexer := do
  let s ← s.saveKey?
  let r ← quoted quote (s.rest.drop 1) (s.place.right 1) [] {}
  return s.pushScalar .other r false

def plain? (s : Lexer) : Option Lexer := do
  let s ← s.saveKey?
  let r ← plain s.inFlow s.margin s.rest s.place [] {}
  return s.pushScalar .plain r r.broken

/-- A plain scalar cannot start with punctuation, except with a dash, a question mark or a colon that
has something behind it. -/
def startsPlain (flow : Bool) (c : Char) (cs : List Char) : Bool :=
  (!isSpace c && !"-?:,[]\x7b\x7d#&*!|>'\"%@".toList.contains c && c != Char.ofNat 0x60)
    || (c == '-' && !cs.head?.any isSpace)
    || (!flow && (c == '?' || c == ':') && !endsHere cs)

/-- The token that starts with `c`, at the current place. -/
def token? (s : Lexer) (c : Char) (cs : List Char) : Option Lexer :=
  if s.place.column == 0 && c == '%' then s.directive?
  else if s.place.column == 0 && startsWithMarker (c :: cs) then
    s.closeAllBlocks.indicator? 3 false (if c = '-' then .documentStart else .documentEnd)
  else if c = '[' then s.openFlow? .flowSequenceStart
  else if c = '\x7b' then s.openFlow? .flowMappingStart
  else if c = ']' then s.closeFlow? .flowSequenceEnd
  else if c = '\x7d' then s.closeFlow? .flowMappingEnd
  else if c = ',' then s.indicator? 1 true .flowEntry
  else if c = '-' && endsHere cs then s.blockEntry?
  else if c = '?' && (s.inFlow || endsHere cs) then s.keyMark?
  else if c = ':' && (s.inFlow || endsHere cs) then s.valueMark?
  else if c = '*' then s.named? .alias
  else if c = '&' then s.named? .anchor
  else if c = '!' then s.tag?
  else if c = '|' && !s.inFlow then s.block? .literal
  else if c = '>' && !s.inFlow then s.block? .other
  else if c = '\'' || c = '"' then s.quoted? c
  else if startsPlain s.inFlow c cs then s.plain?
  else none

/-- Moves to the start of the next token. -/
def advance? (s : Lexer) : Option Lexer :=
  let (keyAllowed, rest, place) := skipSpace s.inFlow s.keyAllowed false s.rest s.place
  let next : Lexer := { s with keyAllowed, rest, place }
  next.forgetStale?.map fun s => s.closeBlocks fun column => place.column < column

/-- The tokens of the whole stream. Every token takes characters. -/
def tokens? (s : Lexer) : Option (List Token) :=
  match s.advance? with
  | none => none
  | some next =>
    match next.rest with
    | [] => next.closeAllBlocks.dropKey?.map (·.tokens.reverse)
    | c :: cs =>
      match next.token? c cs with
      | none => none
      | some next => if next.rest.length < s.rest.length then next.tokens? else none
termination_by s.rest.length

end Lexer

/-- The tokens of a text. A byte order mark at its start takes a column. -/
def tokens? (text : String) : Option (List Token) :=
  let cs := text.toList
  if cs.all isAllowed then
    match unifyBreaks cs with
    | [] => some []
    | c :: cs =>
      let start : Lexer := { rest := c :: cs }
      (if c = Char.ofNat 0xFEFF then start.skip 1 else start).tokens?
  else none

end NodeDisks.Yaml
