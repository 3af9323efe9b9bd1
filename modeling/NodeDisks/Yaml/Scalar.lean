import NodeDisks.Text

/-!
## Characters and positions

The text of a YAML stream: which characters may occur, what ends a line and a word, and positions.

A line ends with a line feed, a carriage return, both, or one of three Unicode separators. The first
four mean the same and are made line feeds at once; a line or paragraph separator stays what it is.
-/

namespace NodeDisks.Yaml

/-- The character may occur in a stream. -/
def isAllowed (c : Char) : Bool :=
  let n := c.toNat
  n == 0x9 || n == 0xA || n == 0xD || (0x20 ≤ n && n ≤ 0x7E) || n == 0x85
    || (0xA0 ≤ n && n ≤ 0xFFFD) || 0x10000 ≤ n

def nextLine : Char := Char.ofNat 0x85
def lineSeparator : Char := Char.ofNat 0x2028
def paragraphSeparator : Char := Char.ofNat 0x2029

/-- Every line end that means a line feed is one. -/
def unifyBreaks : List Char → List Char
  | [] => []
  | '\r' :: '\n' :: cs => '\n' :: unifyBreaks cs
  | c :: cs => (if c = '\r' || c = nextLine then '\n' else c) :: unifyBreaks cs

/-- Ends a line of a text with unified line ends. -/
def isBreak (c : Char) : Bool := c == '\n' || c == lineSeparator || c == paragraphSeparator

/-- Space within a line. -/
def isSpace (c : Char) : Bool := c == ' ' || c == '\t'

/-- May occur in the name of an anchor or a tag handle. -/
def isName (c : Char) : Bool := c.isAlphanum || c == '_' || c == '-'

/-- Nothing follows in this place: space, a line end or the end of the text. -/
def endsHere : List Char → Bool
  | [] => true
  | c :: _ => isSpace c || isBreak c

/-- Three dashes, or three points, that stand alone. -/
def startsWithMarker : List Char → Bool
  | '-' :: '-' :: '-' :: cs => endsHere cs
  | '.' :: '.' :: '.' :: cs => endsHere cs
  | _ => false

/-- A place in a text, counted from zero. -/
structure Position where
  line : Nat
  column : Nat
  deriving DecidableEq, Repr

namespace Position

def right (p : Position) (n : Nat) : Position := { p with column := p.column + n }

/-- The start of the next line. -/
def down (p : Position) : Position := ⟨p.line + 1, 0⟩

end Position

/-!
## Scalars

Scalars: plain, in quotes, and as a block of lines.

A plain or quoted scalar may go on over several lines. Space at the line ends is dropped, a single
line end becomes a space, and of several the first is dropped. `Gap` gathers what stands between two
words until it is known what becomes of it.
-/

inductive ScalarStyle where
  | plain
  /-- A block whose line ends are kept. -/
  | literal
  /-- In quotes, or a block whose lines are joined. -/
  | other
  deriving DecidableEq, Repr

structure Scalar where
  style : ScalarStyle
  text : String
  deriving DecidableEq, Repr

/-- What a scalar leaves: its text, the rest of the stream with its place, and whether line ends came
after the last word. -/
structure Scanned where
  text : List Char
  rest : List Char
  place : Position
  broken : Bool

/-- Space and line ends between two words, the newest character first. -/
structure Gap where
  spaces : List Char := []
  /-- A line has ended. -/
  broken : Bool := false
  firstBreak : Option Char := none
  moreBreaks : List Char := []

namespace Gap

def addSpace (g : Gap) (c : Char) : Gap :=
  if g.broken then g else { g with spaces := c :: g.spaces }

def addBreak (g : Gap) (c : Char) : Gap :=
  if g.broken then { g with moreBreaks := c :: g.moreBreaks }
  else { spaces := [], broken := true, firstBreak := some c, moreBreaks := [] }

/-- A line end that is no part of the text. -/
def escapedBreak : Gap := { broken := true }

def isEmpty (g : Gap) : Bool := g.spaces.isEmpty && !g.broken

/-- What the gap becomes in the text, the newest character first. -/
def joined (g : Gap) : List Char :=
  if !g.broken then g.spaces
  else if g.firstBreak = some '\n' then
    if g.moreBreaks.isEmpty then [' '] else g.moreBreaks
  else g.moreBreaks ++ g.firstBreak.toList

end Gap

/-- A plain scalar. In a flow collection it ends before punctuation; in a block it ends with a line
that starts left of `indent`. -/
def plain (flow : Bool) (indent : Nat) :
    List Char → Position → (text : List Char) → Gap → Option Scanned
  | [], p, text, gap => some ⟨text.reverse, [], p, gap.broken⟩
  | c :: cs, p, text, gap =>
    let finished : Scanned := ⟨text.reverse, c :: cs, p, gap.broken⟩
    if isSpace c then
      if gap.broken && c == '\t' && p.column < indent then none
      else plain flow indent cs (p.right 1) text (gap.addSpace c)
    else if isBreak c then plain flow indent cs p.down text (gap.addBreak c)
    else if !gap.isEmpty && ((!flow && p.column < indent)
        || (p.column == 0 && startsWithMarker (c :: cs)) || c == '#') then some finished
    else if flow && c == ':' && cs.head?.any [',', '?', '[', ']', '\x7b', '\x7d'].contains then none
    else if (c == ':' && endsHere cs) || (flow && [',', '[', ']', '\x7b', '\x7d'].contains c) then
      some finished
    else plain flow indent cs (p.right 1) (c :: gap.joined ++ text) {}

/-- The character that a letter after a backslash stands for. -/
def escapedChar? (c : Char) : Option Char :=
  [('0', Char.ofNat 0), ('a', Char.ofNat 7), ('b', Char.ofNat 8), ('t', '\t'), ('\t', '\t'),
    ('n', '\n'), ('v', Char.ofNat 11), ('f', Char.ofNat 12), ('r', '\r'), ('e', Char.ofNat 27),
    (' ', ' '), ('"', '"'), ('\'', '\''), ('/', '/'), ('\\', '\\'), ('N', nextLine),
    ('_', Char.ofNat 0xA0), ('L', lineSeparator), ('P', paragraphSeparator)].lookup c

/-- The number of hexadecimal digits that follow a letter after a backslash. -/
def escapeWidth? (c : Char) : Option Nat :=
  [('x', 2), ('u', 4), ('U', 8)].lookup c

/-- The number that hexadecimal digits stand for. -/
def hexNumber? (cs : List Char) : Option Nat :=
  cs.foldl (fun n c => do return (← n) * 16 + (← Text.hexDigit? c)) (some 0)

/-- The character whose code the first `width` characters give. -/
def codedChar? (width : Nat) (cs : List Char) : Option Char :=
  if cs.length < width then none
  else
    match hexNumber? (cs.take width) with
    | some n => if n.isValidChar then some (Char.ofNat n) else none
    | none => none

/-- A quoted scalar, from the character after the quote on. Between single quotes a doubled quote
stands for one; between double quotes a backslash starts an escape. -/
def quoted (quote : Char) (cs : List Char) (p : Position) (text : List Char) (gap : Gap) :
    Option Scanned :=
  match cs with
  | [] => none
  | c :: cs =>
    if isSpace c then quoted quote cs (p.right 1) text (gap.addSpace c)
    else if isBreak c then quoted quote cs p.down text (gap.addBreak c)
    else if p.column == 0 && startsWithMarker (c :: cs) then none
    else
      let text := gap.joined ++ text
      if c = quote then
        match cs with
        | '\'' :: cs' =>
          if quote = '\'' then quoted quote cs' (p.right 2) (c :: text) {}
          else some ⟨text.reverse, cs, p.right 1, false⟩
        | _ => some ⟨text.reverse, cs, p.right 1, false⟩
      else if quote = '"' && c == '\\' then
        match cs with
        | [] => none
        | e :: cs =>
          if isBreak e then quoted quote cs p.down text .escapedBreak
          else
            match escapedChar? e, escapeWidth? e with
            | some x, _ => quoted quote cs (p.right 2) (x :: text) {}
            | none, some width =>
              match codedChar? width cs with
              | some x => quoted quote (cs.drop width) (p.right (2 + width)) (x :: text) {}
              | none => none
            | none, none => none
      else quoted quote cs (p.right 1) (c :: text) {}
termination_by cs.length
decreasing_by all_goals simp_all <;> omega

/-- What becomes of the line ends at the end of a block: the last one of its text stays, none stays,
or all stay. -/
inductive Chomp where
  | clip
  | strip
  | keep
  deriving DecidableEq, Repr

/-- The first line of a block: what it says about line ends and about the indentation, and the
characters after it. -/
def blockHeader? : List Char → Option (Chomp × Option Nat × List Char)
  | '+' :: cs => (width? cs).map fun (n, cs) => (.keep, n, cs)
  | '-' :: cs => (width? cs).map fun (n, cs) => (.strip, n, cs)
  | cs => (width? cs).map fun
    | (some n, '+' :: cs) => (.keep, some n, cs)
    | (some n, '-' :: cs) => (.strip, some n, cs)
    | (n, cs) => (.clip, n, cs)
where
  /-- A digit other than zero, if there is a digit. -/
  width? : List Char → Option (Option Nat × List Char)
    | c :: cs =>
      if c = '0' then none
      else if c.isDigit then some (some (c.toNat - '0'.toNat), cs)
      else some (none, c :: cs)
    | [] => some (none, [])

/-- The characters after space and a comment, which have to reach to the end of the line. -/
def lineEnd? (cs : List Char) : Option (List Char) :=
  match cs.dropWhile isSpace with
  | '#' :: cs => some (cs.dropWhile fun c => !isBreak c)
  | [] => some []
  | c :: cs => if isBreak c then some (c :: cs) else none

/-- A block that is being read. Its text and the line ends have the newest character first. -/
structure Block where
  /-- The indentation, when it is given or a line has settled it. -/
  indent : Option Nat
  /-- The widest line seen while the indentation is open. -/
  widest : Nat := 0
  /-- Within a line of text. -/
  inLine : Bool := false
  text : List Char := []
  /-- The end of the line before. -/
  lastBreak : Option Char := none
  /-- The ends of the empty lines since. -/
  moreBreaks : List Char := []
  /-- The line before started with space. -/
  spaced : Bool := false

namespace Block

/-- A line of text starts. Between two lines that do not start with space a folded block has a space
in the place of the line end, or nothing when empty lines follow. -/
def startLine (b : Block) (folded spaced : Bool) : Block :=
  let line := if folded && b.lastBreak == some '\n' && !b.spaced && !spaced then
      if b.moreBreaks.isEmpty then [' '] else []
    else b.lastBreak.toList
  { b with inLine := true, text := b.moreBreaks ++ line ++ b.text, lastBreak := none
           moreBreaks := [], spaced }

/-- Reads a block whose lines start at column `least` or further right. -/
def read (folded : Bool) (least : Nat) :
    List Char → Position → Block → Option (Block × List Char × Position)
  | [], p, b => some (b, [], p)
  | c :: cs, p, b =>
    if b.inLine then
      if isBreak c then read folded least cs p.down { b with inLine := false, lastBreak := some c }
      else read folded least cs (p.right 1) { b with text := c :: b.text }
    else
      let inMargin := b.indent.all (p.column < ·)
      if c == ' ' && inMargin then read folded least cs (p.right 1) b
      else if c == '\t' && inMargin then none
      else if isBreak c then
        read folded least cs p.down
          { b with widest := max b.widest p.column, moreBreaks := c :: b.moreBreaks }
      else
        let indent := b.indent.getD (max (max b.widest p.column) least)
        if p.column = indent then
          let b := { b with indent := some indent }.startLine folded (isSpace c)
          read folded least cs (p.right 1) { b with text := c :: b.text }
        else some (b, c :: cs, p)

def finish (b : Block) : Chomp → List Char
  | .strip => b.text.reverse
  | .clip => (b.lastBreak.toList ++ b.text).reverse
  | .keep => (b.moreBreaks ++ b.lastBreak.toList ++ b.text).reverse

end Block

/-- A block scalar, from the character after its indicator on; `margin` is the least column of what
belongs to the collection around it. -/
def blockScalar (folded : Bool) (margin : Nat) (cs : List Char) (p : Position) : Option Scanned := do
  let (chomp, width, cs) ← blockHeader? cs
  let (cs, p) := match (← lineEnd? cs) with
    | [] => ([], p)
    | _ :: cs => (cs, p.down)
  let indent := width.map fun n => margin - 1 + n
  let (b, rest, place) ← Block.read folded (max margin 1) cs p { indent }
  return ⟨b.finish chomp, rest, place, true⟩

end NodeDisks.Yaml
