import NodeDisks.Resource
import NodeDisks.Yaml.Token

/-!
## Trees

The tree of a YAML document: scalars, sequences and mappings, each perhaps with a tag, and aliases of
nodes that have an anchor. A stream holds at most one document.

An alias may occur within the node it stands for, so the tree holds the number of the anchored node,
and a table beside the tree holds that node.
-/

namespace NodeDisks.Yaml

inductive Node where
  | scalar (tag : Option String) (s : Scalar)
  | sequence (tag : Option String) (elements : List Node)
  | mapping (tag : Option String) (entries : List (Node × Node))
  | alias (number : Nat)

/-- The content of a place where nothing stands. -/
def Node.nothing : Node := .scalar none ⟨.plain, ""⟩

structure Document where
  root : Node
  /-- The nodes that have an anchor, by their number. -/
  anchored : List (Nat × Node)

/-- Full forms of tag handles. -/
abbrev TagHandles := List (String × String)

def standardHandles : TagHandles := [("!", "!"), ("!!", "tag:yaml.org,2002:")]

/-- What is left to read, and what is known of anchors. -/
structure Reading where
  tokens : List Token
  handles : TagHandles
  /-- The number that each anchor name stands for, the latest first. -/
  anchors : List (String × Nat) := []
  anchored : List (Nat × Node) := []

abbrev Parse := StateT Reading Option

namespace Parse

def peek : Parse (Option Token) := do return (← get).tokens.head?

def skip : Parse Unit := modify fun r => { r with tokens := r.tokens.drop 1 }

/-- Anchor and tag in front of a node. -/
structure Properties where
  anchor : Option String := none
  tag : Option String := none

/-- The full form of a tag. -/
def fullTag (handle suffix : String) : Parse String := do
  if handle = "" then return suffix
  match (← get).handles.lookup handle with
  | some full => return full ++ suffix
  | none => failure

def anchorAhead : Parse (Option String) := do
  match ← peek with
  | some (.anchor name) => skip; return some name
  | _ => return none

def tagAhead : Parse (Option String) := do
  match ← peek with
  | some (.tag handle suffix) => skip; return some (← fullTag handle suffix)
  | _ => return none

/-- Anchor and tag, in either order. -/
def properties : Parse Properties := do
  match ← anchorAhead with
  | some a => return ⟨some a, ← tagAhead⟩
  | none =>
    match ← tagAhead with
    | none => return {}
    | some t => return ⟨← anchorAhead, some t⟩

/-- Gives the next number to an anchor. -/
def register (name : String) : Parse Nat := do
  let n := (← get).anchors.length
  modify fun r => { r with anchors := (name, n) :: r.anchors }
  return n

/-- A node is left out in front of one of these tokens. -/
def isNextOf (after : List Token) : Parse Bool := do
  return (← peek).any after.contains

mutual

/-- A node; a block collection may start only where `block` holds, and a block sequence without an
indentation of its own only where `indentless` does. -/
def node : (fuel : Nat) → (block indentless : Bool) → Parse Node
  | 0, _, _ => failure
  | fuel + 1, block, indentless => do
    match ← peek with
    | some (.alias name) =>
      skip
      match (← get).anchors.lookup name with
      | some n => return .alias n
      | none => failure
    | _ =>
      let p ← properties
      match p.anchor with
      | none => content fuel block indentless p
      | some name =>
        let n ← register name
        let x ← content fuel block indentless p
        modify fun r => { r with anchored := (n, x) :: r.anchored }
        return x

/-- A node without its anchor and tag. -/
def content : (fuel : Nat) → (block indentless : Bool) → Properties → Parse Node
  | 0, _, _, _ => failure
  | fuel + 1, block, indentless, p => do
    match ← peek with
    | some .blockEntry =>
      if indentless then return .sequence p.tag (← indentlessEntries fuel) else missing p
    | some (.scalar s) =>
      skip
      return .scalar (if p.tag = some "!" then none else p.tag) s
    | some .flowSequenceStart => skip; return .sequence p.tag (← flowEntries fuel true)
    | some .flowMappingStart => skip; return .mapping p.tag (← flowPairs fuel true)
    | some .blockSequenceStart =>
      if block then skip; return .sequence p.tag (← blockEntries fuel) else missing p
    | some .blockMappingStart =>
      if block then skip; return .mapping p.tag (← blockPairs fuel) else missing p
    | _ => missing p

/-- An anchor or a tag may stand alone. -/
def missing (p : Properties) : Parse Node :=
  if p.anchor.isNone && p.tag.isNone then failure else return .scalar p.tag ⟨.plain, ""⟩

/-- The node that stands here, or nothing in front of one of the given tokens. -/
def nodeUnless : (fuel : Nat) → (after : List Token) → (block indentless : Bool) → Parse Node
  | 0, _, _, _ => failure
  | fuel + 1, after, block, indentless => do
    if ← isNextOf after then return .nothing else node fuel block indentless

/-- The elements of a block sequence. -/
def blockEntries : (fuel : Nat) → Parse (List Node)
  | 0 => failure
  | fuel + 1 => do
    match ← peek with
    | some .blockEntry =>
      skip
      let x ← nodeUnless fuel [.blockEntry, .blockEnd] true false
      return x :: (← blockEntries fuel)
    | some .blockEnd => skip; return []
    | _ => failure

/-- The elements of a block sequence that is indented like the mapping around it. -/
def indentlessEntries : (fuel : Nat) → Parse (List Node)
  | 0 => failure
  | fuel + 1 => do
    match ← peek with
    | some .blockEntry =>
      skip
      let x ← nodeUnless fuel [.blockEntry, .key, .value, .blockEnd] true false
      return x :: (← indentlessEntries fuel)
    | _ => return []

/-- The entries of a block mapping. -/
def blockPairs : (fuel : Nat) → Parse (List (Node × Node))
  | 0 => failure
  | fuel + 1 => do
    match ← peek with
    | some .key =>
      skip
      let k ← nodeUnless fuel [.key, .value, .blockEnd] true true
      let v ← blockValue fuel
      return (k, v) :: (← blockPairs fuel)
    | some .blockEnd => skip; return []
    | _ => failure

/-- The value of an entry of a block mapping. -/
def blockValue : (fuel : Nat) → Parse Node
  | 0 => failure
  | fuel + 1 => do
    match ← peek with
    | some .value => skip; nodeUnless fuel [.key, .value, .blockEnd] true true
    | _ => return .nothing

/-- The elements of a flow sequence; `first` is the one after the bracket. -/
def flowEntries : (fuel : Nat) → (first : Bool) → Parse (List Node)
  | 0, _ => failure
  | fuel + 1, first => do
    if !first && (← peek) != some .flowSequenceEnd then
      if (← peek) = some .flowEntry then skip else failure
    match ← peek with
    | some .flowSequenceEnd => skip; return []
    | some .key =>
      skip
      let k ← flowKey fuel
      let v ← flowValue fuel .flowSequenceEnd
      return .mapping none [(k, v)] :: (← flowEntries fuel false)
    | _ =>
      let x ← node fuel false false
      return x :: (← flowEntries fuel false)

/-- The key of a pair in a flow sequence. In place of a key that is left out, the token after it is
taken. -/
def flowKey : (fuel : Nat) → Parse Node
  | 0 => failure
  | fuel + 1 => do
    if ← isNextOf [.value, .flowEntry, .flowSequenceEnd] then
      skip
      return .nothing
    else node fuel false false

/-- The value of a pair in a flow collection that ends with `close`. -/
def flowValue : (fuel : Nat) → (close : Token) → Parse Node
  | 0, _ => failure
  | fuel + 1, close => do
    match ← peek with
    | some .value => skip; nodeUnless fuel [.flowEntry, close] false false
    | _ => return .nothing

/-- The entries of a flow mapping; `first` is the one after the brace. A key without a mark in front
of it has no value. -/
def flowPairs : (fuel : Nat) → (first : Bool) → Parse (List (Node × Node))
  | 0, _ => failure
  | fuel + 1, first => do
    if !first && (← peek) != some .flowMappingEnd then
      if (← peek) = some .flowEntry then skip else failure
    match ← peek with
    | some .flowMappingEnd => skip; return []
    | some .key =>
      skip
      let k ← nodeUnless fuel [.value, .flowEntry, .flowMappingEnd] false false
      let v ← flowValue fuel .flowMappingEnd
      return (k, v) :: (← flowPairs fuel false)
    | _ =>
      let k ← node fuel false false
      return (k, .nothing) :: (← flowPairs fuel false)

end

/-- The directives in front of a document. A version has to be 1.1 or 1.2 and comes once, and a tag
handle gets its full form once. -/
def directives : List Token → (version : Bool) → TagHandles → Option (List Token × TagHandles)
  | .versionDirective major minor :: ts, version, hs =>
    if version || major ≠ 1 || (minor ≠ 1 && minor ≠ 2) then none else directives ts true hs
  | .tagDirective handle full :: ts, version, hs =>
    if (hs.lookup handle).isSome then none else directives ts version (hs ++ [(handle, full)])
  | ts, _, hs => some (ts, hs)

/-- The root of a document. Without a start mark in front of it there has to be one. -/
def root (fuel : Nat) (marked : Bool) : Parse Node := do
  match ← peek with
  | none => return .nothing
  | some t =>
    let ends := match t with
      | .versionDirective .. | .tagDirective .. | .documentStart | .documentEnd => true
      | _ => false
    if marked && ends then return .nothing else node fuel true false

end Parse

/-- The document of a stream; an empty one holds nothing. -/
def Document.ofTokens? (ts : List Token) : Option Document := do
  let (rest, handles) ← Parse.directives ts false []
  let marked := rest.head? == some .documentStart
  if !marked && rest.length < ts.length then none
  else
    let tokens := if marked then rest.drop 1 else rest
    /- Of four nested calls one takes a token. -/
    let fuel := 4 * tokens.length + 4
    let (x, r) ← (Parse.root fuel marked).run { tokens, handles := handles ++ standardHandles }
    if r.tokens.all (· == .documentEnd) then some ⟨x, r.anchored⟩ else none

/-- The document that a text holds. -/
def Document.ofText? (text : String) : Option Document := do
  ofTokens? (← tokens? text)

/-!
## Values

Typed values from the nodes of a YAML tree. What a scalar may be depends on the type that is asked
for: as text every scalar is what it says, as a number or as nothing only a plain one is, and a place
where nothing stands is an empty list and a record without entries.
-/

/-- A node in its document. -/
structure Value where
  anchored : List (Nat × Node)
  node : Node

def nullTag : String := "tag:yaml.org,2002:null"
def integerTag : String := "tag:yaml.org,2002:int"

/-- The spellings of nothing. -/
def isNullText (s : String) : Bool := ["null", "Null", "NULL", "~"].contains s

/-- An unsigned number in the given base, without a sign. -/
def inBase? (base : Nat) (cs : List Char) : Option UInt64 :=
  let digit? (c : Char) := (Text.hexDigit? c).filter (· < base)
  if cs.isEmpty then none
  else
    match cs.foldl (fun n c => do return (← n) * base + (← digit? c)) (some 0) with
    | some n => if n < UInt64.size then some (UInt64.ofNat n) else none
    | none => none

/-- An unsigned number: hexadecimal, octal or binary with a mark in front, or decimal without leading
zeros. -/
def word? (s : String) : Option UInt64 :=
  let digits := match s.toList with
    | '+' :: cs => cs
    | cs => cs
  match digits with
  | '0' :: 'x' :: cs => inBase? 16 cs
  | '0' :: 'o' :: cs => inBase? 8 cs
  | '0' :: 'b' :: cs => inBase? 2 cs
  | '0' :: _ :: _ => none
  | cs => inBase? 10 cs

namespace Value

/-- The node, or the one it is an alias of. -/
def target (v : Value) : Node :=
  match v.node with
  | .alias n => (v.anchored.lookup n).getD .nothing
  | x => x

def mismatch {α : Type} (expected : String) : Except DecodeError α :=
  .error (.invalidType .node expected)

def toText (v : Value) : Except DecodeError String :=
  match v.target with
  | .scalar _ s => .ok s.text
  | _ => mismatch "a string"

def toWord (v : Value) : Except DecodeError UInt64 :=
  match v.target with
  | .scalar tag s =>
    let asNumber := s.style == .plain || (s.style == .literal && tag == some integerTag)
    match if asNumber then word? s.text else none with
    | some n => .ok n
    | none => mismatch "u64"
  | _ => mismatch "u64"

/-- A tag of the document itself, without its mark. -/
def ownTag? : Node → Option String
  | .scalar tag _ | .sequence tag _ | .mapping tag _ =>
    match tag.map String.toList with
    | some ('!' :: cs) => some (String.ofList cs)
    | _ => none
  | .alias _ => none

/-- One of the named values: a scalar with its name, or its name as a tag on nothing. -/
def toNamed {α : Type} (values : List (String × α)) (v : Value) : Except DecodeError α :=
  let find (name : String) : Except DecodeError α :=
    match values.lookup name with
    | some x => .ok x
    | none => .error (.unknownVariant name (values.map (·.1)))
  match ownTag? v.target, v.target with
  | some name, .scalar _ s =>
    if s.style == .plain && (s.text.isEmpty || isNullText s.text) then find name
    else mismatch "unit"
  | none, .scalar _ s => find s.text
  | _, _ => mismatch "string or tag"

def toOption {α : Type} (read : Value → Except DecodeError α) (v : Value) :
    Except DecodeError (Option α) :=
  match v.target with
  | .scalar tag ⟨.plain, text⟩ =>
    if tag = some nullTag then
      if isNullText text then .ok none else mismatch "null"
    else if tag.isNone && (text.isEmpty || isNullText text) then .ok none
    else (read v).map some
  | _ => (read v).map some

def toList {α : Type} (read : Value → Except DecodeError α) (v : Value) :
    Except DecodeError (List α) :=
  match v.target with
  | .sequence _ xs => xs.mapM fun x => read ⟨v.anchored, x⟩
  | .scalar _ ⟨.plain, ""⟩ => .ok []
  | _ => mismatch "a sequence"

def toRecord {ρ : Type} (r : Record Value ρ) (v : Value) : Except DecodeError ρ :=
  match v.target with
  | .mapping _ entries => do
    let entries ← entries.mapM fun (k, x) => do
      return (← toText ⟨v.anchored, k⟩, (⟨v.anchored, x⟩ : Value))
    r.ofEntries entries
  | .scalar _ ⟨.plain, ""⟩ => r.ofEntries []
  | _ => mismatch r.expected

def reader : Resource.Reader Value :=
  { text := toText, word := toWord, named := toNamed, optional := toOption, list := toList
    record := toRecord }

end Value

end NodeDisks.Yaml

namespace NodeDisks

/-- The spec of a volume set from the text of its file. -/
def VolumeSetSpec.ofYaml (text : String) : Except Error VolumeSetSpec :=
  match Yaml.Document.ofText? text with
  | none => .error .yamlParse
  | some d =>
    match Yaml.Value.toRecord (Resource.specRecord Yaml.Value.reader) ⟨d.anchored, d.root⟩ with
    | .ok spec => .ok spec
    | .error _ => .error .yamlParse

end NodeDisks
