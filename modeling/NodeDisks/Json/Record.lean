import NodeDisks.Json.Basic
import NodeDisks.Text
import NodeDisks.Text.Quoted

/-!
## Faults

Why a JSON value is not a value of the expected type, and the wording of each cause.
-/

namespace NodeDisks

/-- What stands in the place of something else. -/
inductive Json.Found where
  | value (j : Json)
  /-- The bare name of a variant that carries fields. -/
  | unitVariant
  /-- A node of a tree other than JSON. -/
  | node

/-- Names the kind of a value, and its content where that is short. -/
def Json.Found.describe : Json.Found → String
  | .value .null => "null"
  | .value (.bool b) => "boolean `" ++ (if b then "true" else "false") ++ "`"
  | .value (.number (.natural n)) => "integer `" ++ Text.decimal n.toNat ++ "`"
  | .value (.number (.negative m)) => "integer `-" ++ Text.decimal m ++ "`"
  | .value (.number (.real x)) => "floating point `" ++ String.ofList x.compact ++ "`"
  | .value (.text s) => "string " ++ Text.quoted s
  | .value (.array _) => "sequence"
  | .value (.object _) => "map"
  | .unitVariant => "unit variant"
  | .node => "node"

inductive DecodeError where
  | invalidType (found : Json.Found) (expected : String)
  | invalidValue (found : Json.Found) (expected : String)
  | missingField (name : String)
  | duplicateField (name : String)
  | unknownVariant (name : String) (variants : List String)
  | invalidLength (length : Nat) (expected : String)
  /-- A flag column with a text other than `0` and `1`. -/
  | flagText (s : String)
  | flagShape (j : Json)
  /-- A size column with a number that is no natural number of 64 bits. -/
  | sizeNumber (n : Json.Number)
  | sizeText (s : String)
  | sizeShape (j : Json)

namespace DecodeError

/-- The names that would have been right, each between backquotes. -/
def expectedNames : List String → String
  | [] => "there are no variants"
  | [a] => "expected `" ++ a ++ "`"
  | [a, b] => "expected `" ++ a ++ "` or `" ++ b ++ "`"
  | names => "expected one of " ++ ", ".intercalate (names.map fun n => "`" ++ n ++ "`")

def message : DecodeError → String
  | invalidType found expected => "invalid type: " ++ found.describe ++ ", expected " ++ expected
  | invalidValue found expected => "invalid value: " ++ found.describe ++ ", expected " ++ expected
  | missingField name => "missing field `" ++ name ++ "`"
  | duplicateField name => "duplicate field `" ++ name ++ "`"
  | unknownVariant name variants => "unknown variant `" ++ name ++ "`, " ++ expectedNames variants
  | invalidLength length expected =>
    "invalid length " ++ Text.decimal length ++ ", expected " ++ expected
  | flagText s => "lsblk bool value not 0 or 1: " ++ Text.quoted s
  | flagShape j => "unexpected bool value " ++ j.compact
  | sizeNumber n => "invalid size " ++ String.ofList n.render
  | sizeText s => "invalid size " ++ Text.quoted s
  | sizeShape j => "unexpected size value " ++ j.compact

end DecodeError

/-- Value `j` is of another kind than `expected` names. -/
def Json.mismatch {α : Type} (j : Json) (expected : String) : Except DecodeError α :=
  .error (.invalidType (.value j) expected)

/-!
## Records

Reading records. A record is described by its fields: the key of each, other spellings of the key,
whether it may be absent, and how a value is put into a draft of the record.

The entries of an object are taken in their order, and the first fault wins: a field that comes
twice, or a value that does not fit. Unknown keys are passed over. Absent fields keep what the draft
holds, and of the required ones the first absent one is reported. A record written as an array gives
its fields in their order; trailing ones that need no value may be left out.

The values are of any type `V`, so that a tree with more at its nodes than JSON is read alike.
-/

/-- One field of a record `ρ` with values from `V`. -/
structure Field (V ρ : Type) where
  key : String
  aliases : List String
  required : Bool
  read : V → ρ → Except DecodeError ρ

/-- The key is one of the spellings of the field. -/
def Field.answersTo {V ρ : Type} (f : Field V ρ) (key : String) : Bool :=
  f.key == key || f.aliases.contains key

/-- A record type by its fields, with a draft that holds the values of absent fields. -/
structure Record (V ρ : Type) where
  name : String
  fields : List (Field V ρ)
  draft : ρ

namespace Record

variable {V ρ : Type}

/-- Takes the entries in order; `seen` are the keys of the fields already read. -/
def readEntries (fields : List (Field V ρ)) :
    List (String × V) → (seen : List String) → ρ → Except DecodeError (List String × ρ)
  | [], seen, x => .ok (seen, x)
  | (key, v) :: rest, seen, x =>
    match fields.find? (·.answersTo key) with
    | none => readEntries fields rest seen x
    | some f =>
      if seen.contains f.key then .error (.duplicateField f.key)
      else match f.read v x with
        | .error e => .error e
        | .ok x => readEntries fields rest (f.key :: seen) x

def ofEntries (r : Record V ρ) (entries : List (String × V)) : Except DecodeError ρ :=
  match readEntries r.fields entries [] r.draft with
  | .error e => .error e
  | .ok (seen, x) =>
    match r.fields.find? fun f => f.required && !seen.contains f.key with
    | some f => .error (.missingField f.key)
    | none => .ok x

/-- The wording of the whole record, with the number of its fields. -/
def described (r : Record V ρ) : String :=
  "struct " ++ r.name ++ " with " ++ Text.decimal r.fields.length
    ++ (if r.fields.length = 1 then " element" else " elements")

/-- Takes a value for each field in turn. `given` is the number of values there were at first, and
`place` the number of fields already dealt with. -/
def readElements (r : Record V ρ) (given : Nat) :
    (place : Nat) → List (Field V ρ) → List V → ρ → Except DecodeError ρ
  | _, [], [], x => .ok x
  | _, [], _ :: _, _ => .error (.invalidLength given "fewer elements in array")
  | place, f :: fs, [], x =>
    if f.required then .error (.invalidLength place r.described)
    else readElements r given (place + 1) fs [] x
  | place, f :: fs, v :: vs, x =>
    match f.read v x with
    | .error e => .error e
    | .ok x => readElements r given (place + 1) fs vs x

def ofElements (r : Record V ρ) (elements : List V) : Except DecodeError ρ :=
  readElements r elements.length 0 r.fields elements r.draft

/-- What a value of another kind is compared with. -/
def expected (r : Record V ρ) : String := "struct " ++ r.name

def ofJson (r : Record Json ρ) : Json → Except DecodeError ρ
  | .object entries => r.ofEntries entries
  | .array elements => r.ofElements elements
  | j => j.mismatch r.expected

end Record

namespace Json

/-! ### Values of fields -/

def toText : Json → Except DecodeError String
  | .text s => .ok s
  | j => j.mismatch "a string"

def toWord : Json → Except DecodeError UInt64
  | .number (.natural n) => .ok n
  | .number (.negative m) => .error (.invalidValue (.value (.number (.negative m))) "u64")
  | j => j.mismatch "u64"

def toHalfWord : Json → Except DecodeError UInt32
  | .number (.natural n) =>
    if n.toNat < UInt32.size then .ok (UInt32.ofNat n.toNat)
    else .error (.invalidValue (.value (.number (.natural n))) "u32")
  | .number (.negative m) => .error (.invalidValue (.value (.number (.negative m))) "u32")
  | j => j.mismatch "u32"

/-- A value that may be missing: `null` stands for nothing. -/
def toOption {α : Type} (read : Json → Except DecodeError α) : Json → Except DecodeError (Option α)
  | .null => .ok none
  | j => (read j).map some

def toList {α : Type} (read : Json → Except DecodeError α) : Json → Except DecodeError (List α)
  | .array xs => xs.mapM read
  | j => j.mismatch "a sequence"

/-- A map from text to text, in the order of its entries. -/
def toTextMap : Json → Except DecodeError (List (String × String))
  | .object entries => entries.mapM fun (k, v) => v.toText.map fun s => (k, s)
  | j => j.mismatch "a map"

/-- A variant: a bare name, or an object with the name as its only key. -/
def toVariant : Json → Except DecodeError (String × Option Json)
  | .text name => .ok (name, none)
  | .object [(name, payload)] => .ok (name, some payload)
  | .object entries => .error (.invalidValue (.value (.object entries)) "map with a single key")
  | j => j.mismatch "string or map"

/-- One of the named values. Under its name as a key stands `null`, if anything. -/
def toNamed {α : Type} (values : List (String × α)) (j : Json) : Except DecodeError α :=
  match j.toVariant with
  | .error e => .error e
  | .ok (name, payload) =>
    match values.lookup name with
    | none => .error (.unknownVariant name (values.map (·.1)))
    | some x =>
      match payload with
      | none | some .null => .ok x
      | some p => p.mismatch "unit"

end Json

end NodeDisks
