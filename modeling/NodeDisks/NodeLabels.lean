import NodeDisks.Resource

/-!
The labels of a node: reading them from text such as `zone=a,disks=4`, and testing a selector on them.

Terms of a selector are tried in order up to the first that holds; the requirements of a term up to
the first that fails. A bound that is not one integer is a fault when it is reached.
-/

namespace NodeDisks

/-- Labels with their values; of two entries for a label the first counts. -/
abbrev NodeLabels := List (String × String)

namespace NodeLabels

/-- One label; both sides of the first equals sign lose the blanks around them. -/
def binding? (part : List Char) : Except Error (String × String) :=
  match Text.splitOnce '=' part with
  | none => .error (.configuration (.labelForm (String.ofList part)))
  | some (key, value) =>
    if (Text.strip key).isEmpty then .error (.configuration (.labelKey (String.ofList part)))
    else .ok (String.ofList (Text.strip key), String.ofList (Text.strip value))

/-- The pieces between commas, without blanks around them and without the empty ones. -/
def parts (s : String) : List (List Char) :=
  ((s.toList.splitOn ',').map Text.strip).filter fun part => !part.isEmpty

/-- Reads labels. The last entry of a label counts, so it comes first. -/
def parse (s : String) : Except Error NodeLabels :=
  ((parts s).mapM binding?).map List.reverse

end NodeLabels

namespace Requirement

/-- The one value of a bound, as an integer. -/
def bound (r : Requirement) : Except Error Int :=
  match r.values with
  | [value] =>
    match Text.signedWord? value.toList with
    | some n => .ok n
    | none => .error (.configuration (.boundText r.key value))
  | values => .error (.configuration (.boundCount r.operator.name r.key values.length))

/-- The value of a label, as an integer. -/
def labelNumber (label : Option String) : Option Int :=
  label.bind fun value => Text.signedWord? value.toList

def holds (labels : NodeLabels) (r : Requirement) : Except Error Bool :=
  let label := labels.lookup r.key
  match r.operator with
  | .isIn => .ok (match label with
    | some value => r.values.contains value
    | none => false)
  | .notIn => .ok (match label with
    | some value => !r.values.contains value
    | none => true)
  | .present => .ok label.isSome
  | .absent => .ok label.isNone
  | .greater => r.bound.map fun bound =>
    match labelNumber label with
    | some n => bound < n
    | none => false
  | .less => r.bound.map fun bound =>
    match labelNumber label with
    | some n => n < bound
    | none => false

/-- All requirements hold, tried in order. -/
def allHold (labels : NodeLabels) : List Requirement → Except Error Bool
  | [] => .ok true
  | r :: rs =>
    match r.holds labels with
    | .error e => .error e
    | .ok false => .ok false
    | .ok true => allHold labels rs

end Requirement

namespace NodeSelector

/-- A term without requirements holds nowhere. -/
def termHolds (labels : NodeLabels) (t : SelectorTerm) : Except Error Bool :=
  if t.requirements.isEmpty then .ok false else Requirement.allHold labels t.requirements

def anyHolds (labels : NodeLabels) : List SelectorTerm → Except Error Bool
  | [] => .ok false
  | t :: ts =>
    match termHolds labels t with
    | .error e => .error e
    | .ok true => .ok true
    | .ok false => anyHolds labels ts

/-- The selector picks a node with these labels; without a selector every node is picked. -/
def picks (labels : NodeLabels) : Option NodeSelector → Except Error Bool
  | none => .ok true
  | some s => anyHolds labels s.terms

end NodeSelector

end NodeDisks
