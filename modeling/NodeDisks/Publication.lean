import NodeDisks.Host.FileTree
import NodeDisks.Json.Reader
import NodeDisks.Resource

/-!
Publication of discovery results, to a file or to the cluster.
-/

/-!
## To a file

Publication to a file: a result is written beside the file first and then takes its name, so that a
reader sees either the old result or the new one.
-/

namespace NodeDisks

/-- The text of a published result. -/
def DiscoveryStatus.fileText (s : DiscoveryStatus) : String := s.toJson.pretty

/-- The path that a result is written to first. -/
def draftPath (p : Path) : Path := p.withExtension "tmp"

namespace FileTree

/-- Publishes a result to a file, and the tree after that. -/
def publish (t : FileTree) (p : Path) (s : DiscoveryStatus) : Except Error Unit × FileTree :=
  match t.write (draftPath p) s.fileText with
  | .error e => (.error (.io e), t)
  | .ok t =>
    match t.rename (draftPath p) p with
    | .error e => (.error (.io e), t)
    | .ok t => (.ok (), t)

end FileTree

end NodeDisks

/-!
## To the cluster

Publication to the cluster, in two requests: the first one makes sure that the discovery result of the
node exists as it should, the second one sets its status. A request that fails is the last one.
-/

namespace NodeDisks.Cluster

structure Request where
  method : String
  path : String
  query : List (String × String)
  contentType : String
  body : Json

structure Response where
  code : Nat
  body : String
  deriving DecidableEq, Repr

/-- How the cluster calls the program that owns the fields it sets. -/
def fieldManager : String := "diskmaker"

/-- The path of the discovery result of a node. -/
def resultPath (resultNamespace node : String) : String :=
  "/apis/" ++ Resource.apiVersion ++ "/namespaces/" ++ resultNamespace ++ "/"
    ++ Resource.discoveryNames.plural ++ "/" ++ Resource.discoveryResultName node

/-- Declares the discovery result of a node, labelled with the node. -/
def declare (resultNamespace node : String) : Request :=
  { method := "PATCH"
    path := resultPath resultNamespace node
    query := [("fieldManager", fieldManager), ("force", "true")]
    contentType := "application/apply-patch+yaml"
    body := Resource.discoveryResult
      ⟨Resource.discoveryResultName node, [(Resource.nodeLabel, node)]⟩ ⟨node⟩ none }

/-- Sets the status of the discovery result of a node. -/
def setStatus (resultNamespace node : String) (status : DiscoveryStatus) : Request :=
  { method := "PATCH"
    path := resultPath resultNamespace node ++ "/status"
    query := []
    contentType := "application/merge-patch+json"
    body := .object [("status", status.toJson)] }

def requests (resultNamespace node : String) (status : DiscoveryStatus) : List Request :=
  [declare resultNamespace node, setStatus resultNamespace node status]

/-- The character may stand in the path of a request. -/
def isPathChar (c : Char) : Bool :=
  let n := c.toNat
  0x21 ≤ n && n ≤ 0x7E && !(['#', '<', '>', '?', Char.ofNat 0x60].contains c)

/-- The code and reason in the body of a refusal. -/
def refusalRecord : Record Json (Nat × String) :=
  { name := "ErrorResponse"
    fields := [
      Resource.required "status" Json.toText fun _ x => x,
      Resource.optional "message" Json.toText fun _ x => x,
      Resource.optional "reason" Json.toText fun s x => (x.1, s),
      Resource.required "code" Json.toHalfWord fun n x => (n.toNat, x.2)]
    draft := (0, "") }

/-- What a refusal says; the code of the response has to do when its body says nothing. -/
def refusal (r : Response) : ApiFailure :=
  match (Json.parse? r.body).map refusalRecord.ofJson with
  | some (.ok (code, reason)) =>
    if code < UInt16.size then .status code reason else unexplained
  | _ => unexplained
where
  unexplained : ApiFailure := .status r.code "Failed to parse error data"

/-- The response refuses its request. -/
def Response.refuses (r : Response) : Bool := 400 ≤ r.code && r.code < 600

/-- A response is good if it holds a discovery result. -/
def Response.check (r : Response) : Except Error Unit :=
  if r.refuses then .error (.api (refusal r))
  else
    match (Json.parse? r.body).map Resource.discoveryResultRecord.ofJson with
    | some (.ok _) => .ok ()
    | _ => .error (.api .unreadableAnswer)

/-- Sends requests up to the first that fails, and says which were sent. The response to a request
hangs on how many came before it. -/
def exchange (respond : Nat → Response) : (before : Nat) → List Request → Except Error Unit × List Request
  | _, [] => (.ok (), [])
  | before, q :: qs =>
    if !q.path.toList.all isPathChar then (.error (.api .unreadableAnswer), [])
    else
      match (respond before).check with
      | .error e => (.error e, [q])
      | .ok () =>
        let (result, sent) := exchange respond (before + 1) qs
        (result, q :: sent)

/-- Publishes the status of a node. -/
def publish (respond : Nat → Response) (resultNamespace node : String) (status : DiscoveryStatus) :
    Except Error Unit × List Request :=
  exchange respond 0 (requests resultNamespace node status)

end NodeDisks.Cluster
