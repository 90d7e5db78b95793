import HollowFleet.Cluster.Outcome
import HollowFleet.Cluster.Reply
import HollowFleet.Json.Reader
import HollowFleet.Text.Quoted
import HollowFleet.Uri

/-!
# Calls over HTTP

How a call travels: the request that it becomes (`Call.request?`) and what is made of the
response (`Call.read`). Nodes belong to the whole cluster, pods to their namespace, and leases
to the namespace that the client was told, whatever the object says.

A response with an error status carries the cluster's refusal in its body. If it does not, the
refusal is made up from the response: the status line, and the body as a quoted text.

## What is sent

A creation sends the object to the place where such objects are kept; all other calls are about one
object and name it in the path, so that without a name nothing is sent and the call fails at once.
Deletions carry the identity of the pod as a condition, so that another pod of its name is left
alone. The status of a pod is written as a patch that has the status alone, while a lease is
replaced as a whole, with the version that was fetched.

## What is read

Of a response with a good status only the object is read that the call asks for. A body that is no
such object is a fault without an answer, since it cannot be told what was done. How the connection
is made, and who may use it, is not modelled.
-/

namespace HollowFleet

open Json

namespace Http

/-- A request. -/
structure Request where
  /-- What is to be done. -/
  method : String
  /-- The path. -/
  path : String
  /-- The query, without its question mark. -/
  query : String
  /-- The format of the body; empty without one. -/
  contentType : String
  /-- The body. -/
  body : Option Json

/-- A response. -/
structure Response where
  /-- The status. -/
  status : Nat
  /-- The body. -/
  body : String

/-! ### Paths -/

/-- Where the nodes are. -/
def nodesPath : String := "/api/v1/nodes"

/-- Where the pods of a namespace are. -/
def podsPath (space : String) : String := "/api/v1/namespaces/" ++ space ++ "/pods"

/-- Where the leases of a namespace are. -/
def leasesPath (space : String) : String :=
  "/apis/coordination.k8s.io/v1/namespaces/" ++ space ++ "/leases"

/-! ### Statuses -/

/-- What the statuses of errors mean. -/
def phrases : List (Nat × String) :=
  [(400, "Bad Request"), (401, "Unauthorized"), (402, "Payment Required"), (403, "Forbidden"),
    (404, "Not Found"), (405, "Method Not Allowed"), (406, "Not Acceptable"),
    (407, "Proxy Authentication Required"), (408, "Request Timeout"), (409, "Conflict"),
    (410, "Gone"), (411, "Length Required"), (412, "Precondition Failed"),
    (413, "Payload Too Large"), (414, "URI Too Long"), (415, "Unsupported Media Type"),
    (416, "Range Not Satisfiable"), (417, "Expectation Failed"), (418, "I'm a teapot"),
    (421, "Misdirected Request"), (422, "Unprocessable Entity"), (423, "Locked"),
    (424, "Failed Dependency"), (425, "Too Early"), (426, "Upgrade Required"),
    (428, "Precondition Required"), (429, "Too Many Requests"),
    (431, "Request Header Fields Too Large"), (451, "Unavailable For Legal Reasons"),
    (500, "Internal Server Error"), (501, "Not Implemented"), (502, "Bad Gateway"),
    (503, "Service Unavailable"), (504, "Gateway Timeout"), (505, "HTTP Version Not Supported"),
    (506, "Variant Also Negotiates"), (507, "Insufficient Storage"), (508, "Loop Detected"),
    (510, "Not Extended"), (511, "Network Authentication Required")]

/-- A status with its meaning. -/
def statusLine (status : Nat) : String :=
  toString status ++ " " ++ (phrases.lookup status).getD "<unknown status code>"

/-- Whether a status is an error. -/
def isError (status : Nat) : Bool := decide (400 ≤ status) && decide (status < 600)

/-! ### Bodies -/

/-- The refusal in a response with an error status. -/
def refusal (r : Response) : Refusal :=
  ((Json.parse? r.body).bind Refusal.ofJson?).getD
    { status := statusLine r.status
      message := Text.quoted r.body
      reason := "Failed to parse error data"
      code := r.status }

/-- Whether a value is what a deletion of a pod is answered with: the pod, or an outcome. It
has to be sound as a whole. -/
def isDeletion (j : Json) : Bool :=
  j.isSound &&
    match (occurrences j.members "kind").getLast? with
    | some (.text "Status") => isOutcome j
    | _ => (Pod.ofJson? j).isSome

end Http

namespace Call

open Http

/-- The namespace of a pod's requests. -/
def podSpace (pod : Pod) : String := pod.metadata.space.getD "default"

/-- The body of a deletion: the grace period, and the identity of the pod that is meant. -/
def deletionBody (pod : Pod) (grace : Nat) : Json :=
  .object <|
    [("gracePeriodSeconds", .nat grace)] ++
    Json.optional "preconditions" (pod.metadata.uid.map fun uid ↦ .object [("uid", .text uid)])

/-- Where a call is directed. -/
def location (leaseSpace : String) : Call → String
  | getNode name => nodesPath ++ "/" ++ name
  | createNode _ => nodesPath
  | getLease node => leasesPath leaseSpace ++ "/" ++ node
  | createLease _ => leasesPath leaseSpace
  | updateLease lease => leasesPath leaseSpace ++ "/" ++ lease.name
  | updatePodStatus pod => podsPath (podSpace pod) ++ "/" ++ pod.metadata.displayName ++ "/status"
  | deletePod pod _ => podsPath (podSpace pod) ++ "/" ++ pod.metadata.displayName

/-- The method of a call, and the format and content of its body. -/
def content : Call → String × String × Option Json
  | getNode _ => ("GET", "", none)
  | createNode node => ("POST", "application/json", some node.toJson)
  | getLease _ => ("GET", "", none)
  | createLease lease => ("POST", "application/json", some lease.toJson)
  | updateLease lease => ("PUT", "application/json", some lease.toJson)
  | updatePodStatus pod =>
    ("PATCH", "application/merge-patch+json",
      some (.object [("status", (pod.status.map PodStatus.toJson).getD .null)]))
  | deletePod pod grace => ("DELETE", "application/json", some (deletionBody pod grace))

/-- Whether a call only looks something up. -/
def isLookup : Call → Bool
  | getNode _ => true
  | getLease _ => true
  | _ => false

/-- The request that a call becomes. An object without a name has no path, and neither has
one whose name cannot stand in a path. A look-up has no parameters; every other call leaves
room for some. -/
def request? (leaseSpace : String) (c : Call) : Option Request :=
  if c.needsName && decide (c.target = "") then none
  else
    let parameters := if c.isLookup then "" else "?"
    (Uri.target? (c.location leaseSpace ++ parameters).toList).map fun parts ↦
      let (method, contentType, body) := c.content
      { method, path := parts.1, query := parts.2, contentType, body }

/-- What a response that is no error answers to a call. -/
def answer? (body : Json) : (c : Call) → Option c.Answer
  | getNode _ => (Node.ofJson? body).map some
  | createNode _ => (Node.ofJson? body).map fun _ ↦ ()
  | getLease _ => (Lease.ofJson? body).map some
  | createLease _ => (Lease.ofJson? body).map fun _ ↦ ()
  | updateLease _ => (Lease.ofJson? body).map fun _ ↦ ()
  | updatePodStatus _ => (Pod.ofJson? body).map fun _ ↦ ()
  | deletePod _ _ => if isDeletion body then some () else none

/-- What is made of the response to a call. -/
def read (c : Call) (r : Response) : c.Reply :=
  if isError r.status then c.settle (.refused (refusal r))
  else match (Json.parse? r.body).bind fun body ↦ c.answer? body with
    | some a => .ok a
    | none => .error .unanswered

end Call

end HollowFleet
