import HollowFleet.Uri
import HollowFleet.Yaml.Alias
import HollowFleet.Yaml.Decode

/-!
# Kubeconfigs

Where clusters are and who may talk to them. A context joins a cluster and a user, and the
current context says which of them to take (`Kubeconfig.currentCluster?`). A user that is not
declared has no credentials. Several documents count as one: what the first leaves open is
taken from the next.

A proxy stands in front of the server if the cluster names one, or else the environment
(`Kubeconfig.connection?`).

Reading checks more than it keeps. Every known field has to have the right kind, those of users,
extensions and preferences included, or else the file as a whole cannot be read; what is kept is the
server and the proxy of each cluster, the cluster of each context, and which context is current. A
file that can be read may still lead nowhere, and that is found out only when it is used: a context
or a cluster that is not declared, a server that is missing or is no identifier. The two are
different faults.
-/

namespace HollowFleet

open Yaml

/-- A cluster of a kubeconfig. -/
structure Kubeconfig.Cluster where
  /-- Where its server is. -/
  server : Option String
  /-- Where the proxy in front of it is. -/
  proxy : Option String

/-- A kubeconfig. What is named may be declared without a content. Users are not kept, because
no call depends on them. -/
structure Kubeconfig where
  /-- The format's name. -/
  kind : Option String := none
  /-- The format's version. -/
  version : Option String := none
  /-- The clusters, by name. -/
  clusters : List (String × Option Kubeconfig.Cluster) := []
  /-- The contexts, by name: the cluster of each. -/
  contexts : List (String × Option String) := []
  /-- The name of the current context. -/
  current : Option String := none

namespace Kubeconfig

/-! ### Reading -/

/-- Whether every field of a list of names is absent, nothing, or can be decoded. -/
def wellTyped {α : Type} (decode : Value → Option α) (ms : List (String × Value))
    (names : List String) : Bool :=
  names.all fun name ↦ (Value.optional? decode ms name).isSome

/-- An extension, which may hold anything but tags. -/
def extension? (v : Value) : Option Unit := do
  let ms ← v.fields?
  let _ ← Value.required? Value.text? ms "name"
  let _ ← Value.required? Value.simple? ms "extension"

/-- Whether the extensions are absent or well formed. -/
def extensible (ms : List (String × Value)) : Bool :=
  wellTyped (Value.list? extension?) ms ["extensions"]

/-- A thing with a name, whose content is the field `content`. -/
def named? {α : Type} (decode : Value → Option α) (content : String) (v : Value) :
    Option (String × Option α) := do
  let ms ← v.fields?
  let name ← Value.required? Value.text? ms "name"
  let value ← Value.optional? decode ms content
  return (name, value)

/-- A list of things with names, which may be absent. -/
def namedList? {α : Type} (decode : Value → Option α) (content : String)
    (ms : List (String × Value)) (name : String) : Option (List (String × Option α)) :=
  (Value.optional? (Value.list? (named? decode content)) ms name).map fun things ↦ things.getD []

/-- Decodes a cluster. -/
def cluster? (v : Value) : Option Cluster := do
  let ms ← v.fields?
  let server ← Value.optional? Value.text? ms "server"
  let proxy ← Value.optional? Value.text? ms "proxy-url"
  guard (wellTyped Value.text? ms
    ["certificate-authority", "certificate-authority-data", "tls-server-name"])
  guard (wellTyped Value.bool? ms ["insecure-skip-tls-verify", "disable-compression"])
  guard (extensible ms)
  return { server, proxy }

/-- Decodes the provider of a user's credentials. -/
def provider? (v : Value) : Option Unit := do
  let ms ← v.fields?
  let _ ← Value.required? Value.text? ms "name"
  let _ ← Value.present? Value.dictionary? ms "config"

/-- When a command may ask its user something. -/
def interaction? (v : Value) : Option Unit := do
  let name ← match v with
    | .text name => some name
    | .tagged name .null => some name
    | _ => none
  guard (["Never", "IfAvailable", "Always"].contains name)

/-- Decodes the command that yields a user's credentials. -/
def command? (v : Value) : Option Unit := do
  let ms ← v.fields?
  guard (wellTyped Value.text? ms ["apiVersion", "command"])
  guard (wellTyped (Value.list? Value.text?) ms ["args"])
  guard (wellTyped (Value.list? Value.dictionary?) ms ["env"])
  guard (wellTyped interaction? ms ["interactiveMode"])
  let _ ← Value.present? Value.bool? ms "provideClusterInfo"

/-- Decodes a user. -/
def user? (v : Value) : Option Unit := do
  let ms ← v.fields?
  guard (wellTyped Value.text? ms
    ["username", "password", "token", "tokenFile", "client-certificate",
      "client-certificate-data", "client-key", "client-key-data", "as"])
  guard (wellTyped (Value.list? Value.text?) ms ["as-groups"])
  guard (wellTyped provider? ms ["auth-provider"])
  guard (wellTyped command? ms ["exec"])

/-- Decodes a context: the name of its cluster. -/
def context? (v : Value) : Option String := do
  let ms ← v.fields?
  let cluster ← Value.required? Value.text? ms "cluster"
  guard (wellTyped Value.text? ms ["user", "namespace"])
  guard (extensible ms)
  return cluster

/-- Decodes preferences. -/
def preferences? (v : Value) : Option Unit := do
  let ms ← v.fields?
  guard (wellTyped Value.bool? ms ["colors"])
  guard (extensible ms)

/-- Decodes one document. -/
def ofValue? (v : Value) : Option Kubeconfig := do
  let ms ← v.fields?
  let kind ← Value.optional? Value.text? ms "kind"
  let version ← Value.optional? Value.text? ms "apiVersion"
  let clusters ← namedList? cluster? "cluster" ms "clusters"
  let _ ← namedList? user? "user" ms "users"
  let contexts ← namedList? context? "context" ms "contexts"
  let current ← Value.optional? Value.text? ms "current-context"
  guard (wellTyped preferences? ms ["preferences"])
  guard (extensible ms)
  return { kind, version, clusters, contexts, current }

/-- Whether two declarations of the same thing contradict each other. -/
def clash (a b : Option String) : Bool :=
  match a, b with
  | some x, some y => decide (x ≠ y)
  | _, _ => false

/-- Two kubeconfigs as one. The first to declare a name counts. -/
def merge (a b : Kubeconfig) : Option Kubeconfig :=
  if clash a.kind b.kind || clash a.version b.version then none
  else some
    { kind := a.kind.or b.kind
      version := a.version.or b.version
      clusters := a.clusters ++ b.clusters
      contexts := a.contexts ++ b.contexts
      current := a.current.or b.current }

/-- Reads a kubeconfig. A text without a document declares nothing. -/
def parse? (source : String) : Option Kubeconfig := do
  let documents ← Yaml.parse? source
  let parts ← documents.mapM ofValue?
  parts.foldlM merge {}

/-! ### Choice -/

/-- The cluster of the current context, if there is one. -/
def currentCluster? (k : Kubeconfig) : Option Cluster := do
  let name ← k.current
  let cluster ← (k.contexts.lookup name).join
  (k.clusters.lookup cluster).join

/-- The variables of the environment that name a proxy; the first that is not empty counts. -/
def proxyVariables : List String := ["HTTP_PROXY", "http_proxy", "HTTPS_PROXY", "https_proxy"]

/-- The proxy in front of a cluster. -/
def Cluster.proxy? (c : Cluster) (environment : List (String × String)) : Option String :=
  ((c.proxy :: proxyVariables.map fun name ↦ environment.lookup name).filterMap id).find? fun p ↦
    decide (p ≠ "")

/-- How the server of a cluster is reached. -/
structure Connection where
  /-- What the identifier of the server consists of. -/
  server : Uri.Form
  /-- Whether there is a proxy in front of it. -/
  proxied : Bool
deriving DecidableEq, Repr

/-- How to reach the server of the current context; nothing if the kubeconfig cannot be used. -/
def connection? (k : Kubeconfig) (environment : List (String × String)) : Option Connection := do
  let cluster ← k.currentCluster?
  let server ← cluster.server.bind Uri.form?
  let proxy := cluster.proxy? environment
  guard ((proxy.map Uri.isValid).getD true)
  return { server, proxied := proxy.isSome }

end Kubeconfig

end HollowFleet
