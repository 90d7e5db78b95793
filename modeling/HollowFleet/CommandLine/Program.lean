import HollowFleet.Agent.Dispatch
import HollowFleet.CommandLine.Kubeconfig
import HollowFleet.CommandLine.Options

/-!
# The program

From arguments, environment and files to the end of the program. The steps are taken in this
order, and the first that fails ends it: the options are read, the tracing is set up, the
settings are checked, the cluster is looked up, and the fleet is registered there.

The order is part of what the program does, for only the first fault is told: a kubeconfig is not
read before the settings are right, and neither of them is looked at if the spans have nowhere to
go. Each way to fail is a `Failure`; its words are those that the program shows, and those of a
library are left out (`message?`).

Files and variables are arguments here. What is read from the system is up to the outermost layer.
-/

namespace HollowFleet.CommandLine

/-- Why the program failed. -/
inductive Failure where
  /-- Spans cannot be sent where they should. -/
  | tracing
  /-- The agent refused its settings, or the cluster failed. -/
  | fault (cause : Fault)
  /-- The kubeconfig cannot be read. -/
  | unreadableKubeconfig
  /-- The kubeconfig does not lead to a cluster. -/
  | unusableKubeconfig
  /-- The first call had no scheme, and was given up without a word. -/
  | schemelessServer
deriving DecidableEq, Repr

/-- The failure in words, if it is reported. -/
def Failure.message? : Failure → Option String
  | tracing => some "failed to initialize tracer"
  | fault cause => some cause.message
  | unreadableKubeconfig => some "validation error: failed to read"
  | unusableKubeconfig => some "validation error"
  | schemelessServer => none

/-- How the program ends. -/
inductive Ending where
  | help
  | version
  /-- The command line cannot be understood. -/
  | misuse
  | failed (cause : Failure)
  /-- No buffer can be as large as the options want it. -/
  | overcommitted
  | stopped
deriving DecidableEq, Repr

namespace Ending

/-- The exit status. -/
def status : Ending → Nat
  | help => 0
  | version => 0
  | misuse => 2
  | failed _ => 1
  | overcommitted => 101
  | stopped => 0

/-- The failure in words, if there is one that is reported. -/
def message? : Ending → Option String
  | failed cause => cause.message?
  | _ => none

end Ending

/-- The program's name and version. -/
def versionLine : String := "kubesim-agent 0.1.0"

/-- The files that can be read. -/
abbrev Files := String → Option String

/-! ### The cluster -/

/-- What the identifier of the server consists of. Without a kubeconfig there is no server, and
none behind a proxy is reached. -/
def connect (files : Files) (environment : Options.Environment) (kubeconfig : Option String) :
    Except Failure Uri.Form :=
  match kubeconfig with
  | none => .error (.fault .unanswered)
  | some path =>
    match (files path).bind Kubeconfig.parse? with
    | none => .error .unreadableKubeconfig
    | some k =>
      match k.connection? environment with
      | none => .error .unusableKubeconfig
      | some connection =>
        if connection.proxied then .error (.fault .unanswered) else .ok connection.server

/-- A host without a connection: no call is answered, and no queue takes a pod. -/
def disconnected : Host Agent Unit where
  call _ agent _ := .resumed agent () (.error .unanswered)
  submit _ agent _ _ := .resumed agent () false

/-- Registers the fleet. -/
def register {ε : Type} (host : Host Agent ε) (world : ε) (agent : Agent) : Except Failure Unit :=
  match (Task.run host world agent Agent.bootstrap.run).result with
  | some (.error fault) => .error (.fault fault)
  | _ => .ok ()

/-! ### The steps -/

/-- Whether the tracing can be set up. Without a collector there is nothing to do; with one,
spans are sent as they are, so they cannot be compressed. -/
def canTrace (environment : Options.Environment) (o : Options) : Bool :=
  match o.spanCollector? environment with
  | none => true
  | some url => Uri.isValid url && !Options.wantsCompression environment

/-- The greatest number of events or pods that a buffer can hold. -/
def greatestBuffer : Nat := 2305843009213693951

/-- Registers the fleet with a server. A call is sent only if its address is a path or has a
scheme. -/
def attend (agent : Agent) : Uri.Form → Ending
  | .star => .failed .schemelessServer
  | .authority => .failed .schemelessServer
  | _ =>
    match register disconnected () agent with
    | .ok _ => .stopped
    | .error cause => .failed cause

/-- Does what the options say, up to the registration of the fleet. -/
def start (files : Files) (environment : Options.Environment) (clock : Timestamp) (o : Options) :
    Except Failure Ending := do
  unless canTrace environment o do throw .tracing
  o.settings.check.mapError .fault
  let server ← connect files environment o.kubeconfig
  if greatestBuffer < o.settings.queueCapacity then return .overcommitted
  return attend (.initial o.settings clock) server

/-- Runs the program. -/
def run (files : Files) (environment : Options.Environment) (clock : Timestamp)
    (arguments : List String) : Ending :=
  match Options.read arguments environment with
  | .help => .help
  | .version => .version
  | .misuse => .misuse
  | .run o =>
    match start files environment clock o with
    | .ok ending => ending
    | .error cause => .failed cause

end HollowFleet.CommandLine
