import HollowFleet.Settings
import HollowFleet.Text.Numeral
import HollowFleet.Text.Split

/-!
# Options

What the command line and the environment say. Arguments are taken from left to right, and
the first that asks for help or for the version, or that cannot be understood, decides
(`Options.read`). An option may occur once. The environment counts for what the arguments
leave open.

An argument is classified first (`token`) and given its meaning then (`readFrom`), so the recursion
has one case for each class. Values are checked where they are given: a number that is out of range
is a misuse, while a number that the agent cannot run with is left to its own check of the settings.
`give_of_has` says that no option can be given twice, and `has_of_set` that one which was given is
not asked of the environment again.

An option that stays open has the usual setting. The one size of buffers settles both the channels
of events and the queues of pods.
-/

namespace HollowFleet.CommandLine

open Text

/-- The options that take a value. -/
inductive Item where
  /-- The number of nodes. -/
  | nodes
  /-- The file that says where the cluster is. -/
  | kubeconfig
  /-- The namespace of the leases. -/
  | leaseSpace
  /-- Seconds between two renewals of a lease. -/
  | renewInterval
  /-- The number of events and pods that may wait. -/
  | bufferSize
  /-- Where spans are sent. -/
  | collector
deriving DecidableEq, Repr

namespace Item

/-- Every option. -/
def all : List Item := [nodes, kubeconfig, leaseSpace, renewInterval, bufferSize, collector]

/-- The name of an option on the command line. -/
def name : Item → String
  | nodes => "nodes"
  | kubeconfig => "kubeconfig"
  | leaseSpace => "lease-namespace"
  | renewInterval => "lease-renew-interval-secs"
  | bufferSize => "buffer-size"
  | collector => "otlp-endpoint"

/-- The variable of the environment that stands in for an option. -/
def standIn? : Item → Option String
  | nodes => some "KUBESIM_NODES"
  | kubeconfig => some "KUBECONFIG"
  | leaseSpace => some "KUBESIM_LEASE_NAMESPACE"
  | renewInterval => none
  | bufferSize => none
  | collector => some "OTEL_EXPORTER_OTLP_ENDPOINT"

/-- The option of a name. -/
def ofName? (name : String) : Option Item := all.find? fun i ↦ decide (i.name = name)

end Item

/-- What was said. -/
structure Options where
  /-- The number of nodes. -/
  nodes : Option Nat := none
  /-- The file that says where the cluster is. -/
  kubeconfig : Option String := none
  /-- The namespace of the leases. -/
  leaseSpace : Option String := none
  /-- Seconds between two renewals of a lease. -/
  renewSeconds : Option Nat := none
  /-- The number of events and pods that may wait. -/
  bufferSize : Option Nat := none
  /-- Where spans are sent. -/
  collector : Option String := none
deriving DecidableEq, Repr

namespace Options

/-- Whether an option was given. -/
def has (o : Options) : Item → Bool
  | .nodes => o.nodes.isSome
  | .kubeconfig => o.kubeconfig.isSome
  | .leaseSpace => o.leaseSpace.isSome
  | .renewInterval => o.renewSeconds.isSome
  | .bufferSize => o.bufferSize.isSome
  | .collector => o.collector.isSome

/-- A number of nodes: a whole number of 32 bits. It may carry a sign, so that a zero may be
negative. -/
def nodeCount? (value : String) : Option Nat :=
  (signed? value.toList).bind fun n ↦ if 0 ≤ n ∧ n < 4294967296 then some n.toNat else none

/-- A number of 64 bits. -/
def size? (value : String) : Option Nat := unsigned? 18446744073709551616 value.toList

/-- A path, which is not empty. -/
def path? (value : String) : Option String := if value = "" then none else some value

/-- Sets an option to a value, if the value can be read. -/
def set (o : Options) (item : Item) (value : String) : Option Options :=
  match item with
  | .nodes => (nodeCount? value).map fun n ↦ { o with nodes := some n }
  | .kubeconfig => (path? value).map fun p ↦ { o with kubeconfig := some p }
  | .leaseSpace => some { o with leaseSpace := some value }
  | .renewInterval => (size? value).map fun n ↦ { o with renewSeconds := some n }
  | .bufferSize => (size? value).map fun n ↦ { o with bufferSize := some n }
  | .collector => some { o with collector := some value }

/-- Sets an option that was not given before. -/
def give (o : Options) (item : Item) (value : String) : Option Options :=
  if o.has item then none else o.set item value

/-- A value that can be read settles its option. -/
theorem has_of_set {o o' : Options} {item : Item} {value : String}
    (h : o.set item value = some o') : o'.has item = true := by
  cases item with
  | nodes =>
    obtain ⟨n, -, rfl⟩ := Option.map_eq_some_iff.1 h
    rfl
  | kubeconfig =>
    obtain ⟨path, -, rfl⟩ := Option.map_eq_some_iff.1 h
    rfl
  | leaseSpace =>
    obtain rfl := Option.some.inj h
    rfl
  | renewInterval =>
    obtain ⟨n, -, rfl⟩ := Option.map_eq_some_iff.1 h
    rfl
  | bufferSize =>
    obtain ⟨n, -, rfl⟩ := Option.map_eq_some_iff.1 h
    rfl
  | collector =>
    obtain rfl := Option.some.inj h
    rfl

/-- An option that was given cannot be given again. -/
theorem give_of_has {o : Options} {item : Item} (h : o.has item = true) (value : String) :
    o.give item value = none := by
  rw [give, if_pos h]

/-! ### Arguments -/

/-- What the arguments ask for. -/
inductive Request where
  /-- To run. -/
  | run (options : Options)
  | help
  | version
  /-- Nothing that can be understood. -/
  | misuse
deriving DecidableEq, Repr

/-- What an argument is. -/
inductive Token where
  /-- The mark behind which there are no options. -/
  | mark
  | help
  | version
  /-- An option whose value is the next argument. -/
  | bare (item : Item)
  /-- An option with its value. -/
  | full (item : Item) (value : String)
  | unknown
deriving DecidableEq, Repr

/-- What a long argument is, given what follows its two dashes. -/
def longToken (text : List Char) : Token :=
  match splitFirst? '=' text with
  | none =>
    let name := String.ofList text
    if name = "help" then .help
    else if name = "version" then .version
    else ((Item.ofName? name).map .bare).getD .unknown
  | some (name, value) =>
    ((Item.ofName? (String.ofList name)).map fun item ↦
      .full item (String.ofList value)).getD .unknown

/-- What an argument is. Of letters behind one dash the first decides. -/
def token (argument : String) : Token :=
  match argument.toList with
  | ['-', '-'] => .mark
  | '-' :: '-' :: rest => longToken rest
  | '-' :: 'h' :: _ => .help
  | '-' :: 'V' :: _ => .version
  | _ => .unknown

/-- Whether an argument can be the value of an option before it. -/
def isValue (argument : String) : Bool :=
  match argument.toList with
  | '-' :: _ :: _ => false
  | _ => true

/-- Reads arguments on top of what was said before. -/
def readFrom (o : Options) : List String → Request
  | [] => .run o
  | argument :: rest =>
    match token argument with
    | .mark => if rest = [] then .run o else .misuse
    | .help => .help
    | .version => .version
    | .unknown => .misuse
    | .full item value =>
      match o.give item value with
      | some o => readFrom o rest
      | none => .misuse
    | .bare item =>
      match rest with
      | [] => .misuse
      | value :: rest =>
        if isValue value then
          match o.give item value with
          | some o => readFrom o rest
          | none => .misuse
        else .misuse

/-! ### Environment -/

/-- The variables of the environment. -/
abbrev Environment := List (String × String)

/-- Takes an option from the environment, unless it was given. -/
def takeVariable (environment : Environment) (o : Options) (item : Item) : Option Options :=
  if o.has item then some o
  else match item.standIn?.bind fun name ↦ environment.lookup name with
    | some value => o.set item value
    | none => some o

/-- Reads the arguments, and the environment for what they leave open. -/
def read (arguments : List String) (environment : Environment) : Request :=
  match readFrom {} arguments with
  | .run o => ((Item.all.foldlM (takeVariable environment) o).map .run).getD .misuse
  | request => request

/-! ### Use -/

/-- The variables of the environment that name a collector of spans, the one that counts
first. -/
def collectorVariables : List String :=
  ["OTEL_EXPORTER_OTLP_TRACES_ENDPOINT", "OTEL_EXPORTER_OTLP_ENDPOINT"]

/-- The variables of the environment that ask for spans to be compressed. -/
def compressionVariables : List String :=
  ["OTEL_EXPORTER_OTLP_TRACES_COMPRESSION", "OTEL_EXPORTER_OTLP_COMPRESSION"]

/-- Whether spans are to be compressed. -/
def wantsCompression (environment : Environment) : Bool :=
  compressionVariables.any fun name ↦ (environment.lookup name).isSome

/-- Where spans are sent, if they are: then what the environment says goes before the
option. -/
def spanCollector? (environment : Environment) (o : Options) : Option String :=
  o.collector.map fun given ↦
    (collectorVariables.findSome? fun name ↦ environment.lookup name).getD given

/-- The settings of the agent. -/
def settings (o : Options) : Settings :=
  let usual : Settings := {}
  { nodeCount := o.nodes.getD usual.nodeCount
    leaseSpace := o.leaseSpace.getD usual.leaseSpace
    renewInterval := (o.renewSeconds.map (· * 1000)).getD usual.renewInterval
    eventBuffer := o.bufferSize.getD usual.eventBuffer
    queueCapacity := o.bufferSize.getD usual.queueCapacity }

end Options

end HollowFleet.CommandLine
