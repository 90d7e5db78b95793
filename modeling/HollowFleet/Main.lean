import HollowFleet.CommandLine.Program

/-!
# The command line

Reads the arguments, the variables and the files that count, and shows how the program ended.
-/

namespace HollowFleet.CommandLine

/-- The variables that the program looks at. -/
def consulted : List String :=
  Item.all.filterMap Item.standIn? ++ Options.collectorVariables ++ Options.compressionVariables ++
    Kubeconfig.proxyVariables

/-- The variables that are set. -/
def readEnvironment : IO Options.Environment :=
  consulted.filterMapM fun name ↦ do
    return (← IO.getEnv name).map fun value ↦ (name, value)

/-- The file that the options name, if it can be read. -/
def readKubeconfig (request : Options.Request) : IO (Option String) :=
  match request with
  | .run o =>
    match o.kubeconfig with
    | some path => try some <$> IO.FS.readFile path catch _ => return none
    | none => return none
  | _ => return none

/-- What an option is for. -/
def purpose : Item → String
  | .nodes => "Number of synthetic nodes to register (1-254)"
  | .kubeconfig => "Kubeconfig of the target cluster; inferred when omitted"
  | .leaseSpace => "Namespace for node leases"
  | .renewInterval => "Seconds between lease renewals"
  | .bufferSize => "Capacity of watch event channels and pod work queues"
  | .collector => "OTLP collector endpoint for traces"

/-- The help. -/
def helpText : String :=
  "Usage: kubesim-agent [OPTIONS]\n\nOptions:\n" ++
    String.join (Item.all.map fun i ↦ "  --" ++ i.name ++ " <VALUE>  " ++ purpose i ++ "\n") ++
    "  -h, --help\n  -V, --version\n"

/-- Shows an ending. -/
def report (ending : Ending) : IO Unit := do
  match ending with
  | .help => IO.print helpText
  | .version => IO.println versionLine
  | .misuse => IO.eprintln "Usage: kubesim-agent [OPTIONS]"
  | _ =>
    match ending.message? with
    | some message => IO.eprintln ("Error: " ++ message)
    | none => return ()

end HollowFleet.CommandLine

open HollowFleet HollowFleet.CommandLine in
/-- Runs the program. -/
def main (arguments : List String) : IO UInt32 := do
  let environment ← readEnvironment
  let content ← readKubeconfig (Options.read arguments environment)
  let ending := run (fun _ ↦ content) environment default arguments
  report ending
  return ending.status.toUInt32
