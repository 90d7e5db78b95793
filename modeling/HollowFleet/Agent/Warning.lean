import HollowFleet.Fault

/-!
# Warnings

What the agent writes into its journal when it goes on in spite of a fault. There is one
constructor for each thing that may fail so, with the fault as its argument, so that what was
written can be told apart without reading it. `message` gives the text, with the fault in words at
its end; two of the warnings have no fault behind them, or none that is told.

A journal has warnings and graver entries only. What is written for information, such as that a pod
runs or that a pool was made, is left out, as nothing depends on it.
-/

namespace HollowFleet

/-- A warning, with the fault behind it. -/
inductive Warning where
  /-- A node's capacity could not be read. -/
  | unreadableCapacity (fault : Fault)
  /-- A pod's requests could not be read. -/
  | unreadableRequests (fault : Fault)
  /-- A lease was not renewed on a tick. -/
  | renewalFailed (fault : Fault)
  /-- A new node has no fresh lease. -/
  | leaseMissing (fault : Fault)
  /-- A pod got no address. -/
  | noAddress (fault : Fault)
  /-- A pod's address was not taken back. -/
  | addressKept (fault : Fault)
  /-- The second start of a pod failed. -/
  | restartFailed (fault : Fault)
  /-- The second stop of a pod failed. -/
  | restopFailed (fault : Fault)
  /-- A pod was admitted to a node that it does not fit on. -/
  | overcommitted
  /-- The start of a pod failed. -/
  | startFailed (fault : Fault)
  /-- A pod was not charged. -/
  | chargeFailed (fault : Fault)
  /-- The stop of a pod failed. -/
  | stopFailed (fault : Fault)
  /-- A node event was refused by the address pools. -/
  | nodeRefused (fault : Fault)
  /-- An item of a watch failed. -/
  | watchFailed
deriving DecidableEq, Repr

namespace Warning

/-- The warning in words. -/
def message : Warning → String
  | unreadableCapacity f => "unparseable node capacity, treating as zero: " ++ f.message
  | unreadableRequests f => "unparseable pod requests: " ++ f.message
  | renewalFailed f => "lease renewal failed: " ++ f.message
  | leaseMissing f => "failed to ensure node lease: " ++ f.message
  | noAddress f => "no address for pod, running without IP: " ++ f.message
  | addressKept f => "failed to release pod address: " ++ f.message
  | restartFailed f => "start sequence failed: " ++ f.message
  | restopFailed f => "stop sequence failed: " ++ f.message
  | overcommitted => "node lacks capacity for pod, admitting anyway"
  | startFailed f => "pod start failed: " ++ f.message
  | chargeFailed f => "failed to charge pod: " ++ f.message
  | stopFailed f => "pod stop failed: " ++ f.message
  | nodeRefused f => "lifecycle rejected node event: " ++ f.message
  | watchFailed => "watch error, backing off"

end Warning

end HollowFleet
