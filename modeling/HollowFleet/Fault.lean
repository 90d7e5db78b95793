import HollowFleet.Text.Quoted

/-!
# Faults

What can go wrong in the agent, as causes. `Fault.message` words a fault for the log, and the
tests `retryable`, `isCancelled`, `isNotFound` and `isConflict` classify it: invalid input and
refusals by the cluster (codes 400 to 499) never heal on their own, everything else that is
not a shutdown may.

A fault is a cause with the values that its wording needs, and not a text. So it can be told from a
fault what went wrong and where: which setting, which block, which address in which form. The causes
come in families, one for each part of the agent in which a fault arises, and the wording of a
family stands beside its causes.

Each family of causes has a constructor `stated` for a fault that was worded elsewhere.

What the cluster answered is kept as it is, with its code and its reason, because callers act on
these. Of other failures of the connection nothing is kept but that there was no answer
(`unanswered`): their wording is that of a library, and they are all taken in the same way, as
something that may succeed later.
-/

namespace HollowFleet

/-- The answer of the cluster's API to a call that failed. -/
structure Refusal where
  /-- The outcome in a word, such as `Failure`. -/
  status : String
  /-- What went wrong, for people. -/
  message : String
  /-- What went wrong, for programs. -/
  reason : String
  /-- The code of the outcome. -/
  code : Nat
deriving DecidableEq, Repr

/-- Why a setting or a quantity is not valid. -/
inductive InvalidInput where
  | emptyQuantity
  | malformedQuantity (raw : String)
  /-- A quantity that is infinite, undefined or below zero. -/
  | unboundedQuantity (raw : String)
  | nodeCount (greatest got : Nat)
  | emptyLeaseNamespace
  | leaseDuration
  | zeroRenewInterval
  | zeroEventBuffer
  | zeroQueueCapacity
  | stated (message : String) (field : Option String)
deriving DecidableEq, Repr

/-- Why a block of addresses cannot back a pool. -/
inductive UnusableBlock where
  | missingLength
  | malformedAddress
  | notVersionFour
  | lengthOutOfRange
  | noUsableHost
  | stated (message : String)
deriving DecidableEq, Repr

/-- Why an address cannot be returned to a pool. -/
inductive ForeignAddress where
  | notDotted
  | otherNetwork (network : String)
  | malformedHost
  | outsideRange (network : String) (first last : Nat)
  | stated (message : String)
deriving DecidableEq, Repr

/-- Why a watch ended. -/
inductive WatchEnd where
  | streamEnded
  | receiverDropped
  | allChannelsClosed
  | stated (message : String)
deriving DecidableEq, Repr

/-- What failed inside the agent. -/
inductive InternalCause where
  | queueClosed
  | queuesTaken
  | stated (message context : String)
deriving DecidableEq, Repr

/-- A fault. -/
inductive Fault where
  /-- The cluster refused a call. -/
  | refused (refusal : Refusal)
  /-- A call did not get an answer that could be read. -/
  | unanswered
  | invalid (cause : InvalidInput)
  | badBlock (block : String) (cause : UnusableBlock)
  | badAddress (address : String) (cause : ForeignAddress)
  | poolExhausted (network : String) (capacity : Nat)
  | watch (kind : String) (cause : WatchEnd)
  | cancelled (context : String)
  | internal (cause : InternalCause)
deriving DecidableEq, Repr

namespace InvalidInput

/-- The cause in words. -/
def message : InvalidInput → String
  | emptyQuantity => "empty quantity"
  | malformedQuantity raw => "invalid quantity '" ++ raw ++ "'"
  | unboundedQuantity raw => "quantity '" ++ raw ++ "' must be a finite non-negative number"
  | nodeCount greatest got =>
    "must be between 1 and " ++ toString greatest ++ ", got " ++ toString got
  | emptyLeaseNamespace => "must not be empty"
  | leaseDuration => "must be positive"
  | zeroRenewInterval => "must be non-zero"
  | zeroEventBuffer => "must be non-zero"
  | zeroQueueCapacity => "must be non-zero"
  | stated message _ => message

/-- The setting at fault, if it is one. -/
def field? : InvalidInput → Option String
  | emptyQuantity => none
  | malformedQuantity _ => none
  | unboundedQuantity _ => none
  | nodeCount _ _ => some "nodeCount"
  | emptyLeaseNamespace => some "leaseNamespace"
  | leaseDuration => some "leaseDurationSecs"
  | zeroRenewInterval => some "leaseRenewInterval"
  | zeroEventBuffer => some "eventBufferSize"
  | zeroQueueCapacity => some "queueCapacity"
  | stated _ field => field

end InvalidInput

/-- The cause in words. -/
def UnusableBlock.message : UnusableBlock → String
  | missingLength => "missing prefix length"
  | malformedAddress => "malformed address"
  | notVersionFour => "must be IPv4"
  | lengthOutOfRange => "prefix length must be 0-32"
  | noUsableHost => "block has no usable host address"
  | stated message => message

/-- The cause in words. -/
def ForeignAddress.message : ForeignAddress → String
  | notDotted => "not an IPv4 address"
  | otherNetwork network => "does not belong to " ++ network ++ ".0"
  | malformedHost => "host octet must be 0-255"
  | outsideRange network first last =>
    "outside pool " ++ network ++ "." ++ toString first ++ "-" ++ toString last
  | stated message => message

/-- The cause in words. -/
def WatchEnd.message : WatchEnd → String
  | streamEnded => "watch stream ended"
  | receiverDropped => "event receiver dropped"
  | allChannelsClosed => "all event channels closed"
  | stated message => message

namespace InternalCause

/-- The cause in words. -/
def message : InternalCause → String
  | queueClosed => "work queue closed"
  | queuesTaken => "work queues already taken"
  | stated message _ => message

/-- The part of the agent at fault. -/
def context : InternalCause → String
  | queueClosed => "lifecycle"
  | queuesTaken => "lifecycle"
  | stated _ context => context

end InternalCause

/-- The refusal in words, its texts in quotes. -/
def Refusal.text (r : Refusal) : String :=
  "ApiError: " ++ r.message ++ ": " ++ r.reason ++ " (ErrorResponse \x7b status: " ++
    Text.quoted r.status ++ ", message: " ++ Text.quoted r.message ++ ", reason: " ++
    Text.quoted r.reason ++ ", code: " ++ toString r.code ++ " \x7d)"

namespace Fault

/-- The fault in words. -/
def message : Fault → String
  | refused r => "kubernetes error: " ++ r.text
  | unanswered => "kubernetes error"
  | invalid cause => "validation error: " ++ cause.message
  | badBlock block cause => "invalid pod CIDR " ++ block ++ ": " ++ cause.message
  | badAddress address cause => "invalid address " ++ address ++ ": " ++ cause.message
  | poolExhausted network capacity =>
    "address pool " ++ network ++ ".0 exhausted after " ++ toString capacity ++ " addresses"
  | watch kind cause => "watch error [" ++ kind ++ "]: " ++ cause.message
  | cancelled context => "cancelled [" ++ context ++ "]"
  | internal cause => "internal error [" ++ cause.context ++ "]: " ++ cause.message

/-- Whether the same action may succeed later. -/
def retryable : Fault → Bool
  | refused r => !(decide (400 ≤ r.code) && decide (r.code < 500))
  | unanswered => true
  | invalid _ => false
  | badBlock _ _ => false
  | badAddress _ _ => false
  | poolExhausted _ _ => true
  | watch _ _ => true
  | cancelled _ => false
  | internal _ => true

/-- Whether the fault is a shutdown and no failure. -/
def isCancelled : Fault → Bool
  | cancelled _ => true
  | _ => false

/-- Whether the cluster answered that the object does not exist. -/
def isNotFound : Fault → Bool
  | refused r => decide (r.code = 404)
  | _ => false

/-- Whether the cluster answered that the object is not the one that was meant. -/
def isConflict : Fault → Bool
  | refused r => decide (r.code = 409)
  | _ => false

end Fault

end HollowFleet
