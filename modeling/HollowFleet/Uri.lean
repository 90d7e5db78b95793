/-!
# Uniform resource identifiers

Which texts name a place on a network. A text is one of three: a path, an authority alone, or
an absolute identifier, that is a scheme, an authority and perhaps a path. The star stands for
everything.

An authority is checked from left to right (`Authority.step`). A percent sign may stand before
an at sign or in brackets, and after them only one colon, which ends the name of the host.

Nothing is resolved and nothing is decoded: the question is only whether a client would take the
text, and what kind of text it is (`form?`). The rules are those of a particular client and are more
generous than the standard. A location that is made up for a request goes through `target?`, which
parts it into path and query and drops what follows a hash.
-/

namespace HollowFleet.Uri

/-! ### Paths -/

/-- Whether a character is a blank or cannot be shown. -/
def isControl (c : Char) : Bool := decide (c.toNat < 33) || decide (c.toNat = 127)

/-- Whether a character may stand in a path as it is. -/
def allowedInPath (c : Char) : Bool :=
  !isControl c && !(['#', '<', '>', '?', '\x60'].contains c)

/-- Whether a character may stand in a query as it is. -/
def allowedInQuery (c : Char) : Bool := !isControl c && !(['"', '#', '<', '>'].contains c)

/-- Path and query of a location; what follows a hash is no part of either. -/
def target? (location : List Char) : Option (String × String) :=
  let cs := location.takeWhile fun c ↦ decide (c ≠ '#')
  let path := cs.takeWhile fun c ↦ decide (c ≠ '?')
  let query := (cs.dropWhile fun c ↦ decide (c ≠ '?')).drop 1
  if path.all allowedInPath && query.all allowedInQuery then
    some (String.ofList path, String.ofList query)
  else none

/-! ### Authorities -/

/-- What was seen of an authority so far. -/
structure Authority where
  /-- Colons since the last at sign or closing bracket. -/
  colons : Nat := 0
  /-- Whether a bracket was opened. -/
  opened : Bool := false
  /-- Whether the bracket was closed. -/
  closed : Bool := false
  /-- Whether there was a percent sign that may belong to a host. -/
  percent : Bool := false
deriving DecidableEq, Repr

namespace Authority

/-- Whether a character has no meaning of its own in an authority but may stand in it. -/
def isPlain (c : Char) : Bool :=
  c.isAlphanum || "!$&'()*+,-.;=_~".toList.contains c

/-- The number of colons in an address of the sixth version with one behind it. -/
def greatestColons : Nat := 8

/-- Takes one more character. -/
def step (a : Authority) (c : Char) : Option Authority :=
  match c with
  | ':' => if a.colons < greatestColons then some { a with colons := a.colons + 1 } else none
  | '[' => if a.percent || a.opened then none else some { a with opened := true }
  | ']' =>
    if a.opened && !a.closed then some { a with closed := true, colons := 0, percent := false }
    else none
  | '@' => some { a with colons := 0, percent := false }
  | '%' => some { a with percent := true }
  | c => if isPlain c then some a else none

/-- Whether nothing is left open. -/
def isComplete (a : Authority) : Bool :=
  (a.opened == a.closed) && decide (a.colons ≤ 1) && !a.percent

/-- Whether a text is an authority, perhaps an empty one. -/
def isValid (cs : List Char) : Bool :=
  ((cs.foldlM step {}).map isComplete).getD false && decide (cs.getLast? ≠ some '@')

end Authority

/-- Whether an authority ends in front of a character. -/
def endsAuthority (c : Char) : Bool := c = '/' || c = '?' || c = '#'

/-! ### Schemes -/

/-- Whether a character may stand in a scheme. -/
def allowedInScheme (c : Char) : Bool := c.isAlphanum || ['+', '-', '.', '~'].contains c

/-- The greatest length of a scheme. -/
def greatestScheme : Nat := 64

/-- What follows a scheme and its mark, if a text begins with one. -/
def afterScheme? (cs : List Char) : Option (List Char) :=
  match cs.dropWhile allowedInScheme with
  | ':' :: '/' :: '/' :: rest =>
    if (cs.takeWhile allowedInScheme).length ≤ greatestScheme then some rest else none
  | _ => none

/-! ### Identifiers -/

/-- The greatest length of an identifier, in bytes. -/
def greatestSize : Nat := 65534

/-- Whether a text is an absolute identifier, given what follows its scheme. -/
def isAbsolute (rest : List Char) : Bool :=
  let authority := rest.takeWhile fun c ↦ !endsAuthority c
  decide (authority ≠ []) && Authority.isValid authority &&
    (target? (rest.dropWhile fun c ↦ !endsAuthority c)).isSome

/-- What an identifier consists of. -/
inductive Form where
  /-- The star alone. -/
  | star
  /-- A path. -/
  | path
  /-- An authority alone. -/
  | authority
  /-- A scheme, an authority and perhaps a path. -/
  | absolute
deriving DecidableEq, Repr

/-- What a text consists of, if it is an identifier. -/
def form? (text : String) : Option Form :=
  if greatestSize < text.utf8ByteSize then none
  else match text.toList with
    | [] => none
    | ['*'] => some .star
    | '/' :: rest => if (target? ('/' :: rest)).isSome then some .path else none
    | cs =>
      match afterScheme? cs with
      | some rest => if isAbsolute rest then some .absolute else none
      | none => if Authority.isValid cs then some .authority else none

/-- Whether a text is an identifier. -/
def isValid (text : String) : Bool := (form? text).isSome

end HollowFleet.Uri
