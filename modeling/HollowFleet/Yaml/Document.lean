import HollowFleet.Yaml.Node

/-!
# Documents

A source holds any number of documents. The first may begin without a mark; the others begin
with one, perhaps after directives. A document that ends at once holds an empty scalar.

Directives count for the one document that follows them. The version may be told once, a handle may
be declared once, and a declared handle goes before a standard one, so `!!` can be made to mean
something else. A mark of the end may be repeated between documents.

`documents?` puts the stages together: the characters have to be ones that may stand in a source,
line ends are unified, the text is cut into tokens, and the tokens are read as trees. A fault in a
later document spoils the earlier ones too, for the source is read as a whole.
-/

namespace HollowFleet.Yaml

/-- Whether a directive, a mark of a document or the end of the source comes next. -/
def endsDocument : List Token → Bool
  | [] => true
  | .directive _ :: _ => true
  | .documentStart :: _ => true
  | .documentEnd :: _ => true
  | _ => false

/-- Whether a document begins without a mark. -/
def beginsBare : List Token → Bool
  | [] => false
  | .directive _ :: _ => false
  | .documentStart :: _ => false
  | _ => true

/-- Reads directives, given whether the version was told. There is one version at most and one
declaration of each handle; a declared handle hides a standard one. -/
def readDirectives : Bool → Shorthands → List Token → Option (Shorthands × List Token)
  | told, shorthands, .directive (.version major minor) :: ts =>
    if !told ∧ major = 1 ∧ (minor = 1 ∨ minor = 2) then readDirectives true shorthands ts else none
  | told, shorthands, .directive (.shorthand handle expansion) :: ts =>
    if (shorthands.lookup handle).isSome then none
    else readDirectives told (shorthands ++ [(handle, expansion)]) ts
  | _, shorthands, ts => some (shorthands ++ .standard, ts)

/-- Reads a node that is a document. -/
def readRoot (shorthands : Shorthands) (ts : List Token) : Reading (Node String) :=
  readNode shorthands (4 * ts.length + 4) true false ts

/-- Reads a document with a mark. -/
def readMarked (ts : List Token) : Reading (Node String) :=
  match readDirectives false [] ts with
  | some (shorthands, .documentStart :: ts) =>
    if endsDocument ts then some (.empty, ts) else readRoot shorthands ts
  | _ => none

/-- Reads the documents, given whether the next is the first. Each of them takes a token. -/
def readDocuments : Nat → Bool → List Token → Option (List (Node String))
  | 0, _, _ => none
  | fuel + 1, first, ts =>
    let ts := if first then ts else ts.dropWhile fun t ↦ decide (t = .documentEnd)
    if ts = [] then some []
    else
      match (if first && beginsBare ts then readRoot .standard ts else readMarked ts) with
      | none => none
      | some (root, ts) => (readDocuments fuel false ts).map fun roots ↦ root :: roots

/-- The documents of a source, as trees. A byte order mark in front is no part of them. -/
def documents? (source : String) : Option (List (Node String)) :=
  let cs := match source.toList with
    | '\uFEFF' :: rest => rest
    | cs => cs
  if cs.all isPrintable then
    (tokens? (unifyLineEnds cs)).bind fun ts ↦ readDocuments (ts.length + 1) true ts
  else none

end HollowFleet.Yaml
