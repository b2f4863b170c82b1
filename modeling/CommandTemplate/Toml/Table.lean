import CommandTemplate.Document.Basic

/-!
# Tables in TOML

A table can be spread over a file. What may still be added to it depends on how it came about: by a
header of its own, only as a part of a longer header, or by a dotted key. A finished value takes no
additions at all.
-/
namespace CommandTemplate.Toml

inductive Origin where
  | header
  | implied
  | dotted
  deriving DecidableEq, Repr

inductive Node where
  | value (d : Document)
  | table (origin : Origin) (entries : List (String × Node))
  /-- An array of tables, which its headers add to; the last one stands first. -/
  | series (tables : List (List (String × Node)))

abbrev Entries := List (String × Node)

structure KeyPath where
  front : List String
  last : String
  deriving DecidableEq, Repr

/-- Replaces the node under a key, or adds one, as `f` says. -/
def Entries.modify (key : String) (f : Option Node → Option Node) : Entries → Option Entries
  | [] => (f none).map fun n => [(key, n)]
  | (k, n) :: es =>
    if k = key then (f (some n)).map fun n => (k, n) :: es
    else (modify key f es).map fun es => (k, n) :: es

/-- Changes the table at a path, and makes the tables on the way to it. -/
def Entries.within (byDots : Bool) (f : Origin → Entries → Option Entries) :
    List String → Origin → Entries → Option Entries
  | [], origin, es => f origin es
  | key :: path, _, es =>
    es.modify key fun
      | none =>
        let origin := if byDots then .dotted else .implied
        (within byDots f path origin []).map (.table origin)
      | some (.table origin inner) =>
        if byDots ∧ origin = .header then none
        else (within byDots f path origin inner).map (.table origin)
      | some (.series (t :: ts)) =>
        (within byDots f path .header t).map fun t => .series (t :: ts)
      | some _ => none

/-- Puts a value under a new key. A dotted key adds only to tables that dotted keys have made. -/
def Entries.put (path : KeyPath) (d : Document) (origin : Origin) (es : Entries) :
    Option Entries :=
  let place (origin : Origin) (es : Entries) : Option Entries :=
    if (origin == .dotted) == path.front.isEmpty then none
    else es.modify path.last fun n => if n.isNone then some (.value d) else none
  es.within true place path.front origin

/-- Begins the table of a header, which may have been implied before. -/
def Entries.openTable (path : KeyPath) (es : Entries) : Option Entries :=
  let begin (_ : Origin) (es : Entries) : Option Entries :=
    es.modify path.last fun
      | none => some (.table .header [])
      | some (.table .implied inner) => some (.table .header inner)
      | some _ => none
  es.within false begin path.front .header

/-- Begins the next table of an array of tables. -/
def Entries.openElement (path : KeyPath) (es : Entries) : Option Entries :=
  let begin (_ : Origin) (es : Entries) : Option Entries :=
    es.modify path.last fun
      | none => some (.series [[]])
      | some (.series ts) => some (.series ([] :: ts))
      | some _ => none
  es.within false begin path.front .header

mutual
def Node.document : Node → Document
  | .value d => d
  | .table _ es => .table (documents es)
  | .series ts => .list (seriesDocuments ts).reverse

def documents : List (String × Node) → List (String × Document)
  | [] => []
  | (key, n) :: es => (key, n.document) :: documents es

def seriesDocuments : List (List (String × Node)) → List Document
  | [] => []
  | es :: ts => .table (documents es) :: seriesDocuments ts
end

end CommandTemplate.Toml
