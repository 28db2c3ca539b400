import Courseware.Settings.Document

/-!
The tree of tables that a settings document stands for. A key is given only once, and a table
has only one header; a table that was made by a dotted key takes no header, and one with a
header no dotted keys.
-/

namespace Courseware.Document

/-- How a table came to be. -/
inductive Origin where
  | header
  /-- It holds a table with a header. -/
  | implied
  | dotted
deriving DecidableEq

inductive Node where
  | value (v : Setting)
  | table (o : Origin) (entries : List (Text × Node))

abbrev Nodes := List (Text × Node)

/-- Puts a node at the place of a key, or at the end. -/
def place (key : Text) (n : Node) : Nodes → Nodes
  | [] => [(key, n)]
  | (k, m) :: rest => if k = key then (k, n) :: rest else (k, m) :: place key n rest

/-- Opens the table of a header. -/
def openTable? : List Text → Nodes → Option Nodes
  | [], _ => none
  | [key], ns =>
    match ns.lookup key with
    | none => some (place key (.table .header []) ns)
    | some (.table .implied inner) => some (place key (.table .header inner) ns)
    | some _ => none
  | key :: keys, ns =>
    match ns.lookup key with
    | none => (openTable? keys []).map fun inner => place key (.table .implied inner) ns
    | some (.table o inner) =>
      (openTable? keys inner).map fun inner => place key (.table o inner) ns
    | some (.value _) => none

/-- Adds an entry to a table, which for a dotted key is one inside of it. -/
def addPair? (v : Setting) : List Text → Nodes → Option Nodes
  | [], _ => none
  | [key], ns =>
    match ns.lookup key with
    | none => some (place key (.value v) ns)
    | some _ => none
  | key :: keys, ns =>
    match ns.lookup key with
    | none => (addPair? v keys []).map fun inner => place key (.table .dotted inner) ns
    | some (.table o inner) =>
      if o = .dotted ∨ (o = .implied ∧ 1 < keys.length) then
        (addPair? v keys inner).map fun inner => place key (.table o inner) ns
      else none
    | some (.value _) => none

/-- Changes the table at the end of a path. -/
def atTable? (f : Nodes → Option Nodes) : List Text → Nodes → Option Nodes
  | [], ns => f ns
  | key :: keys, ns =>
    match ns.lookup key with
    | some (.table o inner) =>
      (atTable? f keys inner).map fun inner => place key (.table o inner) ns
    | _ => none

/-- Carries out statements; entries go to the table `current`. -/
def build? (current : List Text) (ns : Nodes) : List Statement → Option Nodes
  | [] => some ns
  | .header path :: rest =>
    match openTable? path ns with
    | some ns => build? path ns rest
    | none => none
  | .entry path v :: rest =>
    match atTable? (addPair? v path) current ns with
    | some ns => build? current ns rest
    | none => none

mutual

def Node.setting : Node → Setting
  | .value v => v
  | .table _ entries => .table (settings entries)

def settings : Nodes → List (Text × Setting)
  | [] => []
  | (key, n) :: rest => (key, n.setting) :: settings rest

end

/-- The entries of a document, if it is well formed. -/
def read? (t : Text) : Option (List (Text × Setting)) := do
  return settings (← build? [] [] (← statements? t))

end Courseware.Document
