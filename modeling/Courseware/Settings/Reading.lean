import Courseware.Number.Binary
import Courseware.Settings.Basic
import Courseware.Settings.Tree

/-!
Settings from layers. A document lies over the defaults, and variables of the environment lie
over the document. Keys are compared without regard to case, and unknown keys mean nothing.
-/

namespace Courseware

open Text

inductive SettingsError where
  /-- There is no document to be read. -/
  | unreadable
  | malformed
  | invalid
deriving DecidableEq

def SettingsError.message : SettingsError → String
  | unreadable => "Failed to read engine configuration"
  | malformed => "Failed to parse engine configuration"
  | invalid => "Invalid engine configuration"

/-- The variables of the environment, with their values. -/
abbrev Ambient := List (Text × Text)

namespace Setting

/-- A whole number from 0 up to 64 bits. Floats are rounded, truth values count as 0 and 1, and
texts stand for what they spell. -/
def toCount? : Setting → Option Nat
  | integer n => if 0 ≤ n then some n.toNat else none
  | float x => some (Number.truncateWithin 0 (UInt64.size - 1) x.round).toNat
  | boolean b => some (if b then 1 else 0)
  | text t =>
    let w := lower t
    if w = "true".toList ∨ w = "on".toList ∨ w = "yes".toList then some 1
    else if w = "false".toList ∨ w = "off".toList ∨ w = "no".toList then some 0
    else (Number.readNat? t).filter (· < UInt64.size)
  | _ => none

def suspendMode? (w : Text) : Option SuspendMode :=
  if lower w = "block".toList then some .block
  else if lower w = "yield".toList then some .yield
  else none

/-- A mode is given by its name, or by a table with that single key. -/
def toSuspendMode? : Setting → Option SuspendMode
  | text t => suspendMode? t
  | table [(key, _)] => suspendMode? key
  | _ => none

/-- The field `name` of a table, or `default` if it has none. -/
def field {α : Type} (name : String) (default : α) (read? : Setting → Option α)
    (entries : List (Text × Setting)) : Option α :=
  match entries.find? fun e => lower e.1 = name.toList with
  | some (_, v) => read? v
  | none => some default

/-- Limits are given by name in a table, or in order in a list. -/
def toLimits? : Setting → Option Expr.Limits
  | table entries => do
    let d : Expr.Limits := {}
    return ⟨← field "max_tokens" d.maxTokens toCount? entries,
      ← field "max_depth" d.maxDepth toCount? entries⟩
  | list [] => some {}
  | list [a] => do return { maxTokens := ← a.toCount? }
  | list (a :: b :: _) => do return ⟨← a.toCount?, ← b.toCount?⟩
  | _ => none

/-- Puts a value at the end of a path. What is no table on the way is replaced by one. -/
def put (v : Setting) : List Text → List (Text × Setting) → List (Text × Setting)
  | [], entries => entries
  | [key], entries => (key, v) :: entries.filter fun e => lower e.1 ≠ lower key
  | key :: keys, entries =>
    let inner :=
      match entries.find? fun e => lower e.1 = lower key with
      | some (_, .table inner) => inner
      | _ => []
    (key, .table (put v keys inner)) :: entries.filter fun e => lower e.1 ≠ lower key

/-- The path that a key spells with points; a key that spells none stands for itself. -/
def pathOf (key : Text) : List Text :=
  let ps := pieces (· == '.') key
  if ps.all fun p => p ≠ [] && p.all Document.isBareKeyChar then ps else [key]

/-- Lays entries over others. -/
def overlay (above below : List (Text × Setting)) : List (Text × Setting) :=
  above.foldl (fun es (key, v) => put v (pathOf key) es) below

/-- What the value of a variable of the environment stands for. -/
def ofAmbient (t : Text) : Setting :=
  if lower t = "true".toList then boolean true
  else if lower t = "false".toList then boolean false
  else
    match (Number.readInt? t).filter fun n =>
        Int64.minValue.toInt ≤ n ∧ n ≤ Int64.maxValue.toInt with
    | some n => integer n
    | none =>
      match Number.readFloat? t with
      | some x => float x
      | none => text t

/-- Writes a point for every two underscores. -/
def pointed : Text → Text
  | '_' :: '_' :: t => '.' :: pointed t
  | c :: t => c :: pointed t
  | [] => []

/-- The entries that variables of the environment stand for. -/
def ofEnvironment (env : Ambient) : List (Text × Setting) :=
  env.filterMap fun (name, value) =>
    (stripPrefix? "timewarp_".toList (lower name)).map fun key => (pointed key, ofAmbient value)

end Setting

namespace Settings

open Setting

def ofEntries? (entries : List (Text × Setting)) : Option Settings := do
  let d : Settings := {}
  return {
    maxCommands := ← field "max_iterations" d.maxCommands toCount? entries
    maxCallDepth := ← field "max_call_depth" d.maxCallDepth toCount? entries
    limits := ← field "eval" d.limits toLimits? entries
    suspend := ← field "suspend_mode" d.suspend toSuspendMode? entries
    seed := ← field "rng_seed" d.seed (fun v => v.toCount?.map fun n => some n.toUInt64) entries }

/-- The settings of a document. -/
def ofDocument (t : Text) : Except SettingsError Settings :=
  match Document.read? t with
  | none => .error .malformed
  | some entries =>
    match ofEntries? (overlay entries []) with
    | some s => .ok s
    | none => .error .invalid

/-- The settings of a document and the environment. -/
def ofLayers (t : Text) (env : Ambient) : Except SettingsError Settings :=
  match Document.read? t with
  | none => .error .unreadable
  | some entries =>
    match ofEntries? (overlay (ofEnvironment env) (overlay entries [])) with
    | some s => .ok s
    | none => .error .invalid

end Settings

end Courseware
