import Reckoner.Json.Read
import Reckoner.Json.Write
import Reckoner.Settings
import Reckoner.Stored.Fields

namespace Reckoner

namespace Settings

def toJson (s : Settings) : Json :=
  .record [("short_circuit_logic", .boolean s.shortCircuit),
    ("max_depth", .whole s.maxDepth.toNat),
    ("max_chain_length", .whole s.maxChainLength.toNat)]

/-- Reads a field if it is there, and takes the fallback if it is not. -/
def field? {α : Type} (read : Json → Option α) (fallback : α) : Option Json → Option α
  | some j => read j
  | none => some fallback

def ofJson? (j : Json) : Option Settings := do
  let standard : Settings := {}
  match ← j.fields? ["short_circuit_logic", "max_depth", "max_chain_length"] with
  | [a, b, c] =>
      some ⟨← field? Json.boolean? standard.shortCircuit a,
        ← field? Json.word? standard.maxDepth b, ← field? Json.word? standard.maxChainLength c⟩
  | _ => none

def ofText (s : String) : Except SettingsError Settings := do
  match Json.ofText? s >>= ofJson? with
  | some settings => settings.check; .ok settings
  | none => .error .unreadable

inductive Source
  | missing
  | unavailable
  | bytes (bs : ByteArray)

def load : Source → Except SettingsError Settings
  | .missing => .ok {}
  | .unavailable => .error .unavailable
  | .bytes bs =>
      match String.fromUTF8? bs with
      | some s => ofText s
      | none => .error .unavailable

end Settings

end Reckoner
