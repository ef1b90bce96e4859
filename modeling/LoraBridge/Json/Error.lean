import LoraBridge.Eui
import LoraBridge.Json.Number
import LoraBridge.Text.Base64
import LoraBridge.Text.Quoted

/-! Why a JSON text cannot be decoded, and the wording of it. -/
namespace LoraBridge.Json

inductive Found where
  | null
  | bool (b : Bool)
  | number (n : Number)
  | string (s : String)
  | sequence
  | map

inductive Mismatch where
  | missingField (name : String)
  | duplicateField (name : String)
  | wrongType (found : Found) (expected : String)
  | outOfRange (n : Int) (expected : String)
  | tooShort (length : Nat) (expected : String)
  | eui (e : Eui.ParseError)
  | base64 (e : Text.Base64.DecodeError)
  | timestamp

inductive Error where
  | fault (f : Fault)
  | mismatch (m : Mismatch)

def Number.text : Number → String
  | .integer n => toString n.val
  | .float x => Value.floatText x

def Found.text : Found → String
  | .null => "null"
  | .bool b => s!"boolean `{b}`"
  | .number (.integer n) => s!"integer `{n.val}`"
  | .number (.float x) => s!"floating point `{Value.floatText x}`"
  | .string s => s!"string {Text.quoted s}"
  | .sequence => "sequence"
  | .map => "map"

def Mismatch.message : Mismatch → String
  | .missingField name => s!"missing field `{name}`"
  | .duplicateField name => s!"duplicate field `{name}`"
  | .wrongType found expected => s!"invalid type: {found.text}, expected {expected}"
  | .outOfRange n expected => s!"invalid value: integer `{n}`, expected {expected}"
  | .tooShort n expected => s!"invalid length {n}, expected {expected}"
  | .eui e => e.message
  | .base64 e => e.message
  | .timestamp => "invalid timestamp"

end LoraBridge.Json
