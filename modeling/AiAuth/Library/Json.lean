import AiAuth.Library.Bytes

/-!
# JSON values

The values a JSON text stands for. Numbers keep their text. Parsing and printing
belong to the languages' own libraries and are parameters where they are used.
-/
namespace AiAuth.Library

inductive Json
  | null
  | bool (b : Bool)
  | number (text : Bytes)
  | string (s : Bytes)
  | array (items : List Json)
  | object (members : List (Bytes × Json))

namespace Json

/-- The member of an object under a key. -/
def get (j : Json) (key : Bytes) : Option Json :=
  match j with
  | object members => members.lookup key
  | _ => none

def asStr : Json → Option Bytes
  | string s => some s
  | _ => none

/-- An object whose members are all strings. -/
def strings (members : List (Bytes × Bytes)) : Json :=
  object (members.map fun (k, v) => (k, string v))

end Json
end AiAuth.Library
