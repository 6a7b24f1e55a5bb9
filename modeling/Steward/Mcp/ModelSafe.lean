import Steward.Py.Collections
import Steward.Py.Document

/-!
# Model-safe JSON

`model_safe_json`: integers beyond the interoperable range become decimal
strings, and their JSON pointers are listed.
-/

namespace Steward

open Py

variable {F : Type}

/-- `MAX_SAFE_JSON_INTEGER` -/
def maxSafeJsonInteger : Nat := 9007199254740991

/-- `key.replace("~", "~0").replace("/", "~1")` -/
def pointerToken (key : Text) : Text :=
  key.flatMap fun c => if c = ch '~' then txt "~0" else if c = ch '/' then txt "~1" else [c]

/-- The members of an object in the order of their keys, and the pointers below them. -/
def modelSafeObject (encoded : List (Text × Value F × List Text)) : Value F × List Text :=
  let members := sortedBy Prod.fst encoded
  (.dict (members.map fun m => (m.1, m.2.1)), members.flatMap fun m => m.2.2)

mutual
/-- `model_safe_json` -/
def modelSafeJson (pointer : Text) : Value F → Value F × List Text
  | .int n => if maxSafeJsonInteger < n.natAbs then (.str (Text.ofInt n), [pointer]) else (.int n, [])
  | .list vs =>
    let items := modelSafeItems pointer 0 vs
    (.list (items.map Prod.fst), items.flatMap Prod.snd)
  | .dict fs => modelSafeObject (modelSafeMembers pointer fs)
  | v => (v, [])
def modelSafeItems (pointer : Text) : Nat → List (Value F) → List (Value F × List Text)
  | _, [] => []
  | index, v :: vs =>
    modelSafeJson (pointer ++ txt "/" ++ Text.ofNat index) v :: modelSafeItems pointer (index + 1) vs
def modelSafeMembers (pointer : Text) : List (Text × Value F) → List (Text × Value F × List Text)
  | [] => []
  | (key, v) :: fs =>
    (key, modelSafeJson (pointer ++ txt "/" ++ pointerToken key) v) :: modelSafeMembers pointer fs
end

end Steward
