import Steward.Py.Json

/-!
# JSON objects without repeated keys

`json.loads` with an `object_pairs_hook` that raises on a repeated key: the
scanner of `loads`, where every object has to pass the hook.
-/

namespace Py.Json

variable {F : Type} [PyFloat F]

/-- The hook: the pairs of an object as a dictionary, if no key is repeated. -/
def rejectDuplicateKeys (pairs : List (Text × Value F)) : Option (Value F) :=
  if (keys pairs).Nodup then some (.dict pairs) else none

mutual
def strictValue : Nat → Text → Option (Value F × Text)
  | 0, _ => none
  | _ + 1, [] => none
  | n + 1, c :: s =>
    if c = ch '"' then (parseBody (s.length + 1) s).map fun t => (.str t.1, t.2)
    else if c = ch '{' then
      match skipWs s with
      | [] => none
      | c' :: r =>
        if c' = ch '}' then some (.dict [], r)
        else (strictMembers n (c' :: r)).bind fun t => (rejectDuplicateKeys t.1).map fun v => (v, t.2)
    else if c = ch '[' then
      match skipWs s with
      | [] => none
      | c' :: r =>
        if c' = ch ']' then some (.list [], r)
        else (strictElements n (c' :: r)).map fun t => (.list t.1, t.2)
    else parseAtom (c :: s)
def strictElements : Nat → Text → Option (List (Value F) × Text)
  | 0, _ => none
  | n + 1, s => (strictValue n s).bind fun v =>
    match skipWs v.2 with
    | [] => none
    | c :: r =>
      if c = ch ']' then some ([v.1], r)
      else if c = ch ',' then (strictElements n (skipWs r)).map fun t => (v.1 :: t.1, t.2)
      else none
def strictMembers : Nat → Text → Option (List (Text × Value F) × Text)
  | 0, _ => none
  | n + 1, s => (parseKey s).bind fun k => (strictValue n k.2).bind fun v =>
    match skipWs v.2 with
    | [] => none
    | c :: r =>
      if c = ch '}' then some ([(k.1, v.1)], r)
      else if c = ch ',' then (strictMembers n (skipWs r)).map fun t => ((k.1, v.1) :: t.1, t.2)
      else none
end

/-- `json.loads(s, object_pairs_hook=_reject_duplicate_keys)` -/
def strictLoads (s : Text) : Option (Value F) :=
  (strictValue (s.length + 1) (skipWs s)).bind fun r => if skipWs r.2 = [] then some r.1 else none

end Py.Json
