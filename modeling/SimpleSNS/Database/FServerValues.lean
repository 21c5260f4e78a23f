import SimpleSNS.Database.Writes

/-!
What a write leaves to the server: each leaf and each priority that asks for the server's time is given the time
that the client takes it to be.
-/

namespace SimpleSNS
open Std Sorted FUtilities FValidation FSnapshotUtilities

namespace FServerValues

def generateServerValues (millis : Int) : List (String × Json) := [("timestamp", .num millis)]

/-- A dictionary with `.sv` is given the value of that name, if there is one. -/
def resolveDeferredValue (serverValues : List (String × Json)) (val : Json) : Json :=
  match val with
  | .obj dict =>
    match dict.lookup ".sv" with
    | some (.str serverValueType) => (serverValues.lookup serverValueType).getD val
    | _ => val
  | _ => val

mutual

/-- Nodes that stay equal are kept, the others replaced in their dictionary, which keeps its form. -/
def resolveDeferredValueSnapshot (serverValues : List (String × Json)) : FNode → FNode
  | .leaf value priority =>
    .leaf (resolveDeferredValue serverValues value) (priority.map (resolveDeferredValue serverValues))
  | .children priority isTree entries =>
    .children (priority.map (resolveDeferredValue serverValues)) isTree (resolveChildren serverValues entries)

def resolveChildren (serverValues : List (String × Json)) : List (String × FNode) → List (String × FNode)
  | [] => []
  | (childKey, childNode) :: rest =>
    (childKey, resolveDeferredValueSnapshot serverValues childNode) :: resolveChildren serverValues rest

end

end FServerValues

end SimpleSNS
