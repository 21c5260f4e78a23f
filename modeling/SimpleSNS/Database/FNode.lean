import SimpleSNS.Database.FImmutableSortedDictionary
import SimpleSNS.Json.Tree

/-!
The nodes of the local database: a leaf holds a value, the others children in a sorted dictionary, and each may have
a priority. A dictionary is here what its operations let through: the entries, and whether they are in a tree.
-/

namespace SimpleSNS
open Std Sorted

def FUtilities.keyComparator (a b : String) : Ordering := compareKey (.string (.of a)) (.string (.of b))

open FUtilities

instance : TransCmp keyComparator where
  eq_swap := by
    intro a b
    exact @OrientedCmp.eq_swap _ compareKey _ _ _
  isLE_trans := by
    intro a b c ab bc
    exact @TransCmp.isLE_trans _ compareKey _ _ _ _ ab bc

/-- A priority is the value of a leaf that has none itself. -/
inductive FNode where
  | leaf (value : Json) (priorityNode : Option Json)
  | children (priorityNode : Option Json) (isTree : Bool) (entries : List (String × FNode))

namespace FNode

def emptyNode : FNode := children none false []

instance : Inhabited FNode := ⟨emptyNode⟩

def isEmpty : FNode → Bool
  | leaf _ _ => false
  | children _ _ entries => entries.isEmpty

def priorityNode : FNode → Option Json
  | leaf _ priority => priority
  | children priority _ _ => priority

def getPriority (node : FNode) : FNode :=
  match node.priorityNode with
  | some priority => leaf priority none
  | none => emptyNode

/-- What `validatePriorityNode` lets through: a leaf, or no priority. -/
def asPriority : FNode → Option Json
  | leaf value _ => some value
  | children _ _ _ => none

def updatePriority (node aPriority : FNode) : FNode :=
  match node with
  | leaf value _ => leaf value aPriority.asPriority
  | children _ isTree entries =>
    if entries.isEmpty then emptyNode else children aPriority.asPriority isTree entries

def getImmediateChild (node : FNode) (childName : String) : FNode :=
  if childName = ".priority" then node.getPriority
  else
    match node with
    | leaf _ _ => emptyNode
    | children _ _ entries => (find keyComparator childName entries).getD emptyNode

/-- The dictionary of the children, with one of them written or removed. -/
def newChildren (childName : String) (newChild : FNode) (isTree : Bool) (entries : List (String × FNode)) :
    Bool × List (String × FNode) :=
  if newChild.isEmpty then (isTree, erase keyComparator childName entries)
  else setObject keyComparator childName newChild isTree entries

def updateImmediateChild (node : FNode) (childName : String) (newChild : FNode) : FNode :=
  if childName = ".priority" then node.updatePriority newChild
  else
    match node with
    | leaf value priority =>
      if newChild.isEmpty then leaf value priority
      else
        let (isTree, entries) := newChildren childName newChild false []
        children priority isTree entries
    | children priority isTree entries =>
      let (isTree, entries) := newChildren childName newChild isTree entries
      if entries.isEmpty then emptyNode else children priority isTree entries

def getChild : FNode → List String → FNode
  | node, [] => node
  | leaf value priority, front :: _ =>
    if front = ".priority" then (leaf value priority).getPriority else emptyNode
  | node, front :: path => (node.getImmediateChild front).getChild path

def updateChild : FNode → List String → FNode → FNode
  | _, [], newChild => newChild
  | leaf value priority, front :: path, newChild =>
    if newChild.isEmpty ∧ front ≠ ".priority" then leaf value priority
    else (leaf value priority).updateImmediateChild front (emptyNode.updateChild path newChild)
  | node, front :: path, newChild =>
    node.updateImmediateChild front ((node.getImmediateChild front).updateChild path newChild)

end FNode

end SimpleSNS
