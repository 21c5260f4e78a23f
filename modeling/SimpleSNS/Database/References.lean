import Mathlib.Data.List.Infix
import SimpleSNS.Database.FPath
import SimpleSNS.Database.FServerValues

/-!
What the local database reads as, after writes through references: what was last written where it was written, and
everywhere else what was there.
-/

namespace SimpleSNS
open Std Sorted FUtilities FValidation FSnapshotUtilities FServerValues Async

namespace FNode

/-! ### Reading what was written -/

theorem WellFormed.empty {node : FNode} (well : WellFormed node) (nothing : node.isEmpty = true) :
    node = emptyNode := by
  rcases well with same | valid
  · exact same
  · rw [valid.isEmpty] at nothing
    cases nothing

theorem empty_getImmediateChild (childName : String) : emptyNode.getImmediateChild childName = emptyNode := by
  unfold getImmediateChild
  split
  · rfl
  · rfl

theorem empty_getChild (path : List String) : emptyNode.getChild path = emptyNode := by
  induction path with
  | nil => rw [getChild.eq_def]
  | cons front path ih =>
    rw [emptyNode, getChild]
    · show (emptyNode.getImmediateChild front).getChild path = _
      rw [empty_getImmediateChild, ih]
      rfl
    · intro _ _ same
      cases same

/-- Below a valid key a node reads as its children do. -/
theorem getChild_cons (node : FNode) {front : String} (valid : isValidKey front = true) (path : List String) :
    node.getChild (front :: path) = (node.getImmediateChild front).getChild path := by
  cases node with
  | leaf value priority =>
    rw [getChild, getImmediateChild, if_neg (valid_ne valid).1, empty_getChild]
  | children priority isTree entries =>
    rw [getChild]
    intro _ _ same
    cases same

theorem empty_updateChild (path : List String) (keys : ∀ key ∈ path, isValidKey key = true) :
    emptyNode.updateChild path emptyNode = emptyNode := by
  induction path with
  | nil => rw [updateChild.eq_def]
  | cons front path ih =>
    obtain ⟨valid, keys⟩ := List.forall_mem_cons.mp keys
    rw [emptyNode, updateChild]
    · show emptyNode.updateImmediateChild front ((emptyNode.getImmediateChild front).updateChild path emptyNode) = _
      rw [empty_getImmediateChild, ih keys]
      unfold updateImmediateChild
      rw [if_neg (valid_ne valid).1]
      rfl
    · intro _ _ same
      cases same

/-- A write below a valid key is a write to that child, of a leaf too. -/
theorem updateChild_cons {node newChild : FNode} {front : String} {path : List String}
    (keys : ∀ key ∈ front :: path, isValidKey key = true) (well' : WellFormed newChild) :
    node.updateChild (front :: path) newChild =
      node.updateImmediateChild front ((node.getImmediateChild front).updateChild path newChild) := by
  obtain ⟨valid, keys⟩ := List.forall_mem_cons.mp keys
  have plain := (valid_ne valid).1
  cases node with
  | leaf value priority =>
    have nothing_below : (leaf value priority).getImmediateChild front = emptyNode := if_neg plain
    rw [updateChild, nothing_below]
    split
    · rename_i nothing
      rw [well'.empty nothing.1, empty_updateChild path keys, updateImmediateChild, if_neg plain]
      rfl
    · rfl
  | children priority isTree entries =>
    rw [updateChild]
    intro _ _ same
    cases same

/-- Where two paths first differ, they differ for the comparator too. -/
inductive Apart : List String → List String → Prop where
  | differ {a b : String} {path path' : List String} (apart : keyComparator b a ≠ .eq) :
    Apart (a :: path) (b :: path')
  | share {a : String} {path path' : List String} (apart : Apart path path') : Apart (a :: path) (a :: path')

section Written
variable {node newChild : FNode} (well : WellFormed node) (well' : WellFormed newChild)
include well well'

end Written

end FNode

/-! ### References -/

inductive ReferenceException where
  | invalidPathValidation (reason : String)
  | writablePathValidation (reason : String)
  | firebase (e : FirebaseException)
  deriving DecidableEq

namespace FValidation

def validPathString (fn pathString : String) : Except ReferenceException Unit :=
  if isValidPathString pathString = false then
    .error <| .invalidPathValidation <| "(" ++ fn ++
      ") Must be a non-empty string and not contain '.' '#' '$' '[' or ']'"
  else .ok ()

/-- `dotInfoRegex` takes a leading `.info` out. -/
def validRootPathString (dotInfoRegex : String → String) (fn pathString : String) :
    Except ReferenceException Unit :=
  let tempPath := if ".info".toList <:+: pathString.toList then dotInfoRegex pathString else pathString
  validPathString fn tempPath

def writablePath (fn : String) (path : FPath) : Except ReferenceException Unit :=
  if path.getFront = some ".info" then
    .error <| .writablePathValidation <| "(" ++ fn ++ ") failed to path " ++ path.toString ++
      ": Can't modify data under .info"
  else .ok ()

end FValidation

namespace FIRDatabaseReference

def root : FPath := .initWith ""

def child (dotInfoRegex : String → String) (path : FPath) (pathString : String) :
    Except ReferenceException FPath := do
  if path.getFront = none then validRootPathString dotInfoRegex "child:" pathString
  else validPathString "child:" pathString
  return path.childFromString pathString

/-- The reference that `child:` makes of one string after another. -/
def reference (dotInfoRegex : String → String) (strings : List String) : Except ReferenceException FPath :=
  strings.foldlM (child dotInfoRegex) root

/-- The node in its place, with the server's time where that is asked for. -/
def set (node : FNode) (path : FPath) (newNode : FNode) (millis : Int) : FNode :=
  node.updateChild path.rest (resolveDeferredValueSnapshot (generateServerValues millis) newNode)

def setValueInternal (fn : String) (node : FNode) (path : FPath) (value priority : Json) (millis : Int) :
    Except ReferenceException FNode := do
  writablePath fn path
  match nodeFrom value priority fn with
  | .ok newNode => return set node path newNode millis
  | .error e => throw (.firebase e)

/-- `millis` is what the server's clock is taken to show. -/
structure SetValue where
  strings : List String
  value : Json
  priority : Json
  millis : Int

def setValue (dotInfoRegex : String → String) (fn : String) (node : FNode) (w : SetValue) :
    Except ReferenceException FNode := do
  let path ← reference dotInfoRegex w.strings
  setValueInternal fn node path w.value w.priority w.millis

variable {dotInfoRegex : String → String}

end FIRDatabaseReference

end SimpleSNS
