import SimpleSNS.Database.FNode
import SimpleSNS.Database.FValidation

/-!
Values on their way into the local database and out of it: what `nodeFrom` accepts and makes of it, and what a node
exports.
-/

namespace SimpleSNS
open Std Sorted FUtilities

def kFirebaseMaxObjectDepth : Nat := 1000

def kFirebaseMaxLeafSize : Nat := 1024 * 1024 * 10

inductive FirebaseException where
  | invalidFirebaseData (reason : String)
  | invalidLeafValueType (reason : String)
  | dictionary (e : DictionaryException)
  deriving DecidableEq

namespace FValidation

/-- The first 50 keys of a path. -/
def pathString (path : List String) : String := ".".intercalate (path.take 50)

def hasKey (key : String) (fields : List (String × Json)) : Bool := (fields.lookup key).isSome

def isValidLeafValue (fn : String) (path : List String) : Json → Except FirebaseException Bool
  | .str s =>
    if kFirebaseMaxLeafSize < s.utf8ByteSize then
      .error <| .invalidFirebaseData <| "(" ++ fn ++ ") String exceeds max size of " ++
        toString kFirebaseMaxLeafSize ++ " utf8 bytes: " ++ pathString path
    else .ok true
  | .num _ => .ok true
  | .bool _ => .ok true
  | .obj fields =>
    if hasKey ".sv" fields then
      if fields.length > 1 then
        .error <| .invalidFirebaseData <| "(" ++ fn ++ ") Cannot store other keys with server value keys." ++
          pathString path ++ "."
      else .ok true
    else .ok false
  | .null => .ok true
  | .arr _ => .ok false

def isValidPriorityValue (fn : String) (path : List String) : Json → Except FirebaseException Unit
  | .bool _ =>
    .error <| .invalidFirebaseData <| "(" ++ fn ++ ") Cannot store true/false as priority at path: " ++
      pathString path ++ "."
  | .obj fields =>
    if hasKey ".sv" fields then
      if fields.length > 1 then
        .error <| .invalidFirebaseData <| "(" ++ fn ++
          ") Cannot store other keys with server value keys as priority at path: " ++ pathString path ++ "."
      else .ok ()
    else
      .error <| .invalidFirebaseData <| "(" ++ fn ++ ") Cannot store an NSDictionary as priority at path: " ++
        pathString path ++ "."
  | .arr _ =>
    .error <| .invalidFirebaseData <| "(" ++ fn ++ ") Cannot store an NSArray as priority at path: " ++
      pathString path ++ "."
  | _ => .ok ()

def validDictionaryKey (fn : String) (path : List String) (key : String) : Except FirebaseException Unit :=
  if key ≠ ".priority" ∧ key ≠ ".value" ∧ key ≠ ".sv" ∧ isValidKey key = false then
    .error <| .invalidFirebaseData <| "(" ++ fn ++ ") Invalid key in object at path: " ++ pathString path ++
      ". Keys must be non-empty and cannot contain '/' '.' '#' '$' '[' or ']'"
  else .ok ()

end FValidation

namespace FSnapshotUtilities
open FValidation FNode

/-- The node of a valid priority: `nodeFrom`, of a value that is not a dictionary but for a server value. -/
def priorityFrom (fn : String) (path : List String) (rawPriority : Json) :
    Except FirebaseException (Option Json) := do
  isValidPriorityValue fn path rawPriority
  if rawPriority.isEmpty then return none
  let _ ← isValidLeafValue "nodeFrom:priority:" [] rawPriority
  return some rawPriority

/-- A node of these children, if there are any. -/
def childrenNode (priority : Option Json) (children : List (String × FNode)) : Except FirebaseException FNode :=
  if children.isEmpty then .ok emptyNode
  else if small : children.length < 2 ^ 31 then
    match FImmutableSortedDictionary.fromDictionary keyComparator ⟨children, small⟩ with
    | .ok d => .ok (.children priority d.isTree d.entries)
    | .error e => .error (.dictionary e)
  else .error (.dictionary .outOfRange)

def maxDepthExceeded (fn : String) (path : List String) : FirebaseException :=
  .invalidFirebaseData <| "(" ++ fn ++ ") Max object depth exceeded: " ++ ".".intercalate (path.take 100) ++ "..."

/-- The priority that a dictionary gives itself, in place of the one that it is given. -/
def ownPriority (fn : String) (path : List String) (priority : Option Json) (fields : List (String × Json)) :
    Except FirebaseException (Option Json) :=
  match fields.lookup ".priority" with
  | some rawPriority => priorityFrom fn path rawPriority
  | none => .ok priority

/-- The leaf that a dictionary is: by its `.value`, or as a server value. -/
def leafValue? (fn : String) (path : List String) (fields : List (String × Json)) :
    Except FirebaseException (Option Json) :=
  match fields.lookup ".value" with
  | some value => do
    if ← isValidLeafValue fn path value then return some value
    else
      throw <| .invalidLeafValueType <| "(" ++ fn ++ ") Invalid data type used with .value. Can only use " ++
        "NSString and NSNumber or be null."
  | none => do
    if ← isValidLeafValue fn path (.obj fields) then return some (.obj fields) else return none

mutual

def internalNodeFrom (fn : String) : Json → Json → Nat → List String → Except FirebaseException FNode
  | val, aPriority, depth, path => do
    if depth > kFirebaseMaxObjectDepth then throw (maxDepthExceeded fn path)
    match val with
    | .null => return emptyNode
    | .obj fields =>
      let priority ← priorityFrom fn path aPriority
      let priority ← ownPriority fn path priority fields
      match ← leafValue? fn path fields with
      | some value => return leaf value priority
      | none => childrenNode priority (← fieldNodes fn fields depth path)
    | .arr items =>
      let priority ← priorityFrom fn path aPriority
      childrenNode priority (← itemNodes fn items 0 depth path)
    | value =>
      let priority ← priorityFrom fn path aPriority
      let _ ← isValidLeafValue fn path value
      return leaf value priority

def fieldNodes (fn : String) :
    List (String × Json) → Nat → List String → Except FirebaseException (List (String × FNode))
  | [], _, _ => return []
  | (key, val) :: rest, depth, path => do
    validDictionaryKey fn path key
    if key.toList.head? = some '.' then fieldNodes fn rest depth path
    else
      let child ← internalNodeFrom fn val .null (depth + 1) (path ++ [key])
      let rest ← fieldNodes fn rest depth path
      return if child.isEmpty then rest else (key, child) :: rest

def itemNodes (fn : String) :
    List Json → Nat → Nat → List String → Except FirebaseException (List (String × FNode))
  | [], _, _, _ => return []
  | val :: rest, i, depth, path => do
    let child ← internalNodeFrom fn val .null (depth + 1) (path ++ [toString i])
    let rest ← itemNodes fn rest (i + 1) depth path
    return if child.isEmpty then rest else (toString i, child) :: rest

end

def isScalar : Json → Bool
  | .str _ => true
  | .num _ => true
  | .bool _ => true
  | _ => false

/-- A dictionary with neither of the two keys is no leaf. -/
theorem leafValue?_none {fields : List (String × Json)} (bare : fields.lookup ".value" = none)
    (server : fields.lookup ".sv" = none) (fn : String) (path : List String) :
    leafValue? fn path fields = .ok none := by
  have key : hasKey ".sv" fields = false := by rw [hasKey, server, Option.isSome_none]
  have unheld : isValidLeafValue fn path (.obj fields) = .ok false := if_neg (by simp [key])
  unfold leafValue?
  rw [bare, unheld]
  rfl

section Depth
variable {fn : String} {aPriority : Json} {depth : Nat} {path : List String}
  (room : depth ≤ kFirebaseMaxObjectDepth)
include room

theorem internalNodeFrom_null : internalNodeFrom fn .null aPriority depth path = .ok emptyNode := by
  rw [internalNodeFrom, if_neg (Nat.not_lt_of_le room)]
  rfl

theorem internalNodeFrom_obj (fields : List (String × Json)) :
    internalNodeFrom fn (.obj fields) aPriority depth path = (do
      let priority ← priorityFrom fn path aPriority
      let priority ← ownPriority fn path priority fields
      match ← leafValue? fn path fields with
      | some value => return leaf value priority
      | none => childrenNode priority (← fieldNodes fn fields depth path)) := by
  rw [internalNodeFrom, if_neg (Nat.not_lt_of_le room)]

theorem internalNodeFrom_arr (items : List Json) :
    internalNodeFrom fn (.arr items) aPriority depth path = (do
      let priority ← priorityFrom fn path aPriority
      childrenNode priority (← itemNodes fn items 0 depth path)) := by
  rw [internalNodeFrom, if_neg (Nat.not_lt_of_le room)]

/-- A string, a number or a boolean. -/
theorem internalNodeFrom_scalar {value : Json} (scalar : isScalar value = true) :
    internalNodeFrom fn value aPriority depth path = (do
      let priority ← priorityFrom fn path aPriority
      let _ ← isValidLeafValue fn path value
      return leaf value priority) := by
  cases value with
  | null | arr | obj => cases scalar
  | bool | num | str => rw [internalNodeFrom, if_neg (Nat.not_lt_of_le room)] <;> simp

/-! What comes of it, without a priority from outside. -/

theorem internalNodeFrom_leaf {fields : List (String × Json)} {priority : Option Json} {value : Json}
    (own : ownPriority fn path none fields = .ok priority) (held : leafValue? fn path fields = .ok (some value)) :
    internalNodeFrom fn (.obj fields) .null depth path = .ok (leaf value priority) := by
  have none : priorityFrom fn path .null = .ok none := rfl
  rw [internalNodeFrom_obj room, none]
  simp only [bind, Except.bind, own, held]
  rfl

theorem internalNodeFrom_children {fields : List (String × Json)} {priority : Option Json}
    {children : List (String × FNode)} (own : ownPriority fn path none fields = .ok priority)
    (unheld : leafValue? fn path fields = .ok none) (nodes : fieldNodes fn fields depth path = .ok children) :
    internalNodeFrom fn (.obj fields) .null depth path = childrenNode priority children := by
  have none : priorityFrom fn path .null = .ok none := rfl
  rw [internalNodeFrom_obj room, none]
  simp only [bind, Except.bind, own, unheld, nodes]

theorem internalNodeFrom_items {items : List Json} {children : List (String × FNode)}
    (nodes : itemNodes fn items 0 depth path = .ok children) :
    internalNodeFrom fn (.arr items) .null depth path = childrenNode none children := by
  have none : priorityFrom fn path .null = .ok none := rfl
  rw [internalNodeFrom_arr room, none]
  simp only [bind, Except.bind, nodes]

end Depth

def nodeFrom (val : Json) (priority : Json) (fn : String) : Except FirebaseException FNode :=
  internalNodeFrom fn val priority 0 []

end FSnapshotUtilities

/-! ### The value of a node -/

/-- Of an ASCII string, which is an integer if it is digits only; one that is too large is the largest there is. -/
def FUtilities.intForString (string : String) : Option Nat :=
  if string.toList ≠ [] ∧ string.toList.all Char.isDigit then
    some (min (Nat.ofDigitChars 10 string.toList 0) (2 ^ 63 - 1))
  else none

namespace FNode

/-- A leading zero makes a string of a key, but for `0` itself. -/
def integerKey (key : String) : Option Nat :=
  if key.toList.head? = some '0' ∧ key.length > 1 then none else intForString key

/-- The largest of the keys, if all are integers. -/
def maxKey : List String → Option Nat
  | [] => some 0
  | key :: rest =>
    match integerKey key, maxKey rest with
    | some keyAsInt, some maxKey => some (max keyAsInt maxKey)
    | _, _ => none

/-- The length of the array that these keys make, if they do. -/
def arrayLength (keys : List String) : Option Nat :=
  match maxKey keys with
  | some maxKey => if maxKey < 2 * keys.length then some (maxKey + 1) else none
  | none => none

mutual

def valForExport (exp : Bool) : FNode → Json
  | leaf value priority =>
    match exp, priority with
    | true, some priority => .obj [(".value", value), (".priority", priority)]
    | _, _ => value
  | children priority _ entries =>
    let obj := valsForExport exp entries
    if entries.isEmpty then .null
    else
      match exp, priority with
      | false, _ =>
        match arrayLength (entries.map Prod.fst) with
        | some length => .arr ((List.range length).map fun i => Json.lookup (toString i) obj)
        | none => .obj obj
      | true, some priority => .obj (obj ++ [(".priority", priority)])
      | true, none => .obj obj

def valsForExport (exp : Bool) : List (String × FNode) → List (String × Json)
  | [] => []
  | (key, node) :: rest => (key, valForExport exp node) :: valsForExport exp rest

end

end FNode

end SimpleSNS
