import Mathlib.Data.List.Basic
import Mathlib.Data.Rat.Defs

/-!
JSON values as the nodes of a tree database. A node with no value and no children does not
exist: `null` is its only representation, and writing `null` removes a child, up to and
including the parents that lose their last child. Values are addressed by paths of keys.
-/

/-- Numbers are finite doubles, kept as the rationals they are. -/
inductive Json where
  | null
  | bool (value : Bool)
  | num (value : Rat)
  | str (value : String)
  | arr (items : List Json)
  | obj (fields : List (String × Json))
  deriving Inhabited

namespace Json

def isEmpty : Json → Bool
  | null => true
  | _ => false

@[simp] theorem isEmpty_iff {j : Json} : j.isEmpty = true ↔ j = null := by
  cases j <;> simp [isEmpty]

@[simp] theorem isEmpty_eq_false {j : Json} : j.isEmpty = false ↔ j ≠ null := by
  cases j <;> simp [isEmpty]

def lookup (k : String) : List (String × Json) → Json
  | [] => null
  | (k', v) :: rest => if k' = k then v else lookup k rest

def getImmediateChild : Json → String → Json
  | obj fields, k => lookup k fields
  | _, _ => null

/-- The fields other than `k`. -/
def without (k : String) (fields : List (String × Json)) : List (String × Json) :=
  fields.filter fun field => field.1 != k

def children (fields : List (String × Json)) : Json :=
  if fields.isEmpty then null else obj fields

/-- A scalar keeps its value when a child below it is removed, and loses it to a new child. -/
def updateImmediateChild (j : Json) (k : String) (v : Json) : Json :=
  match j with
  | obj fields => children (without k fields ++ if v.isEmpty then [] else [(k, v)])
  | leaf => if v.isEmpty then leaf else obj [(k, v)]

def getChild : Json → List String → Json
  | j, [] => j
  | j, k :: path => (j.getImmediateChild k).getChild path

def updateChild : Json → List String → Json → Json
  | _, [], v => v
  | j, k :: path, v => j.updateImmediateChild k ((j.getImmediateChild k).updateChild path v)

/-! ### One level -/

theorem lookup_append (k : String) (l m : List (String × Json)) :
    lookup k (l ++ m) = if k ∈ l.map Prod.fst then lookup k l else lookup k m := by
  induction l with
  | nil => simp
  | cons field rest ih =>
    obtain ⟨k', v⟩ := field
    by_cases same : k' = k
    · simp [lookup, same]
    · simp only [List.cons_append, lookup, if_neg same, ih, List.map_cons, List.mem_cons,
        Ne.symm same, false_or]

theorem without_keys (k : String) (fields : List (String × Json)) :
    (without k fields).map Prod.fst = (fields.map Prod.fst).filter (· != k) := by
  rw [without, List.filter_map]
  rfl

theorem lookup_absent {k : String} {fields : List (String × Json)}
    (absent : k ∉ fields.map Prod.fst) : lookup k fields = null := by
  induction fields with
  | nil => rfl
  | cons field rest ih =>
    obtain ⟨k', v⟩ := field
    simp only [List.map_cons, List.mem_cons, not_or] at absent
    rw [lookup, if_neg (Ne.symm absent.1), ih absent.2]

theorem lookup_without_self (k : String) (fields : List (String × Json)) :
    lookup k (without k fields) = null := by
  apply lookup_absent
  rw [without_keys]
  simp

theorem lookup_without_other {k k' : String} (different : k' ≠ k)
    (fields : List (String × Json)) : lookup k' (without k fields) = lookup k' fields := by
  induction fields with
  | nil => rfl
  | cons field rest ih =>
    obtain ⟨key, v⟩ := field
    by_cases same : key = k
    · have apart : key ≠ k' := fun h => different (h.symm.trans same)
      rw [lookup, if_neg apart, ← ih]
      simp [without, same]
    · have kept : without k ((key, v) :: rest) = (key, v) :: without k rest := by
        simp [without, same]
      rw [kept, lookup, lookup, ih]

theorem children_lookup (fields : List (String × Json)) (k : String) :
    (children fields).getImmediateChild k = lookup k fields := by
  cases fields <;> rfl

theorem updateImmediateChild_self (j : Json) (k : String) (v : Json) :
    (j.updateImmediateChild k v).getImmediateChild k = v := by
  have written : lookup k (if v.isEmpty then [] else [(k, v)]) = v := by
    split
    · rename_i empty
      exact (isEmpty_iff.mp empty).symm
    · simp [lookup]
  cases j with
  | obj fields =>
    rw [updateImmediateChild, children_lookup, lookup_append, lookup_without_self, written]
    split
    · rename_i member
      rw [without_keys] at member
      simp at member
    · rfl
  | _ =>
    simp only [updateImmediateChild]
    split
    · rename_i empty
      rw [isEmpty_iff.mp empty]
      rfl
    · simp [getImmediateChild, lookup]

theorem updateImmediateChild_other (j : Json) {k k' : String} (different : k' ≠ k) (v : Json) :
    (j.updateImmediateChild k v).getImmediateChild k' = j.getImmediateChild k' := by
  have unwritten : lookup k' (if v.isEmpty then [] else [(k, v)]) = null := by
    split
    · rfl
    · simp [lookup, Ne.symm different]
  cases j with
  | obj fields =>
    rw [updateImmediateChild, children_lookup, lookup_append, unwritten,
      lookup_without_other different]
    split
    · rfl
    · rename_i absent
      have gone : k' ∉ fields.map Prod.fst := by
        intro member
        rw [without_keys] at absent
        exact absent (List.mem_filter.mpr ⟨member, by simpa using different⟩)
      exact (lookup_absent gone).symm
  | _ =>
    simp only [updateImmediateChild]
    split
    · rfl
    · simp [getImmediateChild, lookup, Ne.symm different]

/-! ### Paths -/

@[simp] theorem getChild_nil (j : Json) : j.getChild [] = j := by cases j <;> rfl

@[simp] theorem getChild_cons (j : Json) (k : String) (path : List String) :
    j.getChild (k :: path) = (j.getImmediateChild k).getChild path := by
  cases j <;> rfl

@[simp] theorem updateChild_nil (j v : Json) : j.updateChild [] v = v := by cases j <;> rfl

@[simp] theorem updateChild_cons (j v : Json) (k : String) (path : List String) :
    j.updateChild (k :: path) v =
      j.updateImmediateChild k ((j.getImmediateChild k).updateChild path v) := by
  cases j <;> rfl

@[simp] theorem null_getChild (path : List String) : null.getChild path = null := by
  induction path with
  | nil => rfl
  | cons k path ih => rw [getChild_cons]; exact ih

/-- A write at `p` is read back at `p`, and below it the written value is read. -/
theorem getChild_updateChild_below (j v : Json) (p q : List String) :
    (j.updateChild p v).getChild (p ++ q) = v.getChild q := by
  induction p generalizing j with
  | nil => simp
  | cons k p ih => simp [updateImmediateChild_self, ih]

@[simp] theorem getChild_updateChild_self (j v : Json) (p : List String) :
    (j.updateChild p v).getChild p = v := by
  simpa using getChild_updateChild_below j v p []

/-- A write below `p` is a write inside the node at `p`. -/
theorem getChild_updateChild_above (j v : Json) (p q : List String) :
    (j.updateChild (p ++ q) v).getChild p = (j.getChild p).updateChild q v := by
  induction p generalizing j with
  | nil => simp
  | cons k p ih => simp [updateImmediateChild_self, ih]

/-- Two paths part when neither continues the other. -/
def Apart : List String → List String → Prop
  | k :: p, k' :: q => k ≠ k' ∨ Apart p q
  | _, _ => False

instance : (p q : List String) → Decidable (Apart p q)
  | [], _ => isFalse id
  | _ :: _, [] => isFalse id
  | k :: p, k' :: q =>
    have := instDecidableApart p q
    inferInstanceAs (Decidable (k ≠ k' ∨ Apart p q))

theorem Apart.append {p q : List String} (r s : List String) (apart : Apart p q) :
    Apart (p ++ r) (q ++ s) := by
  induction p generalizing q with
  | nil => exact apart.elim
  | cons k p ih =>
    cases q with
    | nil => exact apart.elim
    | cons k' q => exact apart.imp id ih

/-- The frame of a write: every path that parts from it reads the same. -/
theorem getChild_updateChild_apart (j v : Json) {p q : List String} (apart : Apart p q) :
    (j.updateChild p v).getChild q = j.getChild q := by
  induction p generalizing j q with
  | nil => exact apart.elim
  | cons k p ih =>
    cases q with
    | nil => exact apart.elim
    | cons k' q =>
      by_cases same : k = k'
      · subst same
        have rest : Apart p q := apart.resolve_left fun h => h rfl
        simp [updateImmediateChild_self, ih _ rest]
      · simp [updateImmediateChild_other _ (Ne.symm same)]

/-- Removing below a missing node creates nothing. -/
theorem null_updateChild_null (path : List String) : null.updateChild path null = null := by
  induction path with
  | nil => rfl
  | cons k path ih =>
    rw [updateChild_cons]
    show null.updateImmediateChild k (null.updateChild path null) = null
    rw [ih]
    rfl

/-! ### Values on their way in -/

mutual

/-- A value as it is stored: without its nulls, and without the objects that are left empty. -/
def nodeFrom : Json → Json
  | obj fields => children (fieldsFrom fields)
  | v => v

def fieldsFrom : List (String × Json) → List (String × Json)
  | [] => []
  | (k, v) :: rest =>
    let node := nodeFrom v
    if node.isEmpty then fieldsFrom rest else (k, node) :: fieldsFrom rest

end

theorem fieldsFrom_keys (fields : List (String × Json)) :
    ((fieldsFrom fields).map Prod.fst).Sublist (fields.map Prod.fst) := by
  induction fields with
  | nil => simp [fieldsFrom]
  | cons field rest ih =>
    obtain ⟨k, v⟩ := field
    simp only [fieldsFrom]
    split
    · exact ih.cons _
    · exact ih.cons_cons _

theorem fieldsFrom_lookup {fields : List (String × Json)} (unique : (fields.map Prod.fst).Nodup)
    (k : String) : lookup k (fieldsFrom fields) = nodeFrom (lookup k fields) := by
  induction fields with
  | nil => simp [fieldsFrom, lookup, nodeFrom]
  | cons field rest ih =>
    obtain ⟨k', v⟩ := field
    obtain ⟨fresh, unique⟩ := List.nodup_cons.mp unique
    have skipped : lookup k' (fieldsFrom rest) = null :=
      lookup_absent fun member => fresh ((fieldsFrom_keys rest).subset member)
    simp only [fieldsFrom]
    split
    · rename_i empty
      by_cases same : k' = k
      · subst same
        rw [skipped, lookup, if_pos rfl, isEmpty_iff.mp empty]
      · rw [lookup, if_neg same, ih unique]
    · by_cases same : k' = k
      · rw [lookup, lookup, if_pos same, if_pos same]
      · rw [lookup, lookup, if_neg same, if_neg same, ih unique]

/-- A stored object is read back field by field. -/
theorem nodeFrom_getImmediateChild {fields : List (String × Json)}
    (unique : (fields.map Prod.fst).Nodup) (k : String) :
    (nodeFrom (obj fields)).getImmediateChild k = nodeFrom (lookup k fields) := by
  rw [nodeFrom, children_lookup, fieldsFrom_lookup unique]

/-- Several children are written, one after the other. -/
def updateChildren (j : Json) (fields : List (String × Json)) : Json :=
  fields.foldl (fun j field => j.updateImmediateChild field.1 field.2.nodeFrom) j

/-- Every written child reads as its new value and the others read as before. -/
theorem updateChildren_get (j : Json) {fields : List (String × Json)}
    (unique : (fields.map Prod.fst).Nodup) (k : String) :
    (j.updateChildren fields).getImmediateChild k =
      if k ∈ fields.map Prod.fst then nodeFrom (lookup k fields) else j.getImmediateChild k := by
  induction fields generalizing j with
  | nil => rfl
  | cons field rest ih =>
    obtain ⟨k', v⟩ := field
    obtain ⟨fresh, unique⟩ := List.nodup_cons.mp unique
    have later := ih (j.updateImmediateChild k' v.nodeFrom) unique
    show ((j.updateImmediateChild k' v.nodeFrom).updateChildren rest).getImmediateChild k = _
    rw [later]
    by_cases same : k' = k
    · subst same
      rw [if_neg fresh, if_pos (by simp), updateImmediateChild_self, lookup, if_pos rfl]
    · have other := updateImmediateChild_other j (Ne.symm same) v.nodeFrom
      rw [other, lookup, if_neg same]
      simp only [List.map_cons, List.mem_cons, Ne.symm same, false_or]

/-- Writing several children of the node at `path` is updating that node. -/
theorem getChild_updates (j : Json) (path : List String) (fields : List (String × Json)) :
    (fields.foldl (fun j field => j.updateChild (path ++ [field.1]) field.2.nodeFrom) j).getChild path =
      (j.getChild path).updateChildren fields := by
  induction fields generalizing j with
  | nil => rfl
  | cons field rest ih =>
    rw [List.foldl_cons, ih, getChild_updateChild_above, updateChild_cons, updateChild_nil]
    rfl

theorem getChild_updates_apart (j : Json) {path q : List String} (apart : Apart path q)
    (fields : List (String × Json)) :
    (fields.foldl (fun j field => j.updateChild (path ++ [field.1]) field.2.nodeFrom) j).getChild q =
      j.getChild q := by
  induction fields generalizing j with
  | nil => rfl
  | cons field rest ih =>
    have field_apart : Apart (path ++ [field.1]) q := by simpa using apart.append [field.1] []
    rw [List.foldl_cons, ih, getChild_updateChild_apart _ _ field_apart]

@[simp] theorem nodeFrom_str (s : String) : nodeFrom (str s) = str s := by simp [nodeFrom]
@[simp] theorem nodeFrom_null : nodeFrom null = null := by simp [nodeFrom]

end Json
