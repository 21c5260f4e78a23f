import SimpleSNS.Json.Object

/-!
Nodes all of whose keys, at every depth, satisfy a predicate. A write keeps that if the keys of its
path and of its value satisfy it.
-/

namespace Json

inductive Keys (P : String → Prop) : Json → Prop where
  | null : Keys P .null
  | bool (value : Bool) : Keys P (.bool value)
  | num (value : Rat) : Keys P (.num value)
  | str (value : String) : Keys P (.str value)
  | arr (items : List Json) (below : ∀ item ∈ items, Keys P item) : Keys P (.arr items)
  | obj (fields : List (String × Json)) (names : ∀ field ∈ fields, P field.1)
      (below : ∀ field ∈ fields, Keys P field.2) : Keys P (.obj fields)

namespace Keys

variable {P : String → Prop} {j v : Json}

theorem lookup {fields : List (String × Json)} (below : ∀ field ∈ fields, Keys P field.2) (k : String) :
    Keys P (Json.lookup k fields) := by
  by_cases found : Json.lookup k fields = .null
  · rw [found]
    exact .null
  · exact below _ (mem_lookup found)

theorem getImmediateChild (keys : Keys P j) (k : String) : Keys P (j.getImmediateChild k) := by
  cases keys with
  | obj fields names below => exact lookup below k
  | _ => exact .null

theorem children {fields : List (String × Json)} (names : ∀ field ∈ fields, P field.1)
    (below : ∀ field ∈ fields, Keys P field.2) : Keys P (Json.children fields) := by
  unfold Json.children
  split
  · exact .null
  · exact .obj fields names below

theorem updateImmediateChild (keys : Keys P j) {k : String} (name : P k) (value : Keys P v) :
    Keys P (j.updateImmediateChild k v) := by
  have written : ∀ field ∈ (if v.isEmpty then [] else [(k, v)]), P field.1 ∧ Keys P field.2 := by
    intro field member
    split at member
    · cases member
    · obtain rfl := List.mem_singleton.mp member
      exact ⟨name, value⟩
  have scalar : Keys P j → Keys P (if v.isEmpty then j else .obj [(k, v)]) := by
    intro keys
    split
    · exact keys
    · refine .obj _ ?_ ?_
      · intro field member
        obtain rfl := List.mem_singleton.mp member
        exact name
      · intro field member
        obtain rfl := List.mem_singleton.mp member
        exact value
  cases keys with
  | obj fields names below =>
    refine children ?_ ?_
    · intro field member
      rcases List.mem_append.mp member with old | new
      · exact names field (List.mem_filter.mp old).1
      · exact (written field new).1
    · intro field member
      rcases List.mem_append.mp member with old | new
      · exact below field (List.mem_filter.mp old).1
      · exact (written field new).2
  | null => exact scalar .null
  | bool b => exact scalar (.bool b)
  | num n => exact scalar (.num n)
  | str s => exact scalar (.str s)
  | arr items below => exact scalar (.arr items below)

theorem updateChild (keys : Keys P j) {path : List String} (names : ∀ k ∈ path, P k) (value : Keys P v) :
    Keys P (j.updateChild path v) := by
  induction path generalizing j with
  | nil =>
    rw [updateChild_nil]
    exact value
  | cons k path ih =>
    obtain ⟨name, later⟩ := List.forall_mem_cons.mp names
    rw [updateChild_cons]
    exact keys.updateImmediateChild name (ih (keys.getImmediateChild k) later)

theorem nodeFrom (keys : Keys P j) : Keys P j.nodeFrom := by
  induction keys with
  | obj fields names below ih =>
    have stored : ∀ field ∈ fieldsFrom fields, P field.1 ∧ Keys P field.2 :=
      fieldsFrom_holds (P := fun name value => P name ∧ Keys P value) fun field member =>
        Or.inr ⟨names field member, ih field member⟩
    rw [Json.nodeFrom]
    exact children (fun field member => (stored field member).1) fun field member => (stored field member).2
  | null => exact .null
  | bool b => exact .bool b
  | num n => exact .num n
  | str s => exact .str s
  | arr items below => exact .arr items below

end Keys

end Json
