import Mathlib.Data.Finset.Erase
import Mathlib.Data.Finset.Insert
import Mathlib.Logic.Function.Basic
import SimpleSNS.Json.Object

/-!
A node whose children are the encoded entries of a finite map. Writing one child updates the map at
its key, and a reader that casts the node gets the decoded entries. A set of keys is a map to `Unit`.
-/

namespace Json

variable {α β : Type} {encode : α → Json} {m : String → Option α} {j : Json}

/-- The value written for an entry, `null` for none. -/
def entry (encode : α → Json) (x : Option α) : Json := (x.map encode).getD null

/-- The children of `j` are the entries of `m`. -/
structure Table (encode : α → Json) (m : String → Option α) (j : Json) : Prop where
  node : Node (fun _ v => ∃ x, v = encode x) j
  child : ∀ k, j.getImmediateChild k = entry encode (m k)

theorem Table.empty (encode : α → Json) : Table encode (fun _ => none) null :=
  ⟨Or.inl rfl, fun _ => rfl⟩

theorem entry_value (encode : α → Json) (x : Option α) :
    entry encode x = null ∨ ∃ y, entry encode x = encode y := by
  cases x with
  | none => exact Or.inl rfl
  | some y => exact Or.inr ⟨y, rfl⟩

theorem Table.update (table : Table encode m j) (k : String) (x : Option α) :
    Table encode (Function.update m k x) (j.updateImmediateChild k (entry encode x)) := by
  refine ⟨table.node.update (entry_value encode x), ?_⟩
  intro k'
  by_cases same : k' = k
  · subst same
    rw [updateImmediateChild_self, Function.update_self]
  · rw [updateImmediateChild_other j same, Function.update_of_ne same, table.child k']

section Reading
variable (nonnull : ∀ x, encode x ≠ null)
include nonnull

theorem entry_null {x : Option α} : entry encode x = null ↔ x = none := by
  cases x with
  | none => exact iff_of_true rfl rfl
  | some y => exact iff_of_false (nonnull y) (Option.some_ne_none y)

theorem Table.absent (table : Table encode m j) : j = null ↔ ∀ k, m k = none := by
  have values : ∀ (_ : String) v, (∃ x, v = encode x) → v ≠ null := by
    rintro _ _ ⟨x, rfl⟩
    exact nonnull x
  rw [table.node.eq_null_iff values]
  constructor
  · intro missing k
    rw [← entry_null nonnull, ← table.child k]
    by_cases filled : m k = none
    · rw [table.child k, filled]
      rfl
    · obtain ⟨x, _⟩ := Option.ne_none_iff_exists'.mp filled
      exact missing k (encode x) ⟨x, rfl⟩
  · intro missing k _ _
    rw [table.child k, missing k]
    rfl

/-- A reader that can cast every entry gets the map, unless there is nothing to read. -/
theorem Table.cast (table : Table encode m j) (cast : Json → Option β) {decode : α → β}
    (decodes : ∀ x, cast (encode x) = some (decode x)) :
    (j = null ∧ ∀ k, m k = none) ∨
      ∃ d : Dict β, (j.dict?.bind fun d => d.cast? cast) = some d ∧ d.entries ≠ [] ∧
        ∀ k, d.get? k = (m k).map decode := by
  by_cases missing : j = null
  · exact Or.inl ⟨missing, (table.absent nonnull).mp missing⟩
  · obtain ⟨fields, rfl, nonempty, unique, values⟩ := table.node.resolve_left missing
    have dict : (obj fields).dict? = some ⟨fields, unique⟩ := dif_pos unique
    have casts : ∀ field ∈ fields, ∃ v, cast field.2 = some v := by
      intro field member
      obtain ⟨x, same⟩ := values field member
      exact ⟨decode x, same ▸ decodes x⟩
    obtain ⟨d, cast_all, read⟩ := Dict.cast?_some (d := ⟨fields, unique⟩) casts
    refine Or.inr ⟨d, by rw [dict]; exact cast_all, ?_, ?_⟩
    · intro none_cast
      obtain ⟨⟨k, v⟩, member⟩ := List.exists_mem_of_ne_nil _ nonempty
      obtain ⟨x, same⟩ := values _ member
      have found := read k
      rw [show Dict.get? ⟨fields, unique⟩ k = some v from Dict.lookup_of_mem unique member] at found
      rw [Option.bind_some, show v = encode x from same, decodes, Dict.get?, none_cast] at found
      cases found
    · intro k
      have child := table.child k
      rw [read k]
      rcases dict?_get? dict k with ⟨unread, gone⟩ | present
      · rw [gone] at child
        rw [unread, (entry_null nonnull).mp child.symm]
        rfl
      · rw [present, Option.bind_some, child]
        cases filled : m k with
        | some x => exact decodes x
        | none =>
          rw [child, filled] at present
          obtain ⟨x, same⟩ := values _ (Dict.mem_of_get? present)
          have missing_value : encode x = null := same.symm
          exact absurd missing_value (nonnull x)

end Reading

/-! ### Sets of keys -/

/-- The map that a set of keys is written as. -/
def listed (s : Finset String) (k : String) : Option Unit := if k ∈ s then some () else none

theorem listed_some {s : Finset String} {k : String} : listed s k = some () ↔ k ∈ s := by
  unfold listed
  split
  · rename_i member
    exact iff_of_true rfl member
  · rename_i missing
    exact iff_of_false (Option.some_ne_none ()).symm missing

theorem listed_none {s : Finset String} {k : String} : listed s k = none ↔ k ∉ s := by
  rw [← listed_some, Option.eq_none_iff_forall_ne_some]
  exact ⟨fun none_found => none_found (), fun unlisted _ => unlisted⟩

theorem listed_insert (s : Finset String) (k : String) :
    listed (insert k s) = Function.update (listed s) k (some ()) := by
  funext k'
  by_cases same : k' = k
  · subst same
    simp [listed]
  · simp [listed, same]

theorem listed_erase (s : Finset String) (k : String) :
    listed (s.erase k) = Function.update (listed s) k none := by
  funext k'
  by_cases same : k' = k
  · subst same
    simp [listed]
  · simp [listed, same]

/-- A set of keys, each with the same value. -/
abbrev KeySet (value : Json) (s : Finset String) (j : Json) : Prop :=
  Table (fun _ : Unit => value) (listed s) j

theorem KeySet.insert {value : Json} {s : Finset String} (table : KeySet value s j) (k : String) :
    KeySet value (Insert.insert k s) (j.updateImmediateChild k value) := by
  have written := Table.update table k (some ())
  rwa [← listed_insert] at written

theorem KeySet.erase {value : Json} {s : Finset String} (table : KeySet value s j) (k : String) :
    KeySet value (s.erase k) (j.updateImmediateChild k null) := by
  have written := Table.update table k none
  rwa [← listed_erase] at written

/-- A set of strings is read as `[String:String]`, and its keys are the set. -/
theorem KeySet.stringDict? {text : String} {s : Finset String} (table : KeySet (str text) s j) :
    j = null ∧ s = ∅ ∨
      ∃ d, j.stringDict? = some d ∧ d.entries ≠ [] ∧ ∀ k, k ∈ d.keys ↔ k ∈ s := by
  have text_value : ∀ _ : Unit, str text ≠ null := fun _ value => nomatch value
  have text_read : ∀ _ : Unit, (str text).string? = some text := fun _ => rfl
  rcases table.cast text_value Json.string? text_read
    with ⟨missing, empty⟩ | ⟨d, cast, nonempty, read⟩
  · refine Or.inl ⟨missing, Finset.eq_empty_of_forall_notMem ?_⟩
    intro k
    exact listed_none.mp (empty k)
  · refine Or.inr ⟨d, cast, nonempty, ?_⟩
    intro k
    rw [Dict.mem_keys, read k, ← listed_some]
    cases listed s k <;> simp

end Json
