import SimpleSNS.Json.Cast

/-!
Objects as a store keeps them: at least one child, no key twice, and every child as a predicate
on its key and value says. A write of one child keeps that, and an object is read as a dictionary.
-/

namespace Json

def Object (P : String → Json → Prop) (j : Json) : Prop :=
  ∃ fields, j = obj fields ∧ fields ≠ [] ∧ (fields.map Prod.fst).Nodup ∧
    ∀ field ∈ fields, P field.1 field.2

/-- A node is missing or an object. -/
def Node (P : String → Json → Prop) (j : Json) : Prop := j = null ∨ Object P j

variable {P : String → Json → Prop} {j v : Json} {k : String}

theorem children_node {fields : List (String × Json)} (unique : (fields.map Prod.fst).Nodup)
    (holds : ∀ field ∈ fields, P field.1 field.2) : Node P (children fields) := by
  unfold children
  split
  · exact Or.inl rfl
  · rename_i nonempty
    exact Or.inr ⟨fields, rfl, by simpa using nonempty, unique, holds⟩

theorem written_fields (value : v = null ∨ P k v) :
    ∀ field ∈ (if v.isEmpty then [] else [(k, v)]), P field.1 field.2 := by
  intro field member
  split at member
  · cases member
  · rename_i nonempty
    obtain rfl := List.mem_singleton.mp member
    exact value.resolve_left fun missing => nonempty (isEmpty_iff.mpr missing)

theorem Node.update (node : Node P j) (value : v = null ∨ P k v) :
    Node P (j.updateImmediateChild k v) := by
  rcases node with rfl | ⟨fields, rfl, _, unique, holds⟩
  · show Node P (if v.isEmpty then null else obj [(k, v)])
    split
    · exact Or.inl rfl
    · rename_i nonempty
      have written := written_fields value
      rw [if_neg nonempty] at written
      exact Or.inr ⟨_, rfl, List.cons_ne_nil _ _, List.nodup_singleton _, written⟩
  · apply children_node
    · have old_unique := unique.filter (· != k)
      rw [← without_keys] at old_unique
      rw [List.map_append]
      split
      · simpa using old_unique
      · rw [without_keys] at old_unique ⊢
        refine List.nodup_append.mpr ⟨old_unique, List.nodup_singleton k, ?_⟩
        intro key old new fresh
        obtain rfl := List.mem_singleton.mp fresh
        rintro rfl
        simp at old
    · intro field member
      rcases List.mem_append.mp member with old | new
      · exact holds field (List.mem_filter.mp old).1
      · exact written_fields value field new

theorem fieldsFrom_holds {fields : List (String × Json)}
    (values : ∀ field ∈ fields, nodeFrom field.2 = null ∨ P field.1 (nodeFrom field.2)) :
    ∀ field ∈ fieldsFrom fields, P field.1 field.2 := by
  induction fields with
  | nil => simp [fieldsFrom]
  | cons field rest ih =>
    obtain ⟨key, value⟩ := field
    have later := ih fun field member => values field (List.mem_cons_of_mem _ member)
    simp only [fieldsFrom]
    split
    · exact later
    · rename_i nonempty
      intro field member
      rcases List.mem_cons.mp member with rfl | old
      · exact (values (key, value) List.mem_cons_self).resolve_left fun missing =>
          nonempty (isEmpty_iff.mpr missing)
      · exact later field old

/-- A dictionary is stored as a node. -/
theorem nodeFrom_node {fields : List (String × Json)} (unique : (fields.map Prod.fst).Nodup)
    (values : ∀ field ∈ fields, nodeFrom field.2 = null ∨ P field.1 (nodeFrom field.2)) :
    Node P (nodeFrom (obj fields)) := by
  rw [nodeFrom]
  exact children_node ((fieldsFrom_keys fields).nodup unique) (fieldsFrom_holds values)

theorem mem_lookup {fields : List (String × Json)} (found : lookup k fields ≠ null) :
    (k, lookup k fields) ∈ fields := by
  rw [lookup_eq] at found ⊢
  cases read : fields.lookup k with
  | none =>
    rw [read] at found
    exact absurd rfl found
  | some v =>
    obtain ⟨before, after, rfl, _⟩ := List.lookup_eq_some_iff.mp read
    exact List.mem_append_right _ List.mem_cons_self

theorem Node.child (node : Node P j) (k : String) :
    j.getImmediateChild k = null ∨ P k (j.getImmediateChild k) := by
  rcases node with rfl | ⟨fields, rfl, _, unique, holds⟩
  · exact Or.inl rfl
  · by_cases missing : lookup k fields = null
    · exact Or.inl missing
    · exact Or.inr (holds _ (mem_lookup missing))

/-- Where no child is null, a node without children is missing. -/
theorem Node.eq_null_iff (node : Node P j) (nonnull : ∀ k v, P k v → v ≠ null) :
    j = null ↔ ∀ k v, P k v → j.getImmediateChild k = null := by
  constructor
  · rintro rfl k v _
    rfl
  · intro missing
    rcases node with rfl | ⟨fields, rfl, nonempty, unique, holds⟩
    · rfl
    · obtain ⟨⟨k, v⟩, member⟩ := List.exists_mem_of_ne_nil _ nonempty
      have holds_here := holds _ member
      have found : lookup k fields = v := lookup_mem unique member
      exact absurd (found.symm.trans (missing k v holds_here)) (nonnull k v holds_here)

/-! ### Objects as dictionaries -/

theorem Node.dict? (node : Node P j) :
    j = null ∧ j.dict? = none ∨ ∃ d, j.dict? = some d ∧ j = obj d.entries := by
  rcases node with rfl | ⟨fields, rfl, _, unique, _⟩
  · exact Or.inl ⟨rfl, rfl⟩
  · exact Or.inr ⟨⟨fields, unique⟩, dif_pos unique, rfl⟩

/-- Reading a key of the dictionary is reading the child, if a missing child reads as nothing. -/
theorem dict?_bind {α : Type} {d : Dict Json} (cast : j.dict? = some d) (read : Json → Option α)
    (nothing : read null = none) (k : String) : (d.get? k).bind read = read (j.getImmediateChild k) := by
  rcases dict?_get? cast k with ⟨absent, missing⟩ | present
  · rw [absent, missing, nothing]
    rfl
  · rw [present]
    rfl

end Json

namespace Dict

variable {α β : Type} {cast : α → Option β}

theorem castValues_lookup {l : List (String × α)} {m : List (String × β)}
    (h : castValues cast l = some m) (k : String) : m.lookup k = (l.lookup k).bind cast := by
  induction l generalizing m with
  | nil =>
    cases h
    rfl
  | cons entry rest ih =>
    obtain ⟨k', x⟩ := entry
    simp only [castValues, Option.bind_eq_bind, Option.bind_eq_some_iff] at h
    obtain ⟨v, cast_value, rest', cast_rest, same⟩ := h
    obtain rfl := Option.some.inj same
    by_cases here : k = k'
    · subst here
      rw [List.lookup_cons_self, List.lookup_cons_self, Option.bind_some, cast_value]
    · have apart := beq_eq_false_iff_ne.mpr here
      rw [List.lookup_cons, List.lookup_cons, apart]
      exact ih cast_rest

theorem castValues_isSome {l : List (String × α)}
    (casts : ∀ entry ∈ l, ∃ v, cast entry.2 = some v) : ∃ m, castValues cast l = some m := by
  induction l with
  | nil => exact ⟨[], rfl⟩
  | cons entry rest ih =>
    obtain ⟨v, cast_value⟩ := casts entry List.mem_cons_self
    obtain ⟨m, cast_rest⟩ := ih fun later member => casts later (List.mem_cons_of_mem _ member)
    refine ⟨(entry.1, v) :: m, ?_⟩
    simp only [castValues, cast_value, cast_rest]
    rfl

/-- A dictionary of castable values is cast, and each key reads as its cast value. -/
theorem cast?_some {d : Dict α} (casts : ∀ entry ∈ d.entries, ∃ v, cast entry.2 = some v) :
    ∃ d', d.cast? cast = some d' ∧ ∀ k, d'.get? k = (d.get? k).bind cast := by
  obtain ⟨m, cast_all⟩ := castValues_isSome casts
  unfold cast?
  split
  · rename_i entries cast_entries
    exact ⟨_, rfl, castValues_lookup cast_entries⟩
  · rename_i refused
    rw [cast_all] at refused
    cases refused

/-- The entries of one key are what is read at it. -/
theorem filter_key (d : Dict α) (k : String) :
    (d.entries.filter fun entry => entry.1 = k) = (d.get? k).toList.map fun v => (k, v) := by
  obtain ⟨entries, unique⟩ := d
  simp only [get?]
  induction entries with
  | nil => rfl
  | cons entry rest ih =>
    obtain ⟨k', v⟩ := entry
    obtain ⟨fresh, unique⟩ := List.nodup_cons.mp unique
    by_cases same : k' = k
    · subst same
      have others : (rest.filter fun entry => entry.1 = k') = [] := by
        rw [List.filter_eq_nil_iff]
        intro entry member key
        exact fresh (List.mem_map.mpr ⟨entry, member, by simpa using key⟩)
      rw [List.filter_cons_of_pos (by simp), others, List.lookup_cons_self]
      rfl
    · have apart := beq_eq_false_iff_ne.mpr (Ne.symm same)
      rw [List.filter_cons_of_neg (by simpa using same), List.lookup_cons, apart]
      exact ih unique

end Dict

namespace Json

/-- A node of objects is read as a dictionary of dictionaries. -/
theorem Node.dictDict? {P : String → Json → Prop} {j : Json} (node : Node (fun _ => Object P) j) :
    j = null ∧ j.dictDict? = none ∨
      ∃ d, j.dictDict? = some d ∧ ∀ k, d.get? k = (j.getImmediateChild k).dict? := by
  unfold Json.dictDict?
  rcases node with rfl | ⟨fields, rfl, _, unique, objects⟩
  · exact Or.inl ⟨rfl, rfl⟩
  · have cast : (obj fields).dict? = some ⟨fields, unique⟩ := dif_pos unique
    have casts : ∀ entry ∈ fields, ∃ d, entry.2.dict? = some d := by
      intro entry member
      obtain ⟨inner, same, _, inner_unique, _⟩ := objects entry member
      rw [same]
      exact ⟨_, dif_pos inner_unique⟩
    obtain ⟨d, cast_all, read⟩ := Dict.cast?_some (d := ⟨fields, unique⟩) casts
    refine Or.inr ⟨d, by rw [cast]; exact cast_all, ?_⟩
    intro k
    rw [read k, dict?_bind cast Json.dict? rfl]

end Json
