import SimpleSNS.Database.FSnapshotUtilities
import SimpleSNS.Json.Cast

/-!
What a node exports is read back as that node: with its priorities in the long form, and in the short form, where
small integer keys become an array, without.
-/

namespace SimpleSNS
open Std Sorted FUtilities FValidation FSnapshotUtilities

/-- A value that a leaf can have, wherever it stands. -/
def LeafValue (value : Json) : Prop := ∀ fn path, isValidLeafValue fn path value = .ok true

def PriorityValue (value : Json) : Prop :=
  LeafValue value ∧ value ≠ .null ∧ ∀ fn path, isValidPriorityValue fn path value = .ok ()

namespace FNode

/-- Children ascend, under valid keys, and are not empty. -/
inductive Valid : FNode → Prop where
  | leaf {value : Json} {priority : Option Json} (held : LeafValue value) (ranked : ∀ p ∈ priority, PriorityValue p) :
    Valid (leaf value priority)
  | children {priority : Option Json} {isTree : Bool} {entries : List (String × FNode)}
    (ranked : ∀ p ∈ priority, PriorityValue p) (filled : entries ≠ []) (sorted : Ascending keyComparator entries)
    (keys : ∀ e ∈ entries, isValidKey e.1 = true) (below : ∀ e ∈ entries, Valid e.2) :
    Valid (children priority isTree entries)

/-- Nothing is lost in an export: `exp` keeps the priorities, and tells a null leaf with one from no node. The depth
and the number of children are within the limits, and keys that may become places of an array are ASCII. -/
inductive Exports (exp : Bool) : Nat → FNode → Prop where
  | leaf {depth : Nat} {value : Json} {priority : Option Json} (kept : exp = false → priority = none)
    (there : value = .null → exp = true ∧ priority ≠ none) : Exports exp depth (leaf value priority)
  | children {depth : Nat} {priority : Option Json} {isTree : Bool} {entries : List (String × FNode)}
    (kept : exp = false → priority = none) (ascii : exp = false → ∀ e ∈ entries, ∀ c ∈ e.1.toList, c.toNat < 128)
    (small : entries.length < 2 ^ 31)
    (below : ∀ e ∈ entries, Exports exp depth e.2) : Exports exp (depth + 1) (children priority isTree entries)

theorem Valid.isEmpty {node : FNode} (valid : Valid node) : node.isEmpty = false := by
  cases valid with
  | leaf => rfl
  | children _ filled => exact List.isEmpty_eq_false_iff.mpr filled

mutual

/-- The same node with each dictionary as `fromDictionary` makes it. -/
def rebuilt : FNode → FNode
  | leaf value priority => leaf value priority
  | children priority _ entries =>
    children priority (decide (SORTED_DICTIONARY_ARRAY_TO_RB_TREE_SIZE_THRESHOLD < entries.length))
      (rebuiltAll entries)

def rebuiltAll : List (String × FNode) → List (String × FNode)
  | [] => []
  | (key, node) :: rest => (key, rebuilt node) :: rebuiltAll rest

end

theorem rebuiltAll_map (entries : List (String × FNode)) :
    rebuiltAll entries = entries.map fun e => (e.1, e.2.rebuilt) := by
  induction entries with
  | nil => rw [rebuiltAll, List.map_nil]
  | cons e rest ih => rw [rebuiltAll, ih, List.map_cons]

theorem valsForExport_map (exp : Bool) (entries : List (String × FNode)) :
    valsForExport exp entries = entries.map fun e => (e.1, e.2.valForExport exp) := by
  induction entries with
  | nil => rw [valsForExport, List.map_nil]
  | cons e rest ih => rw [valsForExport, ih, List.map_cons]

theorem rebuilt_isEmpty (node : FNode) : node.rebuilt.isEmpty = node.isEmpty := by
  cases node with
  | leaf => rw [rebuilt]
  | children priority isTree entries =>
    rw [rebuilt, rebuiltAll_map]
    exact List.isEmpty_map

/-! ### Keys -/

theorem valid_head {key : String} (valid : isValidKey key = true) : key.toList.head? ≠ some '.' := by
  simp only [isValidKey, Bool.and_eq_true, List.all_eq_true] at valid
  intro dot
  have member := List.mem_of_head? dot
  exact absurd (valid.2 '.' member) (by decide)

theorem valid_ne {key : String} (valid : isValidKey key = true) :
    key ≠ ".priority" ∧ key ≠ ".value" ∧ key ≠ ".sv" := by
  refine ⟨?_, ?_, ?_⟩
  all_goals
    rintro rfl
    exact absurd valid (by decide)

theorem lookup_absent {α : Type} {key : String} {entries : List (String × α)} (absent : ∀ e ∈ entries, e.1 ≠ key) :
    entries.lookup key = none := by
  apply List.lookup_eq_none_iff.mpr
  intro e member
  simpa using Ne.symm (absent e member)

/-! ### Leaves -/

theorem priorityFrom_valid {p : Json} (ranked : PriorityValue p) (fn : String) (path : List String) :
    priorityFrom fn path p = .ok (some p) := by
  obtain ⟨held, there, valid⟩ := ranked
  have some : p.isEmpty = false := Json.isEmpty_eq_false.mpr there
  unfold priorityFrom
  rw [valid fn path, held "nodeFrom:priority:" [], some]
  rfl

/-- The one dictionary that is a leaf without a priority. -/
theorem serverValue {fields : List (String × Json)} (held : LeafValue (.obj fields)) :
    ∃ x, fields = [(".sv", x)] := by
  have valid := held "" []
  simp only [isValidLeafValue] at valid
  split at valid
  · rename_i key
    split at valid
    · cases valid
    · rename_i one
      unfold hasKey at key
      cases fields with
      | nil => cases key
      | cons field rest =>
        obtain rfl : rest = [] := List.length_eq_zero_iff.mp (by simp only [List.length_cons] at one; omega)
        obtain ⟨key', x⟩ := field
        rw [List.lookup_cons, List.lookup_nil] at key
        split at key
        · rename_i same
          exact ⟨x, by rw [beq_iff_eq.mp same]⟩
        · cases key
  · cases valid

theorem leaf_export {exp : Bool} {depth : Nat} {value : Json} {priority : Option Json} (held : LeafValue value)
    (ranked : ∀ p ∈ priority, PriorityValue p) (exports : Exports exp depth (leaf value priority)) {d : Nat}
    (room : d ≤ kFirebaseMaxObjectDepth) (fn : String) (path : List String) :
    internalNodeFrom fn ((leaf value priority).valForExport exp) .null d path = .ok (leaf value priority) := by
  obtain ⟨kept, there⟩ := exports
  cases priority with
  | some p =>
    cases exp with
    | false => cases kept rfl
    | true =>
      have own : ownPriority fn path none [(".value", value), (".priority", p)] = .ok (some p) :=
        priorityFrom_valid (ranked p rfl) fn path
      have found : leafValue? fn path [(".value", value), (".priority", p)] = .ok (some value) := by
        show (do if ← isValidLeafValue fn path value then return some value else _) = _
        rw [held fn path]
        rfl
      rw [valForExport]
      exact internalNodeFrom_leaf room own found
  | none =>
    have bare : (leaf value none).valForExport exp = value := by
      rw [valForExport]
      simp
    rw [bare]
    cases value with
    | null => exact absurd rfl (there rfl).2
    | arr => cases held "" []
    | obj fields =>
      obtain ⟨x, rfl⟩ := serverValue held
      refine internalNodeFrom_leaf room rfl ?_
      show (do if ← isValidLeafValue fn path (.obj [(".sv", x)]) then _ else _) = _
      rw [held fn path]
      rfl
    | bool | num | str =>
      rw [internalNodeFrom_scalar room rfl, held fn path]
      rfl

/-! ### Children -/

/-- The children are sorted, in whatever order they come. -/
theorem childrenNode_perm {nodes entries : List (String × FNode)} (perm : nodes.Perm entries)
    (sorted : Ascending keyComparator entries) (filled : entries ≠ []) (small : entries.length < 2 ^ 31)
    (priority : Option Json) : childrenNode priority nodes =
      .ok (children priority (decide (SORTED_DICTIONARY_ARRAY_TO_RB_TREE_SIZE_THRESHOLD < entries.length))
        entries) := by
  have there : nodes.isEmpty = false := by
    rw [List.isEmpty_eq_false_iff]
    rintro rfl
    exact filled perm.nil_eq.symm
  have apart : nodes.Pairwise (keyComparator ·.1 ·.1 ≠ .eq) := by
    rw [apart_comm perm]
    exact sorted.imp fun less => by simp [less]
  rw [← perm.length_eq] at small ⊢
  obtain ⟨d, built, perm', form⟩ := FImmutableSortedDictionary.fromDictionary_ok ⟨nodes, small⟩ apart
  have same : d.entries = entries :=
    Ascending.unique (FImmutableSortedDictionary.reads d).ascending sorted (perm'.trans perm)
  rw [childrenNode, if_neg (by simp [there]), dif_pos small, built]
  show Except.ok (children priority d.isTree d.entries) = _
  rw [form, same]

theorem fieldNodes_map {fn : String} {d : Nat} {path : List String} {f : FNode → Json} {g : FNode → FNode}
    {tail : List (String × Json)} (entries : List (String × FNode)) (keys : ∀ e ∈ entries, isValidKey e.1 = true)
    (each : ∀ e ∈ entries, internalNodeFrom fn (f e.2) .null (d + 1) (path ++ [e.1]) = .ok (g e.2))
    (full : ∀ e ∈ entries, (g e.2).isEmpty = false) (nothing : fieldNodes fn tail d path = .ok []) :
    fieldNodes fn (entries.map (fun e => (e.1, f e.2)) ++ tail) d path = .ok (entries.map fun e => (e.1, g e.2)) := by
  induction entries with
  | nil => exact nothing
  | cons e rest ih =>
    have later := ih (fun e' there => keys e' (List.mem_cons_of_mem _ there))
      (fun e' there => each e' (List.mem_cons_of_mem _ there))
      (fun e' there => full e' (List.mem_cons_of_mem _ there))
    have valid := keys e List.mem_cons_self
    have key : validDictionaryKey fn path e.1 = .ok () := if_neg (by simp [valid])
    rw [List.map_cons, List.cons_append, fieldNodes, key, if_neg (valid_head valid), each e List.mem_cons_self]
    simp only [bind, Except.bind, later, full e List.mem_cons_self]
    rfl

/-! ### Arrays -/

theorem digitChar_toNat {c : Char} (digit : c.isDigit = true) : ∃ d, d < 10 ∧ c = Nat.digitChar d := by
  obtain ⟨low, high⟩ := Char.isDigit_iff_toNat.mp digit
  have inside : c.toNat - 48 < 10 := by
    simp only [Char.reduceToNat] at high
    omega
  refine ⟨c.toNat - 48, inside, ?_⟩
  apply Char.toNat_inj.mp
  rw [Nat.toNat_digitChar_of_lt_ten inside]
  simp only [Char.reduceToNat] at low
  omega

/-- Digits are those of their number, but for leading zeros. -/
theorem toDigits_ofDigitChars {l : List Char} (digits : ∀ c ∈ l, c.isDigit = true) (some : l ≠ [])
    (lead : l.head? = Option.some '0' → l.length ≤ 1) : Nat.toDigits 10 (Nat.ofDigitChars 10 l 0) = l := by
  induction l using List.reverseRec with
  | nil => exact absurd rfl some
  | append_singleton l c ih =>
    obtain ⟨d, inside, rfl⟩ := digitChar_toNat (digits c (List.mem_append_right _ List.mem_cons_self))
    rw [Nat.ofDigitChars_append, Nat.ofDigitChars_cons_digitChar_of_lt_ten inside, Nat.ofDigitChars_nil]
    cases l with
    | nil =>
      rw [Nat.ofDigitChars_nil, Nat.mul_zero, Nat.zero_add, Nat.toDigits_of_lt_base inside]
      rfl
    | cons first l =>
      have more : Nat.toDigits 10 (Nat.ofDigitChars 10 (first :: l) 0) = first :: l := by
        refine ih (fun c member => digits c (List.mem_append_left _ member)) (by simp) ?_
        intro zero
        have short := lead zero
        simp at short
      have positive : 0 < Nat.ofDigitChars 10 (first :: l) 0 := by
        apply Nat.pos_of_ne_zero
        intro nought
        rw [nought, Nat.toDigits_zero] at more
        obtain ⟨rfl, rfl⟩ := List.cons.inj more
        have short := lead rfl
        simp at short
      rw [← Nat.toDigits_append_toDigits (by decide) positive inside, more, Nat.toDigits_of_lt_base inside]

theorem integerKey_some {key : String} {i : Nat} (integer : integerKey key = some i) (small : i < 2 ^ 63 - 1) :
    key = toString i := by
  unfold integerKey at integer
  split at integer
  · cases integer
  · rename_i plain
    unfold intForString at integer
    split at integer
    · rename_i digits
      have same : Nat.ofDigitChars 10 key.toList 0 = i := by
        have clamped := Option.some.inj integer
        omega
      have lead : key.toList.head? = some '0' → key.toList.length ≤ 1 := by
        intro zero
        have short : ¬ key.length > 1 := fun long => plain ⟨zero, long⟩
        rw [String.length_toList]
        omega
      have spelled := toDigits_ofDigitChars (List.all_eq_true.mp digits.2) digits.1 lead
      apply String.toList_inj.mp
      rw [Nat.toString_eq_repr, Nat.toList_repr, ← same, spelled]
    · cases integer

theorem maxKey_some {keys : List String} {m : Nat} (found : maxKey keys = some m) :
    ∀ key ∈ keys, ∃ i, i ≤ m ∧ integerKey key = some i := by
  induction keys generalizing m with
  | nil => nofun
  | cons first rest ih =>
    rw [maxKey] at found
    split at found
    · rename_i i m' integer rest_max
      obtain rfl := Option.some.inj found
      intro key member
      rcases List.mem_cons.mp member with rfl | later
      · exact ⟨i, Nat.le_max_left _ _, integer⟩
      · obtain ⟨j, below, integer'⟩ := ih rest_max key later
        exact ⟨j, Nat.le_trans below (Nat.le_max_right _ _), integer'⟩
    · cases found

theorem arrayLength_some {keys : List String} {n : Nat} (found : arrayLength keys = some n)
    (few : keys.length < 2 ^ 31) : ∀ key ∈ keys, ∃ i, i < n ∧ key = toString i := by
  unfold arrayLength at found
  split at found
  · rename_i m largest
    split at found
    · rename_i dense
      obtain rfl := Option.some.inj found
      intro key member
      obtain ⟨i, below, integer⟩ := maxKey_some largest key member
      exact ⟨i, Nat.lt_succ_of_le below, integerKey_some integer (by omega)⟩
    · cases found
  · cases found

theorem toString_inj {i j : Nat} (same : toString i = toString j) : i = j := by
  rw [Nat.toString_eq_repr, Nat.toString_eq_repr, ← String.toList_inj, Nat.toList_repr, Nat.toList_repr] at same
  rw [← @Nat.ofDigitChars_ten_toDigits i, same, Nat.ofDigitChars_ten_toDigits]

theorem itemNodes_range (fn : String) (d : Nat) (path : List String) {f : Nat → Json} {g : Nat → Option FNode}
    (i n : Nat) (each : ∀ j, ∃ child, internalNodeFrom fn (f j) .null (d + 1) (path ++ [toString j]) = .ok child ∧
      g j = if child.isEmpty then none else some child) :
    itemNodes fn ((List.range' i n).map f) i d path =
      .ok ((List.range' i n).filterMap fun j => (g j).map fun child => (toString j, child)) := by
  induction n generalizing i with
  | zero => rfl
  | succ n ih =>
    obtain ⟨child, made, same⟩ := each i
    rw [List.range'_succ, List.map_cons, itemNodes, made]
    simp only [bind, Except.bind, ih (i + 1)]
    rw [List.filterMap_cons, same]
    split <;> rfl

/-- The children in the order of the array. -/
theorem items_perm {entries : List (String × FNode)} (unique : (entries.map Prod.fst).Nodup) {n : Nat}
    (numbered : ∀ key ∈ entries.map Prod.fst, ∃ i, i < n ∧ key = toString i) (g : FNode → FNode) :
    ((List.range' 0 n).filterMap fun j =>
      ((entries.lookup (toString j)).map g).map fun child => (toString j, child)).Perm
      (entries.map fun e => (e.1, g e.2)) := by
  apply (List.perm_ext_iff_of_nodup ?_ ?_).mpr
  · rintro ⟨key, child⟩
    simp only [List.mem_filterMap, List.mem_map, Option.map_eq_some_iff, Prod.mk.injEq]
    constructor
    · rintro ⟨j, _, _, ⟨node, found, rfl⟩, rfl, rfl⟩
      obtain ⟨before, after, split, _⟩ := List.lookup_eq_some_iff.mp found
      refine ⟨(toString j, node), ?_, rfl, rfl⟩
      rw [split]
      exact List.mem_append_right _ List.mem_cons_self
    · rintro ⟨⟨key, node⟩, member, rfl, rfl⟩
      obtain ⟨i, inside, rfl⟩ := numbered key (List.mem_map_of_mem member)
      exact ⟨i, by simpa using inside, _, ⟨node, Dict.lookup_of_mem unique member, rfl⟩, rfl, rfl⟩
  · refine List.Nodup.filterMap ?_ (List.nodup_range' ..)
    intro i j e first second
    simp only [Option.mem_def, Option.map_eq_some_iff] at first second
    obtain ⟨_, _, rfl⟩ := first
    obtain ⟨_, _, same⟩ := second
    exact (toString_inj (Prod.mk.inj same).1).symm
  · refine List.Nodup.of_map Prod.fst ?_
    rw [List.map_map]
    exact unique

/-! ### Both forms -/

theorem lookup_fields {entries : List (String × FNode)} (keys : ∀ e ∈ entries, isValidKey e.1 = true)
    (f : FNode → Json) {key : String} (other : isValidKey key = false) (tail : List (String × Json)) :
    (entries.map (fun e => (e.1, f e.2)) ++ tail).lookup key = tail.lookup key := by
  have absent : (entries.map fun e => (e.1, f e.2)).lookup key = none := by
    apply lookup_absent
    intro e' member
    obtain ⟨e, there, rfl⟩ := List.mem_map.mp member
    rintro rfl
    exact absurd (keys e there) (by simp [other])
  rw [List.lookup_append, absent, Option.none_or]

section Rebuild
variable {fn : String} {d : Nat} {path : List String} {f : FNode → Json} {entries : List (String × FNode)}
  (keys : ∀ e ∈ entries, isValidKey e.1 = true) (sorted : Ascending keyComparator entries) (filled : entries ≠ [])
  (small : entries.length < 2 ^ 31) (valid : ∀ e ∈ entries, Valid e.2) (room : d + 1 ≤ kFirebaseMaxObjectDepth)
  (each : ∀ e ∈ entries, internalNodeFrom fn (f e.2) .null (d + 1) (path ++ [e.1]) = .ok e.2.rebuilt)
include sorted filled small

theorem rebuilt_perm {nodes : List (String × FNode)} (perm : nodes.Perm (entries.map fun e => (e.1, e.2.rebuilt)))
    (priority : Option Json) (isTree : Bool) :
    childrenNode priority nodes = .ok (children priority isTree entries).rebuilt := by
  rw [rebuilt, rebuiltAll_map]
  have built := childrenNode_perm perm (List.pairwise_map.mpr sorted) (by simpa using filled) (by simpa using small)
    priority
  rw [List.length_map] at built
  exact built

include keys valid room each

theorem object_export {priority : Option Json} {tail : List (String × Json)}
    (own : ownPriority fn path none tail = .ok priority) (bare : tail.lookup ".value" = none)
    (server : tail.lookup ".sv" = none) (nothing : fieldNodes fn tail d path = .ok []) (isTree : Bool) :
    internalNodeFrom fn (.obj (entries.map (fun e => (e.1, f e.2)) ++ tail)) .null d path =
      .ok (children priority isTree entries).rebuilt := by
  have full : ∀ e ∈ entries, e.2.rebuilt.isEmpty = false := by
    intro e member
    rw [rebuilt_isEmpty, (valid e member).isEmpty]
  have nodes := fieldNodes_map entries keys each full nothing
  have priority' : ownPriority fn path none (entries.map (fun e => (e.1, f e.2)) ++ tail) = .ok priority := by
    unfold ownPriority
    rw [lookup_fields keys f (by decide)]
    exact own
  have unheld : leafValue? fn path (entries.map (fun e => (e.1, f e.2)) ++ tail) = .ok none := by
    apply leafValue?_none
    · rw [lookup_fields keys f (by decide), bare]
    · rw [lookup_fields keys f (by decide), server]
  rw [internalNodeFrom_children (Nat.le_of_succ_le room) priority' unheld nodes]
  exact rebuilt_perm sorted filled small (List.Perm.refl _) priority isTree

omit keys in
theorem array_export {n : Nat} (found : arrayLength (entries.map Prod.fst) = Option.some n) (isTree : Bool) :
    internalNodeFrom fn
      (.arr ((List.range n).map fun i => Json.lookup (toString i) (entries.map fun e => (e.1, f e.2))))
      .null d path = .ok (children none isTree entries).rebuilt := by
  have unique : (entries.map Prod.fst).Nodup := by
    refine List.pairwise_map.mpr (sorted.imp ?_)
    intro a b less same
    have self : keyComparator b.1 b.1 = .eq := ReflCmp.compare_self
    rw [same, self] at less
    cases less
  have numbered := arrayLength_some found (by simpa using small)
  have unique' : ((entries.map fun e => (e.1, f e.2)).map Prod.fst).Nodup := by
    rw [List.map_map]
    exact unique
  have nodes := itemNodes_range fn d path (f := fun i => Json.lookup (toString i) (entries.map fun e => (e.1, f e.2)))
    (g := fun j => (entries.lookup (toString j)).map rebuilt) 0 n ?_
  · rw [List.range_eq_range', internalNodeFrom_items (Nat.le_of_succ_le room) nodes]
    exact rebuilt_perm sorted filled small (items_perm unique numbered rebuilt) none isTree
  · intro j
    cases there : entries.lookup (toString j) with
    | none =>
      have absent : Json.lookup (toString j) (entries.map fun e => (e.1, f e.2)) = .null := by
        apply Json.lookup_absent
        rw [List.map_map]
        intro member
        obtain ⟨e, listed, same⟩ := List.mem_map.mp member
        have other := List.lookup_eq_none_iff.mp there e listed
        exact absurd same.symm (by simpa using other)
      exact ⟨emptyNode, by rw [absent, internalNodeFrom_null room], rfl⟩
    | some node =>
      have member := Dict.mem_of_get? (d := ⟨entries, unique⟩) there
      have held : Json.lookup (toString j) (entries.map fun e => (e.1, f e.2)) = f node :=
        Json.lookup_mem unique' (List.mem_map_of_mem member)
      refine ⟨node.rebuilt, by rw [held]; exact each _ member, ?_⟩
      rw [rebuilt_isEmpty, (valid _ member).isEmpty]
      rfl

end Rebuild

theorem valid_export {exp : Bool} {node : FNode} {depth d : Nat} (valid : Valid node)
    (exports : Exports exp depth node) (room : d + depth ≤ kFirebaseMaxObjectDepth) (fn : String) (path : List String) :
    internalNodeFrom fn (node.valForExport exp) .null d path = .ok node.rebuilt := by
  induction valid generalizing depth d path with
  | leaf held ranked =>
    rw [rebuilt]
    exact leaf_export held ranked exports (by omega) fn path
  | @children priority isTree entries ranked filled sorted keys below ih =>
    cases exports with
    | @children depth' _ _ _ kept _ small further =>
      have room' : d + 1 ≤ kFirebaseMaxObjectDepth := by omega
      have each : ∀ e ∈ entries,
          internalNodeFrom fn (e.2.valForExport exp) .null (d + 1) (path ++ [e.1]) = .ok e.2.rebuilt :=
        fun e member => ih e member (further e member) (by omega) _
      have object (priority : Option Json) (tail : List (String × Json)) :=
        @object_export fn d path (valForExport exp) entries keys sorted filled small below room' each priority tail
      have there : ¬ entries.isEmpty = true := by simpa using filled
      rw [valForExport.eq_def]
      simp only [if_neg there, valsForExport_map]
      cases exp with
      | true =>
        cases priority with
        | some p =>
          exact object (some p) [(".priority", p)] (priorityFrom_valid (ranked p rfl) fn path) rfl rfl rfl isTree
        | none =>
          have bare := object none [] rfl rfl rfl rfl isTree
          rwa [List.append_nil] at bare
      | false =>
        obtain rfl := kept rfl
        cases found : arrayLength (entries.map Prod.fst) with
        | some n => exact array_export sorted filled small below room' each found isTree
        | none =>
          have bare := object none [] rfl rfl rfl rfl isTree
          rwa [List.append_nil] at bare

end FNode

end SimpleSNS
