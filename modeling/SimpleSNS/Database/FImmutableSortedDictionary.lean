import Mathlib.Data.List.Induction
import SimpleSNS.Database.FArraySortedDictionary
import SimpleSNS.Database.Key

/-!
What the users of `FImmutableSortedDictionary` see: whatever was inserted and removed, a key reads as what was
last done to it, the entries come in order, and no look-up takes long.
-/

namespace SimpleSNS
open Std Sorted FLLRBNode

variable {α β σ : Type} {comparator : α → α → Ordering}

/-! ### Going through the entries -/

/-- The loop over the entries, until the block says stop. -/
def visit (action : α → β → σ → Bool × σ) : List (α × β) → σ → Bool × σ
  | [], s => (false, s)
  | (key, value) :: rest, s =>
    match action key value s with
    | (true, s) => (true, s)
    | (false, s) => visit action rest s

namespace FLLRBNode

def inorderTraversal (action : α → β → σ → Bool × σ) : FLLRBNode α β → σ → Bool × σ
  | empty, s => (false, s)
  | node _ left key value right, s =>
    match left.inorderTraversal action s with
    | (true, s) => (true, s)
    | (false, s) =>
      match action key value s with
      | (true, s) => (true, s)
      | (false, s) => right.inorderTraversal action s

def reverseTraversal (action : α → β → σ → Bool × σ) : FLLRBNode α β → σ → Bool × σ
  | empty, s => (false, s)
  | node _ left key value right, s =>
    match right.reverseTraversal action s with
    | (true, s) => (true, s)
    | (false, s) =>
      match action key value s with
      | (true, s) => (true, s)
      | (false, s) => left.reverseTraversal action s

theorem visit_append (action : α → β → σ → Bool × σ) (l r : List (α × β)) (s : σ) :
    visit action (l ++ r) s =
      match visit action l s with
      | (true, s) => (true, s)
      | (false, s) => visit action r s := by
  induction l generalizing s with
  | nil => rfl
  | cons e rest ih =>
    rw [List.cons_append, visit, visit]
    cases action e.1 e.2 s with
    | mk stop s' =>
      cases stop with
      | true => rfl
      | false => exact ih s'

theorem inorderTraversal_visit (action : α → β → σ → Bool × σ) (t : FLLRBNode α β) (s : σ) :
    t.inorderTraversal action s = visit action t.entries s := by
  induction t generalizing s with
  | empty => rfl
  | node c l k v r ihl ihr =>
    rw [inorderTraversal, entries, visit_append, ihl]
    cases visit action l.entries s with
    | mk stop s' => cases stop <;> simp only [visit, ihr]

theorem reverseTraversal_visit (action : α → β → σ → Bool × σ) (t : FLLRBNode α β) (s : σ) :
    t.reverseTraversal action s = visit action t.entries.reverse s := by
  induction t generalizing s with
  | empty => rfl
  | node c l k v r ihl ihr =>
    rw [reverseTraversal, entries, List.reverse_append, List.reverse_cons, List.append_assoc, visit_append, ihr]
    cases visit action r.entries.reverse s with
    | mk stop s' => cases stop <;> simp only [List.singleton_append, visit, ihl]

end FLLRBNode

namespace FImmutableSortedDictionary

def dictionaryWithComparator (comparator : α → α → Ordering) : FImmutableSortedDictionary α β comparator :=
  .array .new

def isEmpty : FImmutableSortedDictionary α β comparator → Bool
  | array d => d.isEmpty
  | tree d => d.isEmpty

def count : FImmutableSortedDictionary α β comparator → Nat
  | array d => d.count
  | tree d => d.count

def minKey : FImmutableSortedDictionary α β comparator → Option α
  | array d => d.minKey
  | tree d => d.minKey

def maxKey : FImmutableSortedDictionary α β comparator → Option α
  | array d => d.maxKey
  | tree d => d.maxKey

def get : FImmutableSortedDictionary α β comparator → α → Option β
  | array d, key => d.get key
  | tree d, key => d.get key

def contains : FImmutableSortedDictionary α β comparator → α → Bool
  | array d, key => d.contains key
  | tree d, key => d.contains key

def getPredecessorKey : FImmutableSortedDictionary α β comparator → α → Option (Option α)
  | array d, key => d.getPredecessorKey key
  | tree d, key => d.getPredecessorKey key

def enumerateKeysAndObjects (reverse : Bool) (block : α → β → σ → Bool × σ) :
    FImmutableSortedDictionary α β comparator → σ → σ
  | array d, s => (visit block (if reverse then d.entries.reverse else d.entries) s).2
  | tree d, s => ((if reverse then d.root.reverseTraversal block else d.root.inorderTraversal block) s).2

section Trans
variable [TransCmp comparator]

def insertKey : FImmutableSortedDictionary α β comparator → α → β →
    Except DictionaryException (FImmutableSortedDictionary α β comparator)
  | array d, key, value => d.insertKey key value
  | tree d, key, value => .ok (.tree (d.insertKey key value))

def removeKey : FImmutableSortedDictionary α β comparator → α → FImmutableSortedDictionary α β comparator
  | array d, key => .array (d.removeKey key)
  | tree d, key => .tree (d.removeKey key)

def fromDictionary (comparator : α → α → Ordering) [TransCmp comparator] (dictionary : NSDictionary α β) :
    Except DictionaryException (FImmutableSortedDictionary α β comparator) :=
  if few : dictionary.entries.length ≤ SORTED_DICTIONARY_ARRAY_TO_RB_TREE_SIZE_THRESHOLD then
    .array <$> FArraySortedDictionary.fromDictionary comparator dictionary few
  else .tree <$> FTreeSortedDictionary.fromDictionary comparator dictionary

end Trans

/-! ### What is read -/

/-- The steps that a look-up takes at most. -/
def steps : FImmutableSortedDictionary α β comparator → Nat
  | array d => d.count
  | tree d => d.root.depth

/-- A dictionary reads as its entries, which ascend. -/
structure ReadsAs (d : FImmutableSortedDictionary α β comparator) : Prop where
  ascending : Ascending comparator d.entries
  get : ∀ key, d.get key = find comparator key d.entries
  contains : ∀ key, d.contains key = (find comparator key d.entries).isSome
  count : d.count = d.entries.length
  isEmpty : d.isEmpty = d.entries.isEmpty
  minKey : d.minKey = d.entries.head?.map Prod.fst
  maxKey : d.maxKey = d.entries.getLast?.map Prod.fst
  predecessor : ∀ key, d.getPredecessorKey key = predecessor comparator key d.entries

/-- A tree passes its check and is searched in few steps; an array is short. -/
structure Shallow (d : FImmutableSortedDictionary α β comparator) : Prop where
  check : ∀ t, d = .tree t → t.root.isRed = false ∧ t.root.checkMaxDepth = .ok true
  few : ∀ a, d = .array a → d.count ≤ SORTED_DICTIONARY_ARRAY_TO_RB_TREE_SIZE_THRESHOLD ∧ d.steps ≤ d.count
  steps : ∀ t, d = .tree t → d.steps ≤ 2 * (d.count + 1).log2

section Trans
variable [TransCmp comparator]

theorem tree_reads (d : FTreeSortedDictionary α β comparator) : ReadsAs (.tree d) where
  ascending := d.sorted
  get := d.get_entries
  contains key := congrArg Option.isSome (d.get_entries key)
  count := count_entries d.root
  isEmpty := by
    show d.root.isEmpty = d.root.entries.isEmpty
    cases d.root with
    | empty => rfl
    | node => simp [FLLRBNode.isEmpty, FLLRBNode.entries]
  minKey := minKey_entries d.root
  maxKey := maxKey_entries d.root
  predecessor key := by
    refine (FTreeSortedDictionary.predecessorFrom_entries key none d.root d.sorted).trans ?_
    rw [Option.or_none]
    rfl

theorem array_reads (d : FArraySortedDictionary α β comparator) : ReadsAs (.array d) where
  ascending := d.entries_ascending
  get := d.get_entries
  contains := d.contains_entries
  count := by
    show d.keys.length = d.entries.length
    rw [← d.entries_keys, List.length_map]
  isEmpty := by
    show d.keys.isEmpty = d.entries.isEmpty
    rw [← d.entries_keys, List.isEmpty_map]
  minKey := by
    show d.keys.head? = _
    rw [← d.entries_keys, List.head?_map]
    rfl
  maxKey := by
    show d.keys.getLast? = _
    rw [← d.entries_keys, List.getLast?_map]
    rfl
  predecessor := d.predecessor_entries

theorem reads (d : FImmutableSortedDictionary α β comparator) : ReadsAs d := by
  cases d with
  | array d => exact array_reads d
  | tree d => exact tree_reads d

omit [TransCmp comparator] in
theorem shallow (d : FImmutableSortedDictionary α β comparator) : Shallow d := by
  cases d with
  | array d => exact ⟨nofun, fun _ _ => ⟨d.few, Nat.le_refl _⟩, nofun⟩
  | tree d =>
    obtain ⟨n, balanced⟩ := d.balanced
    have count := balanced.le_count
    refine ⟨?_, nofun, ?_⟩
    · rintro t ⟨rfl⟩
      refine ⟨balanced.not_red, ?_⟩
      show (do let blackDepth ← d.root.check; pure (decide (2 ^ blackDepth ≤ d.root.count + 1))) = Except.ok true
      rw [balanced.check]
      exact congrArg Except.ok (decide_eq_true count)
    · rintro t ⟨rfl⟩
      have log : n ≤ (d.root.count + 1).log2 := (Nat.le_log2 (Nat.succ_ne_zero _)).mpr count
      have depth := balanced.depth_le
      show d.root.depth ≤ 2 * (d.root.count + 1).log2
      simp only [reduceCtorEq, if_false] at depth
      omega

theorem insertKey_entries (d : FImmutableSortedDictionary α β comparator) (key : α) (value : β) :
    ∃ d', d.insertKey key value = .ok d' ∧
      (d'.isTree, d'.entries) = setObject comparator key value d.isTree d.entries := by
  cases d with
  | array d => exact d.insertKey_entries key value
  | tree d => exact ⟨.tree (d.insertKey key value), rfl, Prod.ext rfl (d.insertKey_entries key value)⟩

theorem removeKey_entries (d : FImmutableSortedDictionary α β comparator) (key : α) :
    (d.removeKey key).isTree = d.isTree ∧ (d.removeKey key).entries = erase comparator key d.entries := by
  cases d with
  | array d => exact ⟨rfl, d.removeKey_entries key⟩
  | tree d => exact ⟨rfl, d.removeKey_entries key⟩

/-! ### From a dictionary -/

theorem fromDictionary_ok (dictionary : NSDictionary α β)
    (apart : dictionary.entries.Pairwise (comparator ·.1 ·.1 ≠ .eq)) :
    ∃ d, fromDictionary comparator dictionary = .ok d ∧ d.entries.Perm dictionary.entries ∧
      d.isTree = decide (SORTED_DICTIONARY_ARRAY_TO_RB_TREE_SIZE_THRESHOLD < dictionary.entries.length) := by
  unfold fromDictionary
  split
  · rename_i few
    obtain ⟨d, built, perm⟩ := FArraySortedDictionary.fromDictionary_ok dictionary few apart
    exact ⟨.array d, by rw [built]; rfl, perm, (decide_eq_false (Nat.not_lt_of_le few)).symm⟩
  · rename_i many
    obtain ⟨d, built, perm⟩ := FTreeSortedDictionary.fromDictionary_ok dictionary apart
    exact ⟨.tree d, by rw [built]; rfl, perm, (decide_eq_true (Nat.lt_of_not_le many)).symm⟩

theorem fromDictionary_error {dictionary : NSDictionary α β}
    (together : ¬ dictionary.entries.Pairwise (comparator ·.1 ·.1 ≠ .eq)) :
    fromDictionary comparator dictionary = .error .sameOrdering := by
  unfold fromDictionary
  split
  · rename_i few
    rw [FArraySortedDictionary.fromDictionary_error few together]
    rfl
  · rw [FTreeSortedDictionary.fromDictionary_error together]
    rfl

/-- Small dictionaries become arrays and the others trees, and both stop the program just when two keys are of the
same order. What is built holds the entries of the dictionary, sorted. -/
theorem from_dictionary (dictionary : NSDictionary α β) :
    (dictionary.entries.Pairwise (comparator ·.1 ·.1 ≠ .eq) →
      ∃ d, fromDictionary comparator dictionary = .ok d ∧ d.entries.Perm dictionary.entries ∧ ReadsAs d ∧ Shallow d ∧
        d.isTree = decide (SORTED_DICTIONARY_ARRAY_TO_RB_TREE_SIZE_THRESHOLD < d.count)) ∧
      (¬ dictionary.entries.Pairwise (comparator ·.1 ·.1 ≠ .eq) →
        fromDictionary comparator dictionary = .error .sameOrdering) := by
  constructor
  · intro apart
    obtain ⟨d, built, perm, form⟩ := fromDictionary_ok dictionary apart
    refine ⟨d, built, perm, reads d, shallow d, ?_⟩
    rw [form, (reads d).count, perm.length_eq]
  · exact fromDictionary_error

/-- A dictionary with the keys `00` and `-0` cannot be a node's. -/
theorem from_dictionary_sample : fromDictionary FUtilities.compareString
    ⟨[(FUtilities.NSString.of "00", 1), (.of "b", 2), (.of "-0", 3)], by decide⟩ = .error .sameOrdering := by
  refine (@from_dictionary _ _ FUtilities.compareString _ _).2 ?_
  decide

/-! ### Runs -/

inductive Operation (α β : Type) where
  | insertKey (key : α) (value : β)
  | removeKey (key : α)

namespace Operation

def key : Operation α β → α
  | insertKey key _ => key
  | removeKey key => key

def value? : Operation α β → Option β
  | insertKey _ value => some value
  | removeKey _ => none

def run (d : FImmutableSortedDictionary α β comparator) :
    Operation α β → Except DictionaryException (FImmutableSortedDictionary α β comparator)
  | insertKey key value => d.insertKey key value
  | removeKey key => .ok (d.removeKey key)

/-- What the operation is for. -/
def apply (comparator : α → α → Ordering) (l : List (α × β)) : Operation α β → List (α × β)
  | insertKey key value => insert comparator key value l
  | removeKey key => erase comparator key l

/-- What was last done to a key. -/
def latest (comparator : α → α → Ordering) (key : α) (operations : List (Operation α β)) : Option β :=
  (operations.reverse.find? fun o => comparator key o.key == .eq).bind value?

omit [TransCmp comparator] in
theorem latest_append (key : α) (operations : List (Operation α β)) (o : Operation α β) :
    latest comparator key (operations ++ [o]) =
      if comparator key o.key = .eq then o.value? else latest comparator key operations := by
  rw [latest, List.reverse_append, List.reverse_singleton, List.singleton_append, List.find?_cons]
  by_cases same : comparator key o.key = .eq
  · rw [if_pos same, beq_iff_eq.mpr same]
    rfl
  · rw [if_neg same, beq_eq_false_iff_ne.mpr same]
    rfl

theorem find_applied (key : α) (operations : List (Operation α β)) :
    find comparator key (operations.foldl (apply comparator) []) = latest comparator key operations := by
  induction operations using List.reverseRec with
  | nil => rfl
  | append_singleton operations o ih =>
    rw [List.foldl_append, List.foldl_cons, List.foldl_nil, latest_append, ← ih]
    cases o with
    | insertKey k v => exact find_insert k key v _
    | removeKey k => exact find_erase k key _

theorem run_alike {d : FImmutableSortedDictionary α β comparator} {l : List (α × β)}
    (alike : Alike comparator d.entries l) (o : Operation α β) : ∃ d', o.run d = .ok d' ∧ Alike comparator d'.entries (o.apply comparator l) := by
  cases o with
  | insertKey key value =>
    obtain ⟨d', inserted, same⟩ := insertKey_entries d key value
    refine ⟨d', inserted, alike_trans ?_ (alike_insert alike)⟩
    rw [show d'.entries = _ from congrArg Prod.snd same]
    exact setObject_alike key value d.isTree (reads d).ascending
  | removeKey key =>
    refine ⟨d.removeKey key, rfl, ?_⟩
    rw [(removeKey_entries d key).2]
    exact alike_erase alike

theorem runs_alike {d : FImmutableSortedDictionary α β comparator} {l : List (α × β)}
    (alike : Alike comparator d.entries l) (operations : List (Operation α β)) :
    ∃ d', operations.foldlM run d = .ok d' ∧ Alike comparator d'.entries (operations.foldl (apply comparator) l) := by
  induction operations generalizing d l with
  | nil => exact ⟨d, rfl, alike⟩
  | cons o operations ih =>
    obtain ⟨d', ran, alike'⟩ := run_alike alike o
    obtain ⟨d'', ran', alike''⟩ := ih alike'
    refine ⟨d'', ?_, alike''⟩
    rw [List.foldlM_cons, ran]
    exact ran'

end Operation

/-- Whatever was inserted and removed, nothing stops, each key reads as what was last done to it, and the
dictionary holds just these keys, in order, in arrays of at most 25 or in a tree that passes its check. -/
theorem sorted_dictionary (operations : List (Operation α β)) :
    ∃ d, operations.foldlM Operation.run (dictionaryWithComparator comparator) = .ok d ∧
      (∀ key, d.get key = Operation.latest comparator key operations) ∧
      Alike comparator d.entries (operations.foldl (Operation.apply comparator) []) ∧ ReadsAs d ∧ Shallow d ∧
      ∀ {σ : Type} (block : α → β → σ → Bool × σ) (reverse : Bool) (s : σ),
        d.enumerateKeysAndObjects reverse block s =
          (visit block (if reverse then d.entries.reverse else d.entries) s).2 := by
  obtain ⟨d, ran, alike⟩ := Operation.runs_alike
    (show Alike comparator (dictionaryWithComparator comparator).entries [] from .nil) operations
  refine ⟨d, ran, ?_, alike, reads d, shallow d, ?_⟩
  · intro key
    rw [(reads d).get, alike_find alike, Operation.find_applied]
  · intro σ block reverse s
    cases d with
    | array d => rfl
    | tree d =>
      cases reverse with
      | false => exact congrArg Prod.snd (inorderTraversal_visit block d.root s)
      | true => exact congrArg Prod.snd (reverseTraversal_visit block d.root s)

end Trans

/-- To the comparator of the database, `00` and `-0` are one key. -/
theorem sorted_dictionary_sample : ∃ d : FImmutableSortedDictionary FUtilities.NSString Nat FUtilities.compareString,
    [.insertKey (.of "00") 1, .insertKey (.of "b") 2, .insertKey (.of "-0") 3, .removeKey (.of "b")].foldlM
        Operation.run (dictionaryWithComparator FUtilities.compareString) = .ok d ∧
      d.get (.of "00") = some 3 ∧ d.get (.of "b") = none := by
  obtain ⟨d, ran, reads, _⟩ := @sorted_dictionary _ _ FUtilities.compareString _
    [.insertKey (.of "00") 1, .insertKey (.of "b") 2, .insertKey (.of "-0") 3, .removeKey (.of "b")]
  exact ⟨d, ran, reads _, reads _⟩

end FImmutableSortedDictionary

end SimpleSNS
