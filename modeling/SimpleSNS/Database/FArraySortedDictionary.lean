import SimpleSNS.Database.TreeBuilder

/-!
`FImmutableSortedDictionary`: two sorted arrays of at most 25 keys and their values, and a tree from the 26th key
on. A tree stays a tree. Both do the same, but for the key of an entry that is written again.
-/

namespace SimpleSNS
open Std Sorted FLLRBNode

variable {α β : Type} {comparator : α → α → Ordering}

inductive DictionaryException where
  | sameOrdering
  | outOfRange
  deriving DecidableEq

/-- The entries of a dictionary, in the order in which they are enumerated. They are counted in an `int`. -/
structure NSDictionary (α β : Type) where
  entries : List (α × β)
  small : entries.length < 2 ^ 31

def sortUsingComparator (comparator : α → α → Ordering) (entries : List (α × β)) : List (α × β) :=
  entries.mergeSort fun a b => (comparator a.1 b.1).isLE

/-- Every key is above the one before. -/
abbrev Rising (comparator : α → α → Ordering) (entries : List (α × β)) : Prop :=
  entries.IsChain fun a b => comparator a.1 b.1 = .lt

theorem Rising.ascending [TransCmp comparator] {entries : List (α × β)} (rising : Rising comparator entries) :
    Ascending comparator entries := by
  have : Trans (fun a b : α × β => comparator a.1 b.1 = .lt) (fun a b : α × β => comparator a.1 b.1 = .lt)
    (fun a b : α × β => comparator a.1 b.1 = .lt) := ⟨TransCmp.lt_trans⟩
  exact List.isChain_iff_pairwise.mp rising

section Sorting
variable [TransCmp comparator]

omit [TransCmp comparator] in
theorem sort_perm (comparator : α → α → Ordering) (entries : List (α × β)) :
    (sortUsingComparator comparator entries).Perm entries := List.mergeSort_perm _ _

theorem apart_comm {l l' : List (α × β)} (perm : l.Perm l') :
    l.Pairwise (comparator ·.1 ·.1 ≠ .eq) ↔ l'.Pairwise (comparator ·.1 ·.1 ≠ .eq) :=
  perm.pairwise_iff fun other same => other (OrientedCmp.eq_symm same)

/-- Keys that are all apart are sorted into a rising list, and no others. -/
theorem rising_iff (entries : List (α × β)) : Rising comparator (sortUsingComparator comparator entries) ↔
    entries.Pairwise (comparator ·.1 ·.1 ≠ .eq) := by
  rw [← apart_comm (sort_perm comparator entries)]
  constructor
  · exact fun rising => rising.ascending.imp fun less => by simp [less]
  · intro apart
    have total : ∀ a b : α × β, (comparator a.1 b.1).isLE || (comparator b.1 a.1).isLE := by
      intro a b
      rw [@OrientedCmp.eq_swap _ comparator _ a.1 b.1]
      cases comparator b.1 a.1 <;> rfl
    have sorted := List.pairwise_mergeSort (fun _ _ _ => TransCmp.isLE_trans) total entries
    refine (List.Pairwise.imp ?_ (sorted.and apart)).isChain
    rintro a b ⟨below, other⟩
    cases place : comparator a.1 b.1 with
    | lt => rfl
    | eq => exact absurd place other
    | gt => simp [place] at below

end Sorting

namespace FTreeSortedDictionary
variable [TransCmp comparator]

theorem built_spec {keyList : List (α × β)} {root : FLLRBNode α β} (fits : keyList.length + 1 < 2 ^ 32)
    (built : rootFrom12List (base1_2List_new keyList.length) keyList = some root) :
    (∃ n, Balanced root .black n) ∧ root.entries = keyList := by
  obtain ⟨n, t, built', balanced, entries⟩ := rootFrom12List_spec keyList fits
  obtain rfl := Option.some.inj (built.symm.trans built')
  exact ⟨⟨n, balanced⟩, entries⟩

def fromDictionary (comparator : α → α → Ordering) [TransCmp comparator] (dictionary : NSDictionary α β) :
    Except DictionaryException (FTreeSortedDictionary α β comparator) :=
  let keyList := sortUsingComparator comparator dictionary.entries
  if rising : Rising comparator keyList then
    match built : rootFrom12List (base1_2List_new keyList.length) keyList with
    | none => .error .outOfRange
    | some root =>
      have fits : keyList.length + 1 < 2 ^ 32 := by
        have small := dictionary.small
        rw [show keyList.length = dictionary.entries.length from List.length_mergeSort _]
        omega
      .ok ⟨root, (built_spec fits built).2 ▸ rising.ascending, (built_spec fits built).1⟩
  else .error .sameOrdering

theorem fromDictionary_ok (dictionary : NSDictionary α β)
    (apart : dictionary.entries.Pairwise (comparator ·.1 ·.1 ≠ .eq)) :
    ∃ d, fromDictionary comparator dictionary = .ok d ∧ d.entries.Perm dictionary.entries := by
  have rising := (rising_iff dictionary.entries).mpr apart
  have fits : (sortUsingComparator comparator dictionary.entries).length + 1 < 2 ^ 32 := by
    have small := dictionary.small
    rw [(sort_perm comparator dictionary.entries).length_eq]
    omega
  obtain ⟨n, t, built, balanced, entries⟩ := rootFrom12List_spec _ fits
  unfold fromDictionary
  simp only
  rw [dif_pos rising]
  split
  · rename_i nothing
    cases nothing.symm.trans built
  · rename_i root found
    refine ⟨_, rfl, ?_⟩
    show root.entries.Perm _
    rw [(built_spec fits found).2]
    exact sort_perm comparator dictionary.entries

/-- Two keys of the same order stop the program. -/
theorem fromDictionary_error {dictionary : NSDictionary α β}
    (together : ¬ dictionary.entries.Pairwise (comparator ·.1 ·.1 ≠ .eq)) :
    fromDictionary comparator dictionary = .error .sameOrdering :=
  dif_neg fun rising => together ((rising_iff dictionary.entries).mp rising)

end FTreeSortedDictionary

/-! ### The arrays -/

def SORTED_DICTIONARY_ARRAY_TO_RB_TREE_SIZE_THRESHOLD : Nat := 25

structure FArraySortedDictionary (α β : Type) (comparator : α → α → Ordering) where
  keys : List α
  values : List β
  aligned : values.length = keys.length
  sorted : keys.Pairwise (comparator · · = .lt)
  few : keys.length ≤ SORTED_DICTIONARY_ARRAY_TO_RB_TREE_SIZE_THRESHOLD

namespace FArraySortedDictionary

/-- The loop of `findInsertPositionForKey`. -/
def findInsertPosition (comparator : α → α → Ordering) (key : α) : List α → Nat
  | [] => 0
  | k :: rest => if comparator k key = .lt then findInsertPosition comparator key rest + 1 else 0

/-- The loop of `findKey`; `none` for `NSNotFound`. -/
def findKey (comparator : α → α → Ordering) (key : α) : List α → Option Nat
  | [] => none
  | k :: rest =>
    match comparator key k with
    | .eq => some 0
    | .lt => none
    | .gt => (findKey comparator key rest).map (· + 1)

theorem findKey_lt (key : α) (keys : List α) {pos : Nat} (found : findKey comparator key keys = some pos) :
    pos < keys.length := by
  induction keys generalizing pos with
  | nil => cases found
  | cons k rest ih =>
    rw [findKey] at found
    cases place : comparator key k with
    | lt => simp [place] at found
    | eq =>
      simp only [place, Option.some.injEq] at found
      subst found
      exact Nat.succ_pos _
    | gt =>
      simp only [place, Option.map_eq_some_iff] at found
      obtain ⟨pos, found, rfl⟩ := found
      exact Nat.succ_lt_succ (ih found)

section Entries
variable [TransCmp comparator] {key : α} {value : β} {l : List (α × β)} {pos : Nat}

/-- A key that is found is written over, with its value. -/
theorem set_replace (sorted : Ascending comparator l) (found : findKey comparator key (l.map Prod.fst) = some pos) :
    l.set pos (key, value) = replace comparator key value l := by
  induction l generalizing pos with
  | nil => cases found
  | cons e rest ih =>
    rw [List.map_cons, findKey] at found
    rw [replace, List.map_cons]
    cases place : comparator key e.1 with
    | lt => simp [place] at found
    | eq =>
      simp only [place, Option.some.injEq] at found
      subst found
      have kept : replace comparator key value rest = rest := replace_before (lt_after_eq (l := []) sorted place)
      rw [if_pos rfl, List.set_cons_zero]
      exact congrArg _ kept.symm
    | gt =>
      simp only [place, Option.map_eq_some_iff] at found
      obtain ⟨pos, found, rfl⟩ := found
      rw [if_neg (by simp), List.set_cons_succ, ih sorted.of_cons found]
      rfl

theorem insertIdx_eq (missing : findKey comparator key (l.map Prod.fst) = none) :
    l.insertIdx (findInsertPosition comparator key (l.map Prod.fst)) (key, value) =
      insert comparator key value l := by
  induction l with
  | nil => rfl
  | cons e rest ih =>
    rw [List.map_cons, findKey] at missing
    rw [List.map_cons, findInsertPosition, Sorted.insert]
    cases place : comparator key e.1 with
    | lt =>
      rw [if_neg (by simp [OrientedCmp.gt_of_lt place])]
      rfl
    | eq => simp [place] at missing
    | gt =>
      simp only [place, Option.map_eq_none_iff] at missing
      rw [if_pos (OrientedCmp.lt_of_gt place), List.insertIdx_succ_cons, ih missing]

theorem find_eq (sorted : Ascending comparator l) :
    find comparator key l = (findKey comparator key (l.map Prod.fst)).bind fun pos => (l[pos]?).map Prod.snd := by
  induction l with
  | nil => rfl
  | cons e rest ih =>
    rw [List.map_cons, findKey]
    cases place : comparator key e.1 with
    | lt => exact find_lt (l := []) sorted place
    | eq => exact Sorted.find_eq (l := []) sorted place
    | gt =>
      rw [show find comparator key (e :: rest) = find comparator key rest from find_gt (l := []) sorted place,
        ih sorted.of_cons]
      cases findKey comparator key (rest.map Prod.fst) <;> rfl

theorem find_isSome (sorted : Ascending comparator l) : (find comparator key l).isSome =
    (findKey comparator key (l.map Prod.fst)).isSome := by
  rw [find_eq sorted]
  cases found : findKey comparator key (l.map Prod.fst) with
  | none => rfl
  | some pos =>
    have inside : pos < l.length := by
      rw [← List.length_map (f := Prod.fst)]
      exact findKey_lt key _ found
    rw [Option.bind_some, List.getElem?_eq_getElem inside]
    rfl

theorem eraseIdx_eq (sorted : Ascending comparator l) (found : findKey comparator key (l.map Prod.fst) = some pos) :
    l.eraseIdx pos = erase comparator key l := by
  induction l generalizing pos with
  | nil => cases found
  | cons e rest ih =>
    rw [List.map_cons, findKey] at found
    cases place : comparator key e.1 with
    | lt => simp [place] at found
    | eq =>
      simp only [place, Option.some.injEq] at found
      subst found
      exact (erase_eq (l := []) sorted place).symm
    | gt =>
      simp only [place, Option.map_eq_some_iff] at found
      obtain ⟨pos, found, rfl⟩ := found
      rw [show erase comparator key (e :: rest) = e :: erase comparator key rest from
        erase_gt (l := []) sorted place, ← ih sorted.of_cons found]
      rfl

theorem below_take (sorted : Ascending comparator l) (found : findKey comparator key (l.map Prod.fst) = some pos) :
    below comparator key l = l.take pos := by
  induction l generalizing pos with
  | nil => cases found
  | cons e rest ih =>
    rw [List.map_cons, findKey] at found
    cases place : comparator key e.1 with
    | lt => simp [place] at found
    | eq =>
      simp only [place, Option.some.injEq] at found
      subst found
      exact below_eq (l := []) sorted place
    | gt =>
      simp only [place, Option.map_eq_some_iff] at found
      obtain ⟨pos, found, rfl⟩ := found
      rw [show below comparator key (e :: rest) = e :: below comparator key rest from
        below_gt (l := []) sorted place, ih sorted.of_cons found]
      rfl

end Entries

end FArraySortedDictionary

/-! ### One or the other -/

/-- The key before a key that is there, as the entries say. -/
def predecessor (comparator : α → α → Ordering) (key : α) (l : List (α × β)) : Option (Option α) :=
  if (find comparator key l).isSome then some ((below comparator key l).getLast?.map Prod.fst) else none

inductive FImmutableSortedDictionary (α β : Type) (comparator : α → α → Ordering) where
  | array (d : FArraySortedDictionary α β comparator)
  | tree (d : FTreeSortedDictionary α β comparator)

namespace FArraySortedDictionary

def entries (d : FArraySortedDictionary α β comparator) : List (α × β) := d.keys.zip d.values

theorem entries_keys (d : FArraySortedDictionary α β comparator) : d.entries.map Prod.fst = d.keys :=
  List.map_fst_zip (Nat.le_of_eq d.aligned.symm)

theorem entries_values (d : FArraySortedDictionary α β comparator) : d.entries.map Prod.snd = d.values :=
  List.map_snd_zip (Nat.le_of_eq d.aligned)

theorem entries_ascending (d : FArraySortedDictionary α β comparator) : Ascending comparator d.entries := by
  have sorted := d.sorted
  rw [← d.entries_keys, List.pairwise_map] at sorted
  exact sorted

def new : FArraySortedDictionary α β comparator := ⟨[], [], rfl, List.Pairwise.nil, Nat.zero_le _⟩

theorem zip_insertIdx {keys : List α} {values : List β} (aligned : values.length = keys.length) (i : Nat) (key : α)
    (value : β) :
    (keys.insertIdx i key).zip (values.insertIdx i value) = (keys.zip values).insertIdx i (key, value) := by
  induction i generalizing keys values with
  | zero => rfl
  | succ i ih =>
    cases keys with
    | nil =>
      obtain rfl := List.length_eq_zero_iff.mp aligned
      rfl
    | cons k keys =>
      cases values with
      | nil => cases aligned
      | cons v values =>
        rw [List.insertIdx_succ_cons, List.insertIdx_succ_cons, List.zip_cons_cons, List.zip_cons_cons,
          List.insertIdx_succ_cons, ih (Nat.succ.inj aligned)]

theorem zip_set (keys : List α) (values : List β) (i : Nat) (key : α) (value : β) :
    (keys.set i key).zip (values.set i value) = (keys.zip values).set i (key, value) := by
  induction keys generalizing values i with
  | nil => rfl
  | cons k keys ih =>
    cases values with
    | nil => simp
    | cons v values =>
      cases i with
      | zero => rfl
      | succ i => simp [ih]

theorem zip_eraseIdx (keys : List α) (values : List β) (i : Nat) :
    (keys.eraseIdx i).zip (values.eraseIdx i) = (keys.zip values).eraseIdx i := by
  induction keys generalizing values i with
  | nil => rfl
  | cons k keys ih =>
    cases values with
    | nil => simp
    | cons v values =>
      cases i with
      | zero => rfl
      | succ i => simp [ih]

/-- The keys ascend if the entries do. -/
theorem keys_sorted {keys : List α} {values : List β} (aligned : values.length = keys.length)
    (sorted : Ascending comparator (keys.zip values)) : keys.Pairwise (comparator · · = .lt) := by
  rw [← List.map_fst_zip (Nat.le_of_eq aligned.symm)]
  exact List.pairwise_map.mpr sorted

theorem findInsertPosition_le (key : α) (keys : List α) : findInsertPosition comparator key keys ≤ keys.length := by
  induction keys with
  | nil => exact Nat.le_refl 0
  | cons k rest ih =>
    rw [findInsertPosition]
    split
    · exact Nat.succ_le_succ ih
    · exact Nat.zero_le _

section Trans
variable [TransCmp comparator] (d : FArraySortedDictionary α β comparator) (key : α) (value : β)

theorem set_entries {pos : Nat} (found : findKey comparator key d.keys = some pos) :
    (d.keys.set pos key).zip (d.values.set pos value) = replace comparator key value d.entries := by
  rw [← d.entries_keys] at found
  rw [zip_set]
  exact set_replace d.entries_ascending found

theorem there {pos : Nat} (found : findKey comparator key d.keys = some pos) :
    (find comparator key d.entries).isSome := by
  rw [find_isSome d.entries_ascending, d.entries_keys, found]
  rfl

theorem insertIdx_entries (missing : findKey comparator key d.keys = none) :
    (d.keys.insertIdx (findInsertPosition comparator key d.keys) key).zip
      (d.values.insertIdx (findInsertPosition comparator key d.keys) value) =
        insert comparator key value d.entries := by
  rw [← d.entries_keys] at missing
  have placed : d.entries.insertIdx _ (key, value) = _ := insertIdx_eq missing
  rw [zip_insertIdx d.aligned]
  rwa [d.entries_keys] at placed

def insertKey : Except DictionaryException (FImmutableSortedDictionary α β comparator) :=
  match found : findKey comparator key d.keys with
  | none =>
    if full : SORTED_DICTIONARY_ARRAY_TO_RB_TREE_SIZE_THRESHOLD ≤ d.keys.length then
      .tree <$> FTreeSortedDictionary.fromDictionary comparator ⟨d.entries ++ [(key, value)], by
        have few := d.few
        simp only [SORTED_DICTIONARY_ARRAY_TO_RB_TREE_SIZE_THRESHOLD] at few
        simp only [entries, List.length_append, List.length_zip, d.aligned, List.length_singleton]
        omega⟩
    else
      let newPos := findInsertPosition comparator key d.keys
      have place : newPos ≤ d.keys.length := findInsertPosition_le key d.keys
      have aligned : (d.values.insertIdx newPos value).length = (d.keys.insertIdx newPos key).length := by
        rw [List.length_insertIdx_of_le_length place, List.length_insertIdx_of_le_length (d.aligned ▸ place),
          d.aligned]
      .ok (.array
        { keys := d.keys.insertIdx newPos key
          values := d.values.insertIdx newPos value
          aligned := aligned
          sorted := keys_sorted aligned <| by
            rw [insertIdx_entries d key value found]
            exact insert_ascending d.entries_ascending
          few := by
            rw [List.length_insertIdx_of_le_length place]
            omega })
  | some pos =>
    have aligned : (d.values.set pos value).length = (d.keys.set pos key).length := by simp [d.aligned]
    .ok (.array
      { keys := d.keys.set pos key
        values := d.values.set pos value
        aligned := aligned
        sorted := keys_sorted aligned <| by
          rw [set_entries d key value found]
          exact alike_ascending (replace_alike d.entries_ascending (d.there key found))
            (insert_ascending d.entries_ascending)
        few := by
          rw [List.length_set]
          exact d.few })

theorem eraseIdx_entries {pos : Nat} (found : findKey comparator key d.keys = some pos) :
    (d.keys.eraseIdx pos).zip (d.values.eraseIdx pos) = erase comparator key d.entries := by
  rw [← d.entries_keys] at found
  rw [zip_eraseIdx]
  exact eraseIdx_eq d.entries_ascending found

def removeKey : FArraySortedDictionary α β comparator :=
  match found : findKey comparator key d.keys with
  | none => d
  | some pos =>
    have aligned : (d.values.eraseIdx pos).length = (d.keys.eraseIdx pos).length := by
      rw [List.length_eraseIdx, List.length_eraseIdx, d.aligned]
    { keys := d.keys.eraseIdx pos
      values := d.values.eraseIdx pos
      aligned := aligned
      sorted := keys_sorted aligned <| by
        rw [eraseIdx_entries d key found]
        exact erase_ascending d.entries_ascending
      few := Nat.le_trans (List.length_eraseIdx_le _ _) d.few }

def get : Option β := (findKey comparator key d.keys).bind fun pos => d.values[pos]?

def contains : Bool := (findKey comparator key d.keys).isSome

/-- The outer `none` is the exception. -/
def getPredecessorKey : Option (Option α) :=
  (findKey comparator key d.keys).map fun pos => if pos = 0 then none else d.keys[pos - 1]?

def isEmpty : Bool := d.keys.isEmpty

def count : Nat := d.keys.length

def fromDictionary (comparator : α → α → Ordering) [TransCmp comparator] (dictionary : NSDictionary α β)
    (few : dictionary.entries.length ≤ SORTED_DICTIONARY_ARRAY_TO_RB_TREE_SIZE_THRESHOLD) :
    Except DictionaryException (FArraySortedDictionary α β comparator) :=
  let keyList := sortUsingComparator comparator dictionary.entries
  if rising : Rising comparator keyList then
    .ok
      { keys := keyList.map Prod.fst
        values := keyList.map Prod.snd
        aligned := by simp
        sorted := List.pairwise_map.mpr rising.ascending
        few := by
          rw [List.length_map, (sort_perm comparator dictionary.entries).length_eq]
          exact few }
  else .error .sameOrdering

def minKey : Option α := d.keys.head?

def maxKey : Option α := d.keys.getLast?

omit d in
theorem fromDictionary_ok (dictionary : NSDictionary α β)
    (few : dictionary.entries.length ≤ SORTED_DICTIONARY_ARRAY_TO_RB_TREE_SIZE_THRESHOLD)
    (apart : dictionary.entries.Pairwise (comparator ·.1 ·.1 ≠ .eq)) :
    ∃ d, fromDictionary comparator dictionary few = .ok d ∧ d.entries.Perm dictionary.entries := by
  have rising := (rising_iff dictionary.entries).mpr apart
  have together (l : List (α × β)) : (l.map Prod.fst).zip (l.map Prod.snd) = l := by
    rw [← List.unzip_fst, ← List.unzip_snd, List.zip_unzip]
  refine ⟨_, dif_pos rising, ?_⟩
  exact (List.Perm.of_eq (together _)).trans (sort_perm comparator dictionary.entries)

theorem fromDictionary_error {dictionary : NSDictionary α β}
    (few : dictionary.entries.length ≤ SORTED_DICTIONARY_ARRAY_TO_RB_TREE_SIZE_THRESHOLD)
    (together : ¬ dictionary.entries.Pairwise (comparator ·.1 ·.1 ≠ .eq)) :
    fromDictionary comparator dictionary few = .error .sameOrdering :=
  dif_neg fun rising => together ((rising_iff dictionary.entries).mp rising)

/-! ### The entries -/

theorem get_entries : d.get key = find comparator key d.entries := by
  rw [find_eq d.entries_ascending, d.entries_keys, get, ← d.entries_values]
  cases findKey comparator key d.keys with
  | none => rfl
  | some pos => exact List.getElem?_map

theorem absent (missing : findKey comparator key d.keys = none) : ∀ a ∈ d.entries, comparator key a.1 ≠ .eq := by
  rw [← find_eq_none, find_eq d.entries_ascending, d.entries_keys, missing]
  rfl

theorem contains_entries : d.contains key = (find comparator key d.entries).isSome := by
  rw [find_isSome d.entries_ascending, d.entries_keys, contains]

theorem predecessor_entries : d.getPredecessorKey key = predecessor comparator key d.entries := by
  unfold predecessor
  rw [← d.contains_entries, contains, getPredecessorKey]
  cases found : findKey comparator key d.keys with
  | none => rfl
  | some pos =>
    have inside := findKey_lt key d.keys found
    rw [← d.entries_keys] at found
    show some (if pos = 0 then none else d.keys[pos - 1]?) = _
    rw [below_take d.entries_ascending found, ← List.getLast?_map, List.map_take, d.entries_keys, List.getLast?_take,
      List.getElem?_eq_getElem (show pos - 1 < d.keys.length by omega)]
    rfl

theorem removeKey_entries : (d.removeKey key).entries = erase comparator key d.entries := by
  unfold removeKey
  split
  · rename_i missing
    exact (erase_absent (d.absent key missing)).symm
  · rename_i pos found
    exact eraseIdx_entries d key found

end Trans

end FArraySortedDictionary

namespace FImmutableSortedDictionary

def entries : FImmutableSortedDictionary α β comparator → List (α × β)
  | array d => d.entries
  | tree d => d.entries

def isTree : FImmutableSortedDictionary α β comparator → Bool
  | array _ => false
  | tree _ => true

end FImmutableSortedDictionary

/-- An array takes the key that is written, a tree keeps its own, and the 26th entry makes an array a tree. -/
def setObject (comparator : α → α → Ordering) (key : α) (value : β) (isTree : Bool) (entries : List (α × β)) :
    Bool × List (α × β) :=
  if isTree then (true, insert comparator key value entries)
  else if (find comparator key entries).isSome then (false, replace comparator key value entries)
  else
    (decide (SORTED_DICTIONARY_ARRAY_TO_RB_TREE_SIZE_THRESHOLD ≤ entries.length),
      insert comparator key value entries)

theorem setObject_forall {P : α → Prop} {Q : β → Prop} {key : α} {value : β} (isTree : Bool)
    {entries : List (α × β)} (held : ∀ e ∈ entries, P e.1 ∧ Q e.2) (named : P key) (valued : Q value) :
    ∀ e ∈ (setObject comparator key value isTree entries).2, P e.1 ∧ Q e.2 := by
  unfold setObject
  split
  · exact insert_forall held named valued
  · split
    · exact replace_forall held named valued
    · exact insert_forall held named valued

theorem setObject_alike [TransCmp comparator] (key : α) (value : β) (isTree : Bool) {entries : List (α × β)}
    (sorted : Ascending comparator entries) :
    Alike comparator (setObject comparator key value isTree entries).2 (insert comparator key value entries) := by
  unfold setObject
  split
  · exact alike_refl _
  · split
    · rename_i there
      exact replace_alike sorted there
    · exact alike_refl _

namespace FArraySortedDictionary
variable [TransCmp comparator] (d : FArraySortedDictionary α β comparator) (key : α) (value : β)

/-- The tree of 26 entries is the array of 25 with the new one in its place. -/
theorem insertKey_entries : ∃ d', d.insertKey key value = .ok d' ∧
    (d'.isTree, d'.entries) = setObject comparator key value false d.entries := by
  have sets : setObject comparator key value false d.entries =
      if (findKey comparator key d.keys).isSome then (false, replace comparator key value d.entries)
      else
        (decide (SORTED_DICTIONARY_ARRAY_TO_RB_TREE_SIZE_THRESHOLD ≤ d.keys.length),
          insert comparator key value d.entries) := by
    unfold setObject
    rw [if_neg Bool.false_ne_true, find_isSome d.entries_ascending, d.entries_keys, ← d.entries_keys, List.length_map]
  unfold insertKey
  split
  · rename_i missing
    have absent := d.absent key missing
    rw [sets, if_neg (by simp [missing])]
    split
    · rename_i full
      have apart : (d.entries ++ [(key, value)]).Pairwise (comparator ·.1 ·.1 ≠ .eq) := by
        rw [List.pairwise_append]
        refine ⟨d.entries_ascending.imp fun less => by simp [less], List.pairwise_singleton _ _, ?_⟩
        intro a member b last
        obtain rfl := List.mem_singleton.mp last
        exact fun same => absent a member (OrientedCmp.eq_symm same)
      obtain ⟨t, built, perm⟩ := FTreeSortedDictionary.fromDictionary_ok ⟨d.entries ++ [(key, value)], _⟩ apart
      rw [built]
      refine ⟨.tree t, rfl, ?_⟩
      have same : t.entries = insert comparator key value d.entries :=
        Ascending.unique t.sorted (insert_ascending d.entries_ascending) (perm.trans (insert_perm absent).symm)
      rw [decide_eq_true full, ← same]
      rfl
    · rename_i room
      refine ⟨_, rfl, ?_⟩
      rw [decide_eq_false room, ← insertIdx_entries d key value missing]
      rfl
  · rename_i pos found
    refine ⟨_, rfl, ?_⟩
    rw [sets, if_pos (by simp [found]), ← set_entries d key value found]
    rfl

end FArraySortedDictionary

end SimpleSNS
