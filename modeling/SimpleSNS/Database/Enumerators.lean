import SimpleSNS.Database.FImmutableSortedDictionary

/-!
The enumerators of a sorted dictionary's keys: forwards or backwards, all of them or from a key on. The one over
a tree keeps a stack of the nodes that it has still to return.
-/

namespace SimpleSNS
open Std Sorted FLLRBNode

variable {α β : Type} {comparator : α → α → Ordering}

/-- `nextObject` again and again returns just these. -/
inductive Yields {ε κ : Type} (nextObject : ε → Option (κ × ε)) : ε → List κ → Prop where
  | nil {e : ε} (none : nextObject e = none) : Yields nextObject e []
  | next {e e' : ε} {key : κ} {keys : List κ} (some : nextObject e = some (key, e'))
      (rest : Yields nextObject e' keys) : Yields nextObject e (key :: keys)

/-! ### Over a tree -/

structure FTreeSortedDictionaryEnumerator (α β : Type) where
  stack : List (FLLRBNode α β)
  isReverse : Bool

namespace FTreeSortedDictionaryEnumerator

/-- Where a key lies on the way from the first key asked for. Without one it is past it, and on the way back before
it. -/
def place (comparator : α → α → Ordering) (startKey : Option α) (isReverse : Bool) (key : α) : Ordering :=
  let cmp := match startKey with
    | some startKey => comparator key startKey
    | none => .gt
  if isReverse then cmp.swap else cmp

/-- The loop of `initWithImmutableSortedDictionary`. -/
def descend (comparator : α → α → Ordering) (startKey : Option α) (isReverse : Bool) :
    FLLRBNode α β → List (FLLRBNode α β) → List (FLLRBNode α β)
  | .empty, stack => stack
  | .node color left key value right, stack =>
    match place comparator startKey isReverse key with
    | .lt =>
      if isReverse then descend comparator startKey isReverse left stack
      else descend comparator startKey isReverse right stack
    | .eq => .node color left key value right :: stack
    | .gt =>
      let stack := .node color left key value right :: stack
      if isReverse then descend comparator startKey isReverse right stack
      else descend comparator startKey isReverse left stack

def initWith (d : FTreeSortedDictionary α β comparator) (startKey : Option α) (isReverse : Bool) :
    FTreeSortedDictionaryEnumerator α β :=
  ⟨descend comparator startKey isReverse d.root [], isReverse⟩

/-- The loop of `nextObject`. -/
def spine (isReverse : Bool) : FLLRBNode α β → List (FLLRBNode α β) → List (FLLRBNode α β)
  | .empty, stack => stack
  | .node color left key value right, stack =>
    if isReverse then spine isReverse right (.node color left key value right :: stack)
    else spine isReverse left (.node color left key value right :: stack)

def nextObject (e : FTreeSortedDictionaryEnumerator α β) : Option (α × FTreeSortedDictionaryEnumerator α β) :=
  match e.stack with
  | .node _ left key _ right :: stack =>
    some (key, { e with stack := spine e.isReverse (if e.isReverse then left else right) stack })
  | _ => none

/-! The keys that are still to come: those of each node on the stack and of its last child. -/

def keys (isReverse : Bool) (t : FLLRBNode α β) : List α :=
  if isReverse then (t.entries.map Prod.fst).reverse else t.entries.map Prod.fst

def pending (isReverse : Bool) : List (FLLRBNode α β) → List α
  | [] => []
  | .empty :: stack => pending isReverse stack
  | .node _ left key _ right :: stack =>
    key :: keys isReverse (if isReverse then left else right) ++ pending isReverse stack

def Solid (stack : List (FLLRBNode α β)) : Prop := ∀ n ∈ stack, n.isEmpty = false

variable {stack : List (FLLRBNode α β)} {isReverse : Bool}

theorem Solid.push {c : FLLRBColor} {l r : FLLRBNode α β} {k : α} {v : β} (solid : Solid stack) :
    Solid (.node c l k v r :: stack) := by
  intro n member
  rcases List.mem_cons.mp member with rfl | there
  · rfl
  · exact solid n there

theorem spine_pending (t : FLLRBNode α β) (solid : Solid stack) : Solid (spine isReverse t stack) ∧
    pending isReverse (spine isReverse t stack) = keys isReverse t ++ pending isReverse stack := by
  induction t generalizing stack with
  | empty =>
    refine ⟨solid, ?_⟩
    cases isReverse <;> rfl
  | node c l k v r ihl ihr =>
    rw [spine]
    cases isReverse with
    | false =>
      obtain ⟨solid', same⟩ := ihl solid.push
      refine ⟨solid', same.trans ?_⟩
      simp [pending, keys, entries]
    | true =>
      obtain ⟨solid', same⟩ := ihr solid.push
      refine ⟨solid', same.trans ?_⟩
      simp [pending, keys, entries]

theorem yields (isReverse : Bool) (solid : Solid stack) :
    Yields nextObject ⟨stack, isReverse⟩ (pending isReverse stack) := by
  generalize same : pending isReverse stack = l
  induction l generalizing stack with
  | nil =>
    refine .nil ?_
    cases stack with
    | nil => rfl
    | cons n stack =>
      cases n with
      | empty => rfl
      | node => cases same
  | cons key l ih =>
    cases stack with
    | nil => cases same
    | cons n stack =>
      cases n with
      | empty => cases solid .empty List.mem_cons_self
      | node c left k v right =>
        obtain ⟨rfl, rest⟩ := List.cons.inj same
        obtain ⟨solid', pending'⟩ := spine_pending (if isReverse then left else right)
          (fun n member => solid n (List.mem_cons_of_mem _ member))
        exact .next rfl (ih solid' (pending'.trans rest))

section Trans
variable [TransCmp comparator] {startKey : Option α} {a b : α}

/-- `a` comes before `b` on the way. -/
def Before (comparator : α → α → Ordering) (isReverse : Bool) (a b : α) : Prop :=
  if isReverse then comparator b a = .lt else comparator a b = .lt

theorem place_after (here : place comparator startKey isReverse a ≠ .lt) (before : Before comparator isReverse a b) :
    place comparator startKey isReverse b = .gt := by
  cases startKey with
  | none =>
    cases isReverse with
    | false => rfl
    | true => exact absurd rfl here
  | some s =>
    cases isReverse with
    | false =>
      have above : (comparator s a).isLE := OrientedCmp.isLE_of_isGE (Ordering.isGE_iff_ne_lt.mpr here)
      exact OrientedCmp.gt_of_lt (TransCmp.lt_of_isLE_of_lt above before)
    | true =>
      have above : (comparator a s).isLE := Ordering.isLE_iff_ne_gt.mpr fun gt => here (congrArg Ordering.swap gt)
      exact congrArg Ordering.swap (TransCmp.lt_of_lt_of_isLE before above)

theorem place_before (here : place comparator startKey isReverse b ≠ .gt) (before : Before comparator isReverse a b) :
    place comparator startKey isReverse a = .lt := by
  cases startKey with
  | none =>
    cases isReverse with
    | false => exact absurd rfl here
    | true => rfl
  | some s =>
    cases isReverse with
    | false =>
      have upTo : (comparator b s).isLE := Ordering.isLE_iff_ne_gt.mpr here
      exact TransCmp.lt_of_lt_of_isLE before upTo
    | true =>
      have upTo : (comparator s b).isLE := OrientedCmp.isLE_of_isGE <|
        Ordering.isGE_iff_ne_lt.mpr fun lt => here (congrArg Ordering.swap lt)
      exact congrArg Ordering.swap (OrientedCmp.gt_of_lt (TransCmp.lt_of_isLE_of_lt upTo before))

/-- The keys of a tree from the first one asked for on. -/
def reached (comparator : α → α → Ordering) (startKey : Option α) (isReverse : Bool) (key : α) : Bool :=
  place comparator startKey isReverse key != .lt

omit [TransCmp comparator] in
theorem keys_node (c : FLLRBColor) (l : FLLRBNode α β) (k : α) (v : β) (r : FLLRBNode α β) :
    keys isReverse (.node c l k v r) =
      keys isReverse (if isReverse then r else l) ++ k :: keys isReverse (if isReverse then l else r) := by
  cases isReverse <;> simp [keys, entries]

omit [TransCmp comparator] in
theorem keys_before (isReverse : Bool) {t : FLLRBNode α β} (sorted : Ascending comparator t.entries) :
    (keys isReverse t).Pairwise (Before comparator isReverse) := by
  cases isReverse with
  | false => exact List.pairwise_map.mpr sorted
  | true => exact List.pairwise_reverse.mpr (List.pairwise_map.mpr sorted)

omit [TransCmp comparator] in
/-- One turn of the loop: the children in the order of the way. -/
theorem descend_node (c : FLLRBColor) (l : FLLRBNode α β) (k : α) (v : β) (r : FLLRBNode α β) :
    descend comparator startKey isReverse (.node c l k v r) stack =
      match place comparator startKey isReverse k with
      | .lt => descend comparator startKey isReverse (if isReverse then l else r) stack
      | .eq => .node c l k v r :: stack
      | .gt => descend comparator startKey isReverse (if isReverse then r else l) (.node c l k v r :: stack) := by
  rw [descend]
  cases place comparator startKey isReverse k <;> cases isReverse <;> rfl

theorem descend_pending (startKey : Option α) (isReverse : Bool) (t : FLLRBNode α β)
    (sorted : Ascending comparator t.entries) (solid : Solid stack) :
    Solid (descend comparator startKey isReverse t stack) ∧
      pending isReverse (descend comparator startKey isReverse t stack) =
        (keys isReverse t).filter (reached comparator startKey isReverse) ++ pending isReverse stack := by
  induction t generalizing stack with
  | empty =>
    refine ⟨solid, ?_⟩
    cases isReverse <;> rfl
  | node c l k v r ihl ihr =>
    have way := keys_before isReverse sorted
    rw [keys_node, List.pairwise_append, List.pairwise_cons] at way
    obtain ⟨_, ⟨after, _⟩, apart⟩ := way
    obtain ⟨sortedLeft, sortedRight, _⟩ := ascending_mid.mp sorted
    rw [descend_node, keys_node, List.filter_append]
    -- up to a node before the start, nothing counts; from one that is not, everything does
    have skipped (notYet : place comparator startKey isReverse k ≠ .gt) :
        (keys isReverse (if isReverse then r else l)).filter (reached comparator startKey isReverse) = [] := by
      apply List.filter_eq_nil_iff.mpr
      intro a member
      simp [reached, place_before notYet (apart a member k List.mem_cons_self)]
    have kept (here : place comparator startKey isReverse k ≠ .lt) :
        (k :: keys isReverse (if isReverse then l else r)).filter (reached comparator startKey isReverse) =
          k :: keys isReverse (if isReverse then l else r) := by
      apply List.filter_eq_self.mpr
      intro a member
      rcases List.mem_cons.mp member with rfl | further
      · simpa [reached] using here
      · simp [reached, place_after here (after a further)]
    cases side : place comparator startKey isReverse k with
    | lt =>
      rw [skipped (by simp [side]), List.filter_cons_of_neg (by simp [reached, side]), List.nil_append]
      cases isReverse with
      | false => exact ihr sortedRight solid
      | true => exact ihl sortedLeft solid
    | eq =>
      rw [skipped (by simp [side]), kept (by simp [side]), List.nil_append]
      exact ⟨solid.push, rfl⟩
    | gt =>
      rw [kept (by simp [side]), List.append_assoc]
      cases isReverse with
      | false => exact ihl sortedLeft solid.push
      | true => exact ihr sortedRight solid.push

theorem initWith_yields (d : FTreeSortedDictionary α β comparator) (startKey : Option α) (isReverse : Bool) :
    Yields nextObject (initWith d startKey isReverse)
      ((keys isReverse d.root).filter (reached comparator startKey isReverse)) := by
  have solid : Solid ([] : List (FLLRBNode α β)) := nofun
  obtain ⟨solid', same⟩ := descend_pending startKey isReverse d.root d.sorted solid
  have all := yields isReverse solid'
  rw [same, pending, List.append_nil] at all
  exact all

end Trans

end FTreeSortedDictionaryEnumerator

/-! ### Over arrays -/

structure FArraySortedDictionaryEnumerator (α : Type) where
  keys : List α
  pos : Int
  reverse : Bool

namespace FArraySortedDictionaryEnumerator

def nextObject (e : FArraySortedDictionaryEnumerator α) : Option (α × FArraySortedDictionaryEnumerator α) :=
  if 0 ≤ e.pos then
    match e.keys[e.pos.toNat]? with
    | some key => some (key, { e with pos := if e.reverse then e.pos - 1 else e.pos + 1 })
    | none => none
  else none

theorem yields_forward (keys rest : List α) (pos : Nat) (left : keys.drop pos = rest) :
    Yields nextObject ⟨keys, pos, false⟩ rest := by
  induction rest generalizing pos with
  | nil =>
    refine .nil ?_
    have past := List.drop_eq_nil_iff.mp left
    simp [nextObject, past]
  | cons key rest ih =>
    have here : keys[pos]? = some key := by rw [← List.head?_drop, left, List.head?_cons]
    have further : keys.drop (pos + 1) = rest := by rw [← List.tail_drop, left, List.tail_cons]
    refine .next ?_ (ih (pos + 1) further)
    simp [nextObject, here]

theorem yields_reverse (keys : List α) (n : Nat) (within : n ≤ keys.length) :
    Yields nextObject ⟨keys, (n : Int) - 1, true⟩ (keys.take n).reverse := by
  induction n with
  | zero => exact .nil rfl
  | succ n ih =>
    have here : keys[n]? = some (keys[n]) := List.getElem?_eq_getElem within
    rw [List.take_succ_eq_append_getElem within, List.reverse_append, List.reverse_singleton, List.singleton_append]
    refine .next ?_ (ih (Nat.le_of_succ_le within))
    simp [nextObject, here]

end FArraySortedDictionaryEnumerator

namespace FArraySortedDictionary

def keyEnumeratorFrom (d : FArraySortedDictionary α β comparator) (startKey : α) : FArraySortedDictionaryEnumerator α :=
  ⟨d.keys, findInsertPosition comparator startKey d.keys, false⟩

/-- On the way back it starts just before the closest match, unless that is exact. -/
def reverseStart (comparator : α → α → Ordering) (startKey : α) (keys : List α) : Int :=
  let startPos := findInsertPosition comparator startKey keys
  match keys[startPos]? with
  | some key => if comparator key startKey ≠ .eq then startPos - 1 else startPos
  | none => startPos - 1

def reverseKeyEnumeratorFrom (d : FArraySortedDictionary α β comparator) (startKey : α) :
    FArraySortedDictionaryEnumerator α := ⟨d.keys, reverseStart comparator startKey d.keys, true⟩

section Trans
variable [TransCmp comparator] {startKey : α} {keys : List α}

theorem drop_insertPosition (sorted : keys.Pairwise (comparator · · = .lt)) :
    keys.drop (findInsertPosition comparator startKey keys) = keys.filter (comparator · startKey != .lt) := by
  induction keys with
  | nil => rfl
  | cons k rest ih =>
    obtain ⟨above, sorted⟩ := List.pairwise_cons.mp sorted
    rw [findInsertPosition]
    by_cases before : comparator k startKey = .lt
    · rw [if_pos before, List.filter_cons_of_neg (by simp [before]), List.drop_succ_cons, ih sorted]
    · rw [if_neg before]
      refine (List.filter_eq_self.mpr ?_).symm
      intro a member
      rcases List.mem_cons.mp member with rfl | further
      · simpa using before
      · have upTo : (comparator startKey k).isLE := OrientedCmp.isLE_of_isGE (Ordering.isGE_iff_ne_lt.mpr before)
        simp [OrientedCmp.gt_of_lt (TransCmp.lt_of_isLE_of_lt upTo (above a further))]

theorem take_reverseStart (startKey : α) (sorted : keys.Pairwise (comparator · · = .lt)) :
    ∃ n, n ≤ keys.length ∧ reverseStart comparator startKey keys = (n : Int) - 1 ∧
      keys.take n = keys.filter (comparator · startKey != .gt) := by
  induction keys with
  | nil => exact ⟨0, Nat.le_refl 0, rfl, rfl⟩
  | cons k rest ih =>
    obtain ⟨above, sorted⟩ := List.pairwise_cons.mp sorted
    unfold reverseStart
    rw [findInsertPosition]
    by_cases before : comparator k startKey = .lt
    · obtain ⟨n, within, start, same⟩ := ih sorted
      refine ⟨n + 1, Nat.succ_le_succ within, ?_, ?_⟩
      · rw [if_pos before]
        unfold reverseStart at start
        simp only [List.getElem?_cons_succ] at start ⊢
        cases found : rest[findInsertPosition comparator startKey rest]? with
        | none =>
          simp only [found] at start ⊢
          omega
        | some key =>
          simp only [found] at start ⊢
          split at start <;> simp_all
      · rw [List.take_succ_cons, List.filter_cons_of_pos (by simp [before]), same]
    · have upTo : (comparator startKey k).isLE := OrientedCmp.isLE_of_isGE (Ordering.isGE_iff_ne_lt.mpr before)
      have beyond : rest.filter (comparator · startKey != .gt) = [] := by
        apply List.filter_eq_nil_iff.mpr
        intro a further
        simp [OrientedCmp.gt_of_lt (TransCmp.lt_of_isLE_of_lt upTo (above a further))]
      rw [if_neg before]
      by_cases here : comparator k startKey = .eq
      · refine ⟨1, Nat.succ_pos _, by simp [here], ?_⟩
        rw [List.filter_cons_of_pos (by simp [here]), beyond]
        rfl
      · refine ⟨0, Nat.zero_le _, by simp [here], ?_⟩
        have gt : comparator k startKey = .gt := by cases side : comparator k startKey <;> simp_all
        rw [List.filter_cons_of_neg (by simp [gt]), beyond]
        rfl

end Trans

end FArraySortedDictionary

/-! ### One or the other -/

/-- What asks a dictionary for its keys gets an array's own enumerator or one of the two above. -/
inductive NSEnumerator (α β : Type) where
  | objects (rest : List α)
  | array (e : FArraySortedDictionaryEnumerator α)
  | tree (e : FTreeSortedDictionaryEnumerator α β)

namespace NSEnumerator

def nextObject : NSEnumerator α β → Option (α × NSEnumerator α β)
  | objects [] => none
  | objects (key :: rest) => some (key, objects rest)
  | array e => e.nextObject.map fun next => (next.1, array next.2)
  | tree e => e.nextObject.map fun next => (next.1, tree next.2)

theorem objects_yields (keys : List α) : Yields nextObject (objects keys : NSEnumerator α β) keys := by
  induction keys with
  | nil => exact .nil rfl
  | cons key rest ih => exact .next rfl ih

end NSEnumerator

/-- The same keys come out of an enumerator that wraps another. -/
theorem Yields.wrap {ε ε' κ : Type} {next : ε → Option (κ × ε)} {next' : ε' → Option (κ × ε')} (f : ε → ε')
    (same : ∀ e, next' (f e) = (next e).map fun n => (n.1, f n.2)) {e : ε} {keys : List κ}
    (yields : Yields next e keys) :
    Yields next' (f e) keys := by
  induction yields with
  | nil none => exact .nil (by rw [same, none]; rfl)
  | next some _ ih => exact .next (by rw [same, some]; rfl) ih

theorem NSEnumerator.array_yields {e : FArraySortedDictionaryEnumerator α} {keys : List α}
    (yields : Yields FArraySortedDictionaryEnumerator.nextObject e keys) :
    Yields nextObject (array e : NSEnumerator α β) keys := by
  have same (e : FArraySortedDictionaryEnumerator α) : nextObject (array e : NSEnumerator α β) =
    e.nextObject.map fun next => (next.1, array next.2) := rfl
  exact yields.wrap _ same

theorem NSEnumerator.tree_yields {e : FTreeSortedDictionaryEnumerator α β} {keys : List α}
    (yields : Yields FTreeSortedDictionaryEnumerator.nextObject e keys) : Yields nextObject (tree e) keys := by
  have same (e : FTreeSortedDictionaryEnumerator α β) : nextObject (tree e) =
    e.nextObject.map fun next => (next.1, tree next.2) := rfl
  exact yields.wrap _ same

namespace FImmutableSortedDictionary

def keyEnumerator : FImmutableSortedDictionary α β comparator → NSEnumerator α β
  | array d => .objects d.keys
  | tree d => .tree (.initWith d none false)

def keyEnumeratorFrom (startKey : α) : FImmutableSortedDictionary α β comparator → NSEnumerator α β
  | array d => .array (d.keyEnumeratorFrom startKey)
  | tree d => .tree (.initWith d (some startKey) false)

def reverseKeyEnumerator : FImmutableSortedDictionary α β comparator → NSEnumerator α β
  | array d => .objects d.keys.reverse
  | tree d => .tree (.initWith d none true)

def reverseKeyEnumeratorFrom (startKey : α) : FImmutableSortedDictionary α β comparator → NSEnumerator α β
  | array d => .array (d.reverseKeyEnumeratorFrom startKey)
  | tree d => .tree (.initWith d (some startKey) true)

def keys (d : FImmutableSortedDictionary α β comparator) : List α := d.entries.map Prod.fst

variable [TransCmp comparator]

/-- The keys of every dictionary come out in order, both ways from any key on. Without a key to start from, the way
back through a tree is empty. -/
theorem key_enumerators (d : FImmutableSortedDictionary α β comparator) :
    d.keys.Pairwise (comparator · · = .lt) ∧ Yields NSEnumerator.nextObject d.keyEnumerator d.keys ∧
      (∀ startKey, Yields NSEnumerator.nextObject (d.keyEnumeratorFrom startKey)
        (d.keys.filter (comparator · startKey != .lt))) ∧
      (∀ startKey, Yields NSEnumerator.nextObject (d.reverseKeyEnumeratorFrom startKey)
        (d.keys.filter (comparator · startKey != .gt)).reverse) ∧
      Yields NSEnumerator.nextObject d.reverseKeyEnumerator (if d.isTree then [] else d.keys.reverse) := by
  have sorted := (reads d).ascending
  refine ⟨List.pairwise_map.mpr sorted, ?_⟩
  cases d with
  | array d =>
    have keys : (array d).keys = d.keys := d.entries_keys
    rw [keys]
    refine ⟨NSEnumerator.objects_yields _, fun startKey => NSEnumerator.array_yields ?_,
      fun startKey => NSEnumerator.array_yields ?_, NSEnumerator.objects_yields _⟩
    · rw [← FArraySortedDictionary.drop_insertPosition d.sorted]
      exact FArraySortedDictionaryEnumerator.yields_forward _ _ _ rfl
    · obtain ⟨n, within, start, same⟩ := FArraySortedDictionary.take_reverseStart startKey d.sorted
      rw [← same]
      unfold FArraySortedDictionary.reverseKeyEnumeratorFrom
      rw [start]
      exact FArraySortedDictionaryEnumerator.yields_reverse _ n within
  | tree d =>
    have wrapped (startKey : Option α) (isReverse : Bool) :
        Yields NSEnumerator.nextObject (.tree (.initWith d startKey isReverse))
          ((FTreeSortedDictionaryEnumerator.keys isReverse d.root).filter
            (FTreeSortedDictionaryEnumerator.reached comparator startKey isReverse)) :=
      NSEnumerator.tree_yields (FTreeSortedDictionaryEnumerator.initWith_yields d startKey isReverse)
    refine ⟨?_, fun startKey => wrapped (some startKey) false, fun startKey => ?_, ?_⟩
    · have all := wrapped none false
      have start : FTreeSortedDictionaryEnumerator.reached comparator none false = fun _ => true := rfl
      rwa [start, List.filter_true] at all
    · have back := wrapped (some startKey) true
      rw [FTreeSortedDictionaryEnumerator.keys, if_pos rfl, List.filter_reverse] at back
      have same : FTreeSortedDictionaryEnumerator.reached comparator (some startKey) true =
          (comparator · startKey != .gt) := by
        funext key
        show ((comparator key startKey).swap != .lt) = _
        cases comparator key startKey <;> rfl
      rwa [same] at back
    · have nothing := wrapped none true
      have start : FTreeSortedDictionaryEnumerator.reached comparator none true = fun _ => false := rfl
      rwa [start, List.filter_false] at nothing

theorem key_enumerators_sample :
    let d : FImmutableSortedDictionary Nat String compare :=
      .tree (((FTreeSortedDictionary.new.insertKey 4 "d").insertKey 1 "a").insertKey 3 "c")
    Yields NSEnumerator.nextObject (d.reverseKeyEnumeratorFrom 3) [3, 1] ∧
      Yields NSEnumerator.nextObject d.reverseKeyEnumerator [] := by
  intro d
  obtain ⟨_, _, _, backFrom, back⟩ := key_enumerators d
  exact ⟨backFrom 3, back⟩

end FImmutableSortedDictionary

end SimpleSNS
