import Mathlib.Algebra.Order.Ring.Nat
import SimpleSNS.Database.Removal

/-!
`FTreeSortedDictionary`: a dictionary that keeps its entries in a tree of `FLLRBValueNode`. A dictionary holds a
tree in order and in balance with a black root, and so do those that its operations return.
-/

namespace SimpleSNS
open Std Sorted

variable {α β : Type}

namespace FLLRBNode

/-! ### The check of a tree -/

/-- The exceptions of `check`. -/
inductive CheckFailure (β : Type) where
  | redNodeHasARedChild
  | rightChildIsRed
  | blackDepth (value : β) (isRed : Bool) (left right : Nat)

def check : FLLRBNode α β → Except (CheckFailure β) Nat
  | empty => .ok 0
  | node color left key value right => do
    if (node color left key value right).isRed && left.isRed then throw .redNodeHasARedChild
    if right.isRed then throw .rightChildIsRed
    let blackDepth ← left.check
    let rightDepth ← right.check
    if blackDepth = rightDepth then
      return blackDepth + if (node color left key value right).isRed then 0 else 1
    else throw (.blackDepth value (node color left key value right).isRed blackDepth rightDepth)

def checkMaxDepth (n : FLLRBNode α β) : Except (CheckFailure β) Bool := do
  let blackDepth ← n.check
  return 2 ^ blackDepth ≤ n.count + 1

def depth : FLLRBNode α β → Nat
  | empty => 0
  | node _ left _ _ right => max left.depth right.depth + 1

variable {t : FLLRBNode α β} {c : FLLRBColor} {n : Nat}

theorem Balanced.check (balanced : Balanced t c n) : t.check = .ok n := by
  induction balanced with
  | empty => rfl
  | red left right ihl ihr =>
    simp [FLLRBNode.check, left.not_red, right.not_red, ihl, ihr, bind, Except.bind, pure, Except.pure]
  | black left right ihl ihr =>
    simp [FLLRBNode.check, right.not_red, ihl, ihr, bind, Except.bind, pure, Except.pure]

theorem count_entries (t : FLLRBNode α β) : t.count = t.entries.length := by
  induction t with
  | empty => rfl
  | node c l k v r ihl ihr =>
    rw [count, entries, List.length_append, List.length_cons, ihl, ihr]
    omega

theorem Balanced.le_count (balanced : Balanced t c n) : 2 ^ n ≤ t.count + 1 := by
  induction balanced with
  | empty => exact Nat.le_refl 1
  | red left right ihl ihr =>
    rw [count]
    omega
  | black left right ihl ihr =>
    rw [count, Nat.pow_succ]
    omega

theorem Balanced.depth_le (balanced : Balanced t c n) : t.depth ≤ 2 * n + (if c = .red then 1 else 0) := by
  induction balanced with
  | empty => exact Nat.le_refl 0
  | red left right ihl ihr =>
    simp only [depth, reduceCtorEq, if_false, Nat.add_zero, if_true] at ihl ihr ⊢
    omega
  | @black l r k v c n left right ihl ihr =>
    simp only [depth, reduceCtorEq, if_false, Nat.add_zero] at ihr ⊢
    have : l.depth ≤ 2 * n + 1 := Nat.le_trans ihl (by split <;> omega)
    omega

theorem minKey_entries (t : FLLRBNode α β) : t.minKey = t.entries.head?.map Prod.fst := by
  induction t with
  | empty => rfl
  | node c l k v r ihl =>
    cases l with
    | empty => rfl
    | node c' ll lk lv lr =>
      rw [minKey, entries, List.head?_append]
      simp only [isEmpty, Bool.false_eq_true, if_false, ihl]
      simp [entries, List.head?_append]

theorem maxKey_entries (t : FLLRBNode α β) : t.maxKey = t.entries.getLast?.map Prod.fst := by
  induction t with
  | empty => rfl
  | node c l k v r _ ihr =>
    rw [maxKey, entries, List.getLast?_append, List.getLast?_cons]
    cases r with
    | empty => rfl
    | node c' rl rk rv rr =>
      simp only [isEmpty, Bool.false_eq_true, if_false, ihr]
      simp [entries, List.getLast?_append, List.getLast?_cons]

theorem maxKey_some (there : t.isEmpty = false) : ∃ k, t.maxKey = some k := by
  cases t with
  | empty => cases there
  | node c l k v r =>
    rw [maxKey_entries, entries, List.getLast?_append, List.getLast?_cons]
    exact ⟨_, rfl⟩

theorem Balanced.setBlack (balanced : Balanced t c n) : ∃ m, Balanced (t.setColor .black) .black m := by
  cases balanced with
  | empty => exact ⟨_, .empty⟩
  | red left right => exact ⟨_, .black left right⟩
  | black left right => exact ⟨_, .black left right⟩

end FLLRBNode

open FLLRBNode

structure FTreeSortedDictionary (α β : Type) (comparator : α → α → Ordering) where
  root : FLLRBNode α β
  sorted : Ascending comparator root.entries
  balanced : ∃ n, Balanced root .black n

namespace FTreeSortedDictionary
variable {comparator : α → α → Ordering}

def new : FTreeSortedDictionary α β comparator := ⟨.empty, List.Pairwise.nil, 0, .empty⟩

/-- The loop of `get`. -/
def getFrom (comparator : α → α → Ordering) (key : α) : FLLRBNode α β → Option β
  | .empty => none
  | .node _ left nodeKey value right =>
    match comparator key nodeKey with
    | .eq => some value
    | .lt => getFrom comparator key left
    | .gt => getFrom comparator key right

def get (d : FTreeSortedDictionary α β comparator) (key : α) : Option β := getFrom comparator key d.root

def contains (d : FTreeSortedDictionary α β comparator) (key : α) : Bool := (d.get key).isSome

/-- The loop of `getPredecessorKey`; `none` for its exception. -/
def predecessorFrom (comparator : α → α → Ordering) (key : α) (rightParent : Option α) :
    FLLRBNode α β → Option (Option α)
  | .empty => none
  | .node _ left nodeKey _ right =>
    match comparator key nodeKey with
    | .eq => some (if left.isEmpty then rightParent else left.maxKey)
    | .lt => predecessorFrom comparator key rightParent left
    | .gt => predecessorFrom comparator key (some nodeKey) right

def getPredecessorKey (d : FTreeSortedDictionary α β comparator) (key : α) : Option (Option α) :=
  predecessorFrom comparator key none d.root

def isEmpty (d : FTreeSortedDictionary α β comparator) : Bool := d.root.isEmpty

def count (d : FTreeSortedDictionary α β comparator) : Nat := d.root.count

def minKey (d : FTreeSortedDictionary α β comparator) : Option α := d.root.minKey

def maxKey (d : FTreeSortedDictionary α β comparator) : Option α := d.root.maxKey

section Trans
variable [TransCmp comparator]

def insertKey (d : FTreeSortedDictionary α β comparator) (aKey : α) (aValue : β) :
    FTreeSortedDictionary α β comparator where
  root := (d.root.insertKey comparator aKey aValue).setColor .black
  sorted := by
    rw [setColor_entries, insertKey_entries _ d.sorted]
    exact insert_ascending d.sorted
  balanced := by
    obtain ⟨n, balanced⟩ := d.balanced
    obtain ⟨c, inserted⟩ := (insertKey_balanced balanced).1 rfl
    exact inserted.setBlack

def removeKey (d : FTreeSortedDictionary α β comparator) (aKey : α) : FTreeSortedDictionary α β comparator :=
  if d.contains aKey then
    { root := (d.root.remove comparator aKey).setColor .black
      sorted := by
        obtain ⟨n, balanced⟩ := d.balanced
        rw [setColor_entries, ((remove_spec d.root d.sorted).some _ _ balanced).2]
        exact erase_ascending d.sorted
      balanced := by
        obtain ⟨n, balanced⟩ := d.balanced
        exact ((remove_spec d.root d.sorted).some _ _ balanced).1.root }
  else d

/-! ### The entries -/

theorem getFrom_entries (key : α) (t : FLLRBNode α β) (sorted : Ascending comparator t.entries) :
    getFrom comparator key t = find comparator key t.entries := by
  induction t with
  | empty => rfl
  | node c l k v r ihl ihr =>
    obtain ⟨below, above, -⟩ := ascending_mid.mp sorted
    rw [getFrom]
    cases place : comparator key k with
    | lt => exact (ihl below).trans (find_lt sorted place).symm
    | eq => exact (find_eq sorted place).symm
    | gt => exact (ihr above).trans (find_gt sorted place).symm

def entries (d : FTreeSortedDictionary α β comparator) : List (α × β) := d.root.entries

theorem get_entries (d : FTreeSortedDictionary α β comparator) (key : α) :
    d.get key = find comparator key d.entries := getFrom_entries key d.root d.sorted

theorem insertKey_entries (d : FTreeSortedDictionary α β comparator) (aKey : α) (aValue : β) :
    (d.insertKey aKey aValue).entries = insert comparator aKey aValue d.entries :=
  (setColor_entries _).trans (FLLRBNode.insertKey_entries _ d.sorted)

theorem removeKey_entries (d : FTreeSortedDictionary α β comparator) (aKey : α) :
    (d.removeKey aKey).entries = erase comparator aKey d.entries := by
  unfold removeKey
  split
  · obtain ⟨n, balanced⟩ := d.balanced
    exact (setColor_entries _).trans ((remove_spec d.root d.sorted).some _ _ balanced).2
  · rename_i absent
    rw [contains, get_entries, Option.isSome_iff_ne_none, not_not, find_eq_none] at absent
    exact (erase_absent absent).symm

theorem predecessorFrom_entries (key : α) (rightParent : Option α) (t : FLLRBNode α β)
    (sorted : Ascending comparator t.entries) : predecessorFrom comparator key rightParent t =
      if (find comparator key t.entries).isSome then
        some (((below comparator key t.entries).getLast?.map Prod.fst).or rightParent)
      else none := by
  induction t generalizing rightParent with
  | empty => rfl
  | node c l k v r ihl ihr =>
    obtain ⟨before, after, -⟩ := ascending_mid.mp sorted
    rw [predecessorFrom]
    cases place : comparator key k with
    | lt =>
      rw [FLLRBNode.entries, find_lt sorted place, below_lt sorted place]
      exact ihl rightParent before
    | eq =>
      rw [FLLRBNode.entries, find_eq sorted place, below_eq sorted place, ← maxKey_entries]
      cases l with
      | empty => rfl
      | node =>
        obtain ⟨last, greatest⟩ := maxKey_some (t := .node _ _ _ _ _) rfl
        rw [greatest]
        rfl
    | gt =>
      rw [FLLRBNode.entries, find_gt sorted place, below_gt sorted place]
      simp only
      rw [ihr (some k) after, List.getLast?_append, List.getLast?_cons]
      cases (below comparator key r.entries).getLast? <;> rfl

end Trans

end FTreeSortedDictionary

end SimpleSNS
