import SimpleSNS.Database.Sorted

/-!
The left-leaning red-black trees in which the database client keeps the children of a node:
`FLLRBValueNode` and `FLLRBEmptyNode`.
-/

namespace SimpleSNS

inductive FLLRBColor where
  | red
  | black
  deriving DecidableEq

def FLLRBColor.flip : FLLRBColor → FLLRBColor
  | .red => .black
  | .black => .red

/-- The black nodes down to a node of this colour with `n` of them below. -/
def FLLRBColor.above : FLLRBColor → Nat → Nat
  | .red, n => n
  | .black, n => n + 1

inductive FLLRBNode (α β : Type) where
  | empty
  | node (color : FLLRBColor) (left : FLLRBNode α β) (key : α) (value : β) (right : FLLRBNode α β)
  deriving DecidableEq

namespace FLLRBNode
variable {α β : Type}

def isEmpty : FLLRBNode α β → Bool
  | empty => true
  | node .. => false

def isRed : FLLRBNode α β → Bool
  | node .red .. => true
  | _ => false

/-- A child of the empty node is `nil`, which is asked only whether it is red, and says no. -/
def left : FLLRBNode α β → FLLRBNode α β
  | empty => empty
  | node _ left _ _ _ => left

def right : FLLRBNode α β → FLLRBNode α β
  | empty => empty
  | node _ _ _ _ right => right

@[simp] theorem left_node (c : FLLRBColor) (l : FLLRBNode α β) (k : α) (v : β) (r : FLLRBNode α β) :
    (node c l k v r).left = l := rfl

@[simp] theorem right_node (c : FLLRBColor) (l : FLLRBNode α β) (k : α) (v : β) (r : FLLRBNode α β) :
    (node c l k v r).right = r := rfl

@[simp] theorem red_isRed (l : FLLRBNode α β) (k : α) (v : β) (r : FLLRBNode α β) :
    (node .red l k v r).isRed = true := rfl

@[simp] theorem black_isRed (l : FLLRBNode α β) (k : α) (v : β) (r : FLLRBNode α β) :
    (node .black l k v r).isRed = false := rfl

/-- The code counts in an `int`, which takes fewer than 2^31 entries. -/
def count : FLLRBNode α β → Nat
  | empty => 0
  | node _ left _ _ right => left.count + 1 + right.count

def min : FLLRBNode α β → FLLRBNode α β
  | empty => empty
  | node color left key value right => if left.isEmpty then node color left key value right else left.min

def minKey : FLLRBNode α β → Option α
  | empty => none
  | node _ left key _ _ => if left.isEmpty then some key else left.minKey

def maxKey : FLLRBNode α β → Option α
  | empty => none
  | node _ _ key _ right => if right.isEmpty then some key else right.maxKey

/-! `copyWith`, one argument at a time; the empty node is its own copy. -/

def setColor : FLLRBNode α β → FLLRBColor → FLLRBNode α β
  | empty, _ => empty
  | node _ left key value right, color => node color left key value right

def setLeft : FLLRBNode α β → FLLRBNode α β → FLLRBNode α β
  | empty, _ => empty
  | node color _ key value right, left => node color left key value right

def setRight : FLLRBNode α β → FLLRBNode α β → FLLRBNode α β
  | empty, _ => empty
  | node color left key value _, right => node color left key value right

/-! The operations below are those of `FLLRBValueNode`; none of them is sent to the empty node. -/

def rotateLeft : FLLRBNode α β → FLLRBNode α β
  | empty => empty
  | node color left key value right => (right.setColor color).setLeft (node .red left key value right.left)

def rotateRight : FLLRBNode α β → FLLRBNode α β
  | empty => empty
  | node color left key value right => (left.setColor color).setRight (node .red left.right key value right)

/-- `copyWith` of the other colour. -/
def flip : FLLRBNode α β → FLLRBNode α β
  | empty => empty
  | node color left key value right => node color.flip left key value right

@[simp] theorem flip_node (c : FLLRBColor) (l : FLLRBNode α β) (k : α) (v : β) (r : FLLRBNode α β) :
    (node c l k v r).flip = node c.flip l k v r := rfl

def colorFlip : FLLRBNode α β → FLLRBNode α β
  | empty => empty
  | node color left key value right => node color.flip left.flip key value right.flip

def moveRedLeft (n : FLLRBNode α β) : FLLRBNode α β :=
  let n := n.colorFlip
  if n.right.left.isRed then (n.setRight n.right.rotateRight).rotateLeft.colorFlip else n

def moveRedRight (n : FLLRBNode α β) : FLLRBNode α β :=
  let n := n.colorFlip
  if n.left.left.isRed then n.rotateRight.colorFlip else n

def fixUp (n : FLLRBNode α β) : FLLRBNode α β :=
  let n := if n.right.isRed && !n.left.isRed then n.rotateLeft else n
  let n := if n.left.isRed && n.left.left.isRed then n.rotateRight else n
  if n.left.isRed && n.right.isRed then n.colorFlip else n

def insertKey (cmp : α → α → Ordering) (aKey : α) (aValue : β) : FLLRBNode α β → FLLRBNode α β
  | empty => node .red empty aKey aValue empty
  | node color left key value right =>
    match cmp aKey key with
    | .lt => (node color (left.insertKey cmp aKey aValue) key value right).fixUp
    | .eq => (node color left key aValue right).fixUp
    | .gt => (node color left key value (right.insertKey cmp aKey aValue)).fixUp

/-! ### No operation makes a tree larger -/

theorem left_count (n : FLLRBNode α β) : n.left.count ≤ n.count - 1 := by
  cases n with
  | empty => exact Nat.le_refl 0
  | node color left key value right =>
    show left.count ≤ left.count + 1 + right.count - 1
    omega

theorem rotateLeft_count (n : FLLRBNode α β) : n.rotateLeft.count ≤ n.count := by
  cases n with
  | empty => exact Nat.le_refl 0
  | node color left key value right =>
    cases right with
    | empty => exact Nat.zero_le _
    | node => simp only [rotateLeft, FLLRBNode.left, setColor, setLeft, count]; omega

theorem rotateRight_count (n : FLLRBNode α β) : n.rotateRight.count ≤ n.count := by
  cases n with
  | empty => exact Nat.le_refl 0
  | node color left key value right =>
    cases left with
    | empty => exact Nat.zero_le _
    | node => simp only [rotateRight, FLLRBNode.right, setColor, setRight, count]; omega

theorem flip_count (n : FLLRBNode α β) : n.flip.count = n.count := by cases n <;> rfl

theorem colorFlip_count (n : FLLRBNode α β) : n.colorFlip.count = n.count := by
  cases n with
  | empty => rfl
  | node => simp only [colorFlip, count, flip_count]

theorem setRight_count {n r : FLLRBNode α β} (less : r.count ≤ n.right.count) : (n.setRight r).count ≤ n.count := by
  cases n with
  | empty => exact Nat.le_refl 0
  | node => exact Nat.add_le_add_left less _

theorem setLeft_count {n l : FLLRBNode α β} (less : l.count ≤ n.left.count) : (n.setLeft l).count ≤ n.count := by
  cases n with
  | empty => exact Nat.le_refl 0
  | node => exact Nat.add_le_add_right (Nat.add_le_add_right less 1) _

theorem ite_count {m m' n : FLLRBNode α β} {b : Bool} (first : m.count ≤ n.count) (second : m'.count ≤ n.count) :
    (if b then m else m').count ≤ n.count := by
  split
  · exact first
  · exact second

theorem moveRedLeft_count (n : FLLRBNode α β) : n.moveRedLeft.count ≤ n.count := by
  have flipped : n.colorFlip.count ≤ n.count := Nat.le_of_eq (colorFlip_count n)
  refine ite_count ?_ flipped
  rw [colorFlip_count]
  exact Nat.le_trans (rotateLeft_count _) (Nat.le_trans (setRight_count (rotateRight_count _)) flipped)

theorem moveRedRight_count (n : FLLRBNode α β) : n.moveRedRight.count ≤ n.count := by
  have flipped : n.colorFlip.count ≤ n.count := Nat.le_of_eq (colorFlip_count n)
  refine ite_count ?_ flipped
  rw [colorFlip_count]
  exact Nat.le_trans (rotateRight_count _) flipped

theorem fixUp_count (n : FLLRBNode α β) : n.fixUp.count ≤ n.count := by
  have first : (if n.right.isRed && !n.left.isRed then n.rotateLeft else n).count ≤ n.count :=
    ite_count (rotateLeft_count n) (Nat.le_refl _)
  have rotated := Nat.le_trans (rotateRight_count _) first
  exact ite_count (Nat.le_trans (Nat.le_of_eq (colorFlip_count _)) (ite_count rotated first))
    (ite_count rotated first)

/-! ### Removing -/

/-- A step to the left needs a red node there. -/
def toLeft (n : FLLRBNode α β) : FLLRBNode α β :=
  if !n.left.isEmpty && !n.left.isRed && !n.left.left.isRed then n.moveRedLeft else n

/-- A step to the right needs a red node there. -/
def toRight (n : FLLRBNode α β) : FLLRBNode α β :=
  let n := if n.left.isRed then n.rotateRight else n
  if !n.right.isEmpty && !n.right.isRed && !n.right.left.isRed then n.moveRedRight else n

theorem toLeft_count (n : FLLRBNode α β) : n.toLeft.count ≤ n.count :=
  ite_count (moveRedLeft_count n) (Nat.le_refl _)

theorem toRight_count {n m : FLLRBNode α β} (found : n.toRight = m) : m.count ≤ n.count := by
  have rotated : (if n.left.isRed then n.rotateRight else n).count ≤ n.count :=
    ite_count (rotateRight_count n) (Nat.le_refl _)
  exact found ▸ ite_count (Nat.le_trans (moveRedRight_count _) rotated) rotated

def removeMin : FLLRBNode α β → FLLRBNode α β
  | empty => empty
  | node color left key value right =>
    if left.isEmpty then empty
    else ((node color left key value right).toLeft.setLeft (node color left key value right).toLeft.left.removeMin).fixUp
termination_by n => n.count
decreasing_by
  have moved := toLeft_count (node color left key value right)
  have child := left_count (node color left key value right).toLeft
  simp only [count] at moved ⊢
  omega

theorem removeMin_count (n : FLLRBNode α β) : n.removeMin.count ≤ n.count := by
  fun_induction removeMin n with
  | case1 => exact Nat.le_refl _
  | case2 => exact Nat.zero_le _
  | case3 color left key value right _ ih =>
    exact Nat.le_trans (fixUp_count _) (Nat.le_trans (setLeft_count ih) (toLeft_count _))

/-- `smallest` takes the place of a removed entry. The search then goes on to the right of it, where the key
is not. -/
def remove (comparator : α → α → Ordering) (aKey : α) : FLLRBNode α β → FLLRBNode α β
  | empty => empty
  | node color left key value right =>
    if comparator aKey key = .lt then
      ((node color left key value right).toLeft.setLeft
        ((node color left key value right).toLeft.left.remove comparator aKey)).fixUp
    else
      match _found : (node color left key value right).toRight with
      | empty => empty
      | node color left key value right =>
        if comparator aKey key = .eq then
          match right.min with
          | empty => empty
          | node _ _ smallestKey smallestValue _ =>
            (node color left smallestKey smallestValue (right.removeMin.remove comparator aKey)).fixUp
        else (node color left key value (right.remove comparator aKey)).fixUp
termination_by n => n.count
decreasing_by
  · have moved := toLeft_count (node color left key value right)
    have child := left_count (node color left key value right).toLeft
    simp only [count] at moved ⊢
    omega
  · have moved := toRight_count _found
    have child := removeMin_count right
    simp only [count] at moved ⊢
    omega
  · have moved := toRight_count _found
    simp only [count] at moved ⊢
    omega

end FLLRBNode

end SimpleSNS
