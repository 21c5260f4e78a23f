import SimpleSNS.Database.FLLRBNode

/-!
What the trees of `FLLRBValueNode` keep: the entries in ascending order, red nodes to the left only and never
two in a row, and as many black nodes on every way down. Inserting and removing keep it, and do to the entries
what they are called for.
-/

namespace SimpleSNS.FLLRBNode
open Std Sorted

variable {α β : Type} {cmp : α → α → Ordering} {l r t : FLLRBNode α β} {k aKey : α} {v aValue : β}
  {c c' : FLLRBColor} {m n : Nat}

def entries : FLLRBNode α β → List (α × β)
  | empty => []
  | node _ left key value right => left.entries ++ (key, value) :: right.entries

/-- A tree with `n` black nodes on every way down. -/
inductive Balanced : FLLRBNode α β → FLLRBColor → Nat → Prop where
  | empty : Balanced .empty .black 0
  | red {l r : FLLRBNode α β} {k : α} {v : β} {n : Nat} (left : Balanced l .black n)
      (right : Balanced r .black n) : Balanced (node .red l k v r) .red n
  | black {l r : FLLRBNode α β} {k : α} {v : β} {c : FLLRBColor} {n : Nat} (left : Balanced l c n)
      (right : Balanced r .black n) : Balanced (node .black l k v r) .black (n + 1)

/-! ### The entries stay -/

@[simp] theorem flip_entries (n : FLLRBNode α β) : n.flip.entries = n.entries := by cases n <;> rfl

theorem setColor_entries (n : FLLRBNode α β) : (n.setColor c).entries = n.entries := by cases n <;> rfl

@[simp] theorem colorFlip_entries (n : FLLRBNode α β) : n.colorFlip.entries = n.entries := by
  cases n <;> simp [colorFlip, entries]

theorem rotateLeft_entries {n : FLLRBNode α β} (there : n.right.isRed) : n.rotateLeft.entries = n.entries := by
  obtain _ | ⟨_, l, k, v, r⟩ := n
  · rfl
  · obtain _ | ⟨_, rl, rk, rv, rr⟩ := r
    · cases there
    · simp [rotateLeft, setColor, setLeft, left, entries]

theorem rotateRight_entries {n : FLLRBNode α β} (there : n.left.isRed) : n.rotateRight.entries = n.entries := by
  obtain _ | ⟨_, l, k, v, r⟩ := n
  · rfl
  · obtain _ | ⟨_, ll, lk, lv, lr⟩ := l
    · cases there
    · simp [rotateRight, setColor, setRight, right, entries]

theorem moveRedLeft_entries (n : FLLRBNode α β) : n.moveRedLeft.entries = n.entries := by
  simp only [moveRedLeft]
  split
  · rename_i there
    rw [← colorFlip_entries n]
    generalize n.colorFlip = n at there
    obtain _ | ⟨_, l, k, v, _ | ⟨_, _ | ⟨rlc, _, _, _, _⟩, _, _, _⟩⟩ := n
    all_goals simp [right, left, isRed] at there
    simp [right, left, rotateRight, rotateLeft, setColor, setRight, setLeft, entries]
  · exact colorFlip_entries n

theorem moveRedRight_entries (n : FLLRBNode α β) : n.moveRedRight.entries = n.entries := by
  simp only [moveRedRight]
  split
  · rename_i there
    rw [← colorFlip_entries n, colorFlip_entries (rotateRight _)]
    generalize n.colorFlip = n at there
    obtain _ | ⟨_, _ | ⟨_, _, _, _, _⟩, _, _, _⟩ := n
    all_goals simp [left, isRed] at there
    simp [right, rotateRight, setColor, setRight, entries]
  · exact colorFlip_entries n

theorem fixUp_entries (n : FLLRBNode α β) : n.fixUp.entries = n.entries := by
  have first : (if n.right.isRed && !n.left.isRed then n.rotateLeft else n).entries = n.entries := by
    split
    · rename_i there
      exact rotateLeft_entries (by simp_all)
    · rfl
  simp only [fixUp]
  generalize (if n.right.isRed && !n.left.isRed then n.rotateLeft else n) = m at first ⊢
  have second : (if m.left.isRed && m.left.left.isRed then m.rotateRight else m).entries = n.entries := by
    split
    · rename_i there
      exact (rotateRight_entries (by simp_all)).trans first
    · exact first
  generalize (if m.left.isRed && m.left.left.isRed then m.rotateRight else m) = m' at second ⊢
  split
  · rw [colorFlip_entries, second]
  · exact second

theorem toLeft_entries (n : FLLRBNode α β) : n.toLeft.entries = n.entries := by
  unfold toLeft
  split
  · exact moveRedLeft_entries n
  · rfl

theorem toRight_entries (n : FLLRBNode α β) : n.toRight.entries = n.entries := by
  have rotated : (if n.left.isRed then n.rotateRight else n).entries = n.entries := by
    split
    · exact rotateRight_entries ‹_›
    · rfl
  unfold toRight
  generalize (if n.left.isRed then n.rotateRight else n) = m at rotated ⊢
  simp only
  split
  · rw [moveRedRight_entries, rotated]
  · exact rotated

/-! ### Shapes -/

theorem Balanced.isRed_iff (balanced : Balanced t c n) : t.isRed = true ↔ c = .red := by
  cases balanced <;> simp [isRed]

theorem Balanced.not_red (balanced : Balanced t .black n) : t.isRed = false := by
  cases balanced <;> rfl

theorem Balanced.flip_black (balanced : Balanced t .red n) : Balanced t.flip .black (n + 1) := by
  cases balanced with
  | red left right => exact .black left right

theorem Balanced.node (left : Balanced l c' m) (right : Balanced r .black m) (lean : c = .red → c' = .black) :
    Balanced (.node c l k v r) c (c.above m) := by
  cases c with
  | red => exact .red (lean rfl ▸ left) right
  | black => exact .black left right

theorem Balanced.parts {c₀ : FLLRBColor} (balanced : Balanced (.node c l k v r) c₀ n) :
    c₀ = c ∧ ∃ c' m, n = c.above m ∧ Balanced l c' m ∧ Balanced r .black m ∧ (c = .red → c' = .black) := by
  cases balanced with
  | red left right => exact ⟨rfl, _, _, rfl, left, right, fun _ => rfl⟩
  | black left right => exact ⟨rfl, _, _, rfl, left, right, fun red => nomatch red⟩

theorem Balanced.no_two_reds (balanced : Balanced t c n) : (t.isRed && t.left.isRed) = false := by
  cases balanced with
  | empty => rfl
  | red left => simpa using left.not_red
  | black => rfl

/-! ### `fixUp` -/

theorem fixUp_still (right : r.isRed = false) (left : (l.isRed && l.left.isRed) = false) :
    (node c l k v r).fixUp = node c l k v r := by
  have up : ¬ (l.isRed = true ∧ l.left.isRed = true) := by simpa using left
  simp [fixUp, right, up]

theorem fixUp_mid (left : Balanced l c' m) (right : Balanced r .black m) (lean : c = .red → c' = .black) :
    Balanced (node c l k v r).fixUp c (c.above m) := by
  rw [fixUp_still right.not_red left.no_two_reds]
  exact left.node right lean

/-- A red node to the right comes up. -/
theorem fixUp_right (left : Balanced l .black m) (right : Balanced r .red m) :
    ∃ l' k' v' r', (node c l k v r).fixUp = node c l' k' v' r' ∧ Balanced l' .red m ∧ Balanced r' .black m := by
  cases right with
  | @red a b rk rv _ ra rb =>
    refine ⟨node .red l k v a, rk, rv, b, ?_, .red left ra, rb⟩
    simp [fixUp, rotateLeft, setColor, setLeft, left.not_red, rb.not_red]

theorem fixUp_both (left : Balanced l .red m) (right : Balanced r .red m) :
    Balanced (node c l k v r).fixUp c.flip (c.flip.above (m + 1)) := by
  have flips : (node c l k v r).fixUp = node c.flip l.flip k v r.flip := by
    have up := left.no_two_reds
    rw [left.isRed_iff.mpr rfl, Bool.true_and] at up
    simp [fixUp, colorFlip, left.isRed_iff.mpr rfl, right.isRed_iff.mpr rfl, up]
  rw [flips]
  exact left.flip_black.node right.flip_black fun _ => rfl

/-- A black node stays black unless both its children are red. -/
theorem fixUp_black {c₁ c₂ : FLLRBColor} (left : Balanced l c₁ m) (right : Balanced r c₂ m) :
    ∃ c', Balanced (node .black l k v r).fixUp c' (m + 1) ∧ (c' = .red → c₁ = .red ∧ c₂ = .red) := by
  cases c₂ with
  | black => exact ⟨_, fixUp_mid left right (fun red => nomatch red), fun red => nomatch red⟩
  | red =>
    cases c₁ with
    | red => exact ⟨_, fixUp_both left right, fun _ => ⟨rfl, rfl⟩⟩
    | black =>
      obtain ⟨l', k', v', r', fixed, left', right'⟩ := fixUp_right (c := .black) (k := k) (v := v) left right
      rw [fixed]
      exact ⟨_, .black left' right', fun red => nomatch red⟩

theorem fixUp_left_black {c₂ : FLLRBColor} (left : Balanced l .black m) (right : Balanced r c₂ m) :
    Balanced (node .black l k v r).fixUp .black (m + 1) := by
  obtain ⟨c', fixed, red⟩ := fixUp_black (k := k) (v := v) left right
  cases c' with
  | red => cases (red rfl).1
  | black => exact fixed

/-! ### Inserting -/

/-- A red node that may have a red child to the left. -/
inductive Almost : FLLRBNode α β → Nat → Prop where
  | red {l r : FLLRBNode α β} {k : α} {v : β} {c : FLLRBColor} {n : Nat} (left : Balanced l c n)
      (right : Balanced r .black n) : Almost (node .red l k v r) n

theorem fixUp_red {c₁ c₂ : FLLRBColor} (left : Balanced l c₁ m) (right : Balanced r c₂ m)
    (one : c₁ = .black ∨ c₂ = .black) : Almost (node .red l k v r).fixUp m := by
  cases c₂ with
  | black =>
    rw [fixUp_still right.not_red left.no_two_reds]
    exact .red left right
  | red =>
    obtain rfl := one.resolve_right nofun
    obtain ⟨l', k', v', r', fixed, left', right'⟩ := fixUp_right (c := .red) (k := k) (v := v) left right
    rw [fixed]
    exact .red left' right'

/-- Two red nodes in a row come apart. -/
theorem fixUp_almost (left : Almost l m) (right : Balanced r .black m) :
    ∃ c', Balanced (node .black l k v r).fixUp c' (m + 1) := by
  cases left with
  | @red a b lk lv c _ la lb =>
    cases c with
    | black => exact ⟨_, fixUp_mid (Balanced.red la lb) right fun red => nomatch red⟩
    | red =>
      have rises : (node .black (node .red a lk lv b) k v r).fixUp =
          node .red a.flip lk lv (node .black b k v r) := by
        simp [fixUp, rotateRight, setColor, setRight, colorFlip, flip,
          FLLRBColor.flip, la.isRed_iff.mpr rfl, right.not_red]
      rw [rises]
      exact ⟨_, .red la.flip_black (.black lb right)⟩

/-- Into a black tree; a red one may end up with two red nodes at the top. -/
theorem insertKey_balanced (balanced : Balanced t c n) :
    (c = .black → ∃ c', Balanced (t.insertKey cmp aKey aValue) c' n) ∧
      (c = .red → Almost (t.insertKey cmp aKey aValue) n) := by
  induction balanced with
  | empty => exact ⟨fun _ => ⟨_, .red .empty .empty⟩, fun red => nomatch red⟩
  | @red l r k v n left right ihl ihr =>
    refine ⟨fun black => (nomatch black), fun _ => ?_⟩
    obtain ⟨_, insertedl⟩ := ihl.1 rfl
    obtain ⟨_, insertedr⟩ := ihr.1 rfl
    rw [insertKey]
    cases cmp aKey k with
    | lt => exact fixUp_red insertedl right (Or.inr rfl)
    | eq => exact fixUp_red left right (Or.inr rfl)
    | gt => exact fixUp_red left insertedr (Or.inl rfl)
  | @black l r k v c n left right ihl ihr =>
    refine ⟨fun _ => ?_, fun red => nomatch red⟩
    obtain ⟨_, insertedr⟩ := ihr.1 rfl
    rw [insertKey]
    cases cmp aKey k with
    | lt =>
      cases c with
      | red => exact fixUp_almost (ihl.2 rfl) right
      | black =>
        obtain ⟨_, insertedl⟩ := ihl.1 rfl
        exact ⟨_, fixUp_mid insertedl right fun red => nomatch red⟩
    | eq => exact ⟨_, fixUp_mid left right fun red => nomatch red⟩
    | gt =>
      obtain ⟨_, fixed, _⟩ := fixUp_black left insertedr
      exact ⟨_, fixed⟩

theorem insertKey_entries [TransCmp cmp] (t : FLLRBNode α β) (sorted : Ascending cmp t.entries) :
    (t.insertKey cmp aKey aValue).entries = insert cmp aKey aValue t.entries := by
  induction t with
  | empty => rfl
  | node c l k v r ihl ihr =>
    obtain ⟨below, above, _⟩ := ascending_mid.mp sorted
    rw [insertKey]
    cases place : cmp aKey k with
    | lt =>
      rw [fixUp_entries, entries, ihl below]
      exact (insert_lt sorted place).symm
    | eq =>
      rw [fixUp_entries]
      exact (insert_eq sorted place).symm
    | gt =>
      rw [fixUp_entries, entries, ihr above]
      exact (insert_gt sorted place).symm

end SimpleSNS.FLLRBNode
