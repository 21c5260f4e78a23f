import SimpleSNS.Database.Balanced

/-!
Removing from a tree of `FLLRBValueNode`. On its way down `remove` brings a red node along, so that taking one
away leaves no way shorter than the others. At the root there may be none, and the tree may lose a level.
-/

namespace SimpleSNS.FLLRBNode
open Std Sorted

variable {α β : Type} {cmp : α → α → Ordering} {l l₀ r t a b x y : FLLRBNode α β} {k k₀ aKey : α} {v : β}
  {c c₀ : FLLRBColor} {m n : Nat} {reach : Bool}

/-! ### The moves -/

theorem flip_left (n : FLLRBNode α β) : n.flip.left = n.left := by cases n <;> rfl

theorem moveRedLeft_lent (lk : α) (lv : β) (k : α) (v : β) (rlk : α) (rlv : β) (rk : α) (rv : β) :
    (node c (node .black a lk lv b) k v (node .black (node .red x rlk rlv y) rk rv r)).moveRedLeft =
      node c (node .black (node .red a lk lv b) k v x) rlk rlv (node .black y rk rv r) := by
  cases c <;> rfl

theorem moveRedLeft_flips (straight : r.left.isRed = false) :
    (node c l k v r).moveRedLeft = node c.flip l.flip k v r.flip := by
  simp [moveRedLeft, colorFlip, flip_left, straight]

theorem moveRedRight_lent (llk : α) (llv : β) (lk : α) (lv : β) (k : α) (v : β) :
    (node c (node .black (node .red x llk llv y) lk lv b) k v r).moveRedRight =
      node c (node .black x llk llv y) lk lv (node .black b k v r.flip) := by
  cases c <;> rfl

theorem moveRedRight_flips (straight : l.left.isRed = false) :
    (node c l k v r).moveRedRight = node c.flip l.flip k v r.flip := by
  simp [moveRedRight, colorFlip, flip_left, straight]

theorem Balanced.flat (balanced : Balanced t .black 0) : t = .empty := by
  cases balanced
  rfl

/-- A tree of black nodes down to a black root. -/
theorem Balanced.split (balanced : Balanced t .black (m + 1)) :
    ∃ l k v r c, t = .node .black l k v r ∧ Balanced l c m ∧ Balanced r .black m := by
  cases balanced with
  | @black l r k v c _ left right => exact ⟨l, k, v, r, c, rfl, left, right⟩

theorem Balanced.straight {c : FLLRBColor} (balanced : Balanced t c n) (straight : t.isRed = false) : c = .black := by
  cases balanced with
  | empty => rfl
  | red => cases straight
  | black => rfl

/-! ### On the way to the left -/

/-- What `toLeft` makes of a balanced tree whose left child is `l₀`. -/
inductive LeftReady (c : FLLRBColor) (n : Nat) (l₀ : FLLRBNode α β) : FLLRBNode α β → Prop where
  | none {k : α} {v : β} (height : n = c.above 0) (absent : l₀.isEmpty = true) :
      LeftReady c n l₀ (.node c .empty k v .empty)
  | still {l r : FLLRBNode α β} {k : α} {v : β} {c' : FLLRBColor} {m : Nat} (height : n = c.above m)
      (left : Balanced l c' m) (red : c' = .red ∨ l.left.isRed = true) (right : Balanced r .black m)
      (lean : c = .red → c' = .black) : LeftReady c n l₀ (.node c l k v r)
  | flipped {l r : FLLRBNode α β} {k : α} {v : β} {m : Nat} (height : n = c.above (m + 1))
      (straight : l₀.isRed = false) (left : Balanced l .red m) (right : Balanced r .red m) :
      LeftReady c n l₀ (.node c.flip l k v r)

theorem toLeft_still (stays : (l.isEmpty || l.isRed || l.left.isRed) = true) :
    (node c l k v r).toLeft = node c l k v r := by
  unfold toLeft
  rw [if_neg]
  rw [left_node]
  revert stays
  cases l.isEmpty <;> cases l.isRed <;> cases l.left.isRed <;> decide

theorem toLeft_moves {lk : α} {lv : β} (moves : a.isRed = false) :
    (node c (node .black a lk lv b) k v r).toLeft = (node c (node .black a lk lv b) k v r).moveRedLeft := by
  unfold toLeft
  rw [if_pos]
  simp [isEmpty, moves]

theorem Balanced.toLeft (balanced : Balanced (.node c l k v r) c₀ n) :
    LeftReady c n l (FLLRBNode.node c l k v r).toLeft := by
  obtain ⟨-, c', m, height, left, right, lean⟩ := balanced.parts
  cases left with
  | empty =>
    obtain rfl := right.flat
    rw [toLeft_still rfl]
    exact .none height rfl
  | red la lb =>
    rw [toLeft_still rfl]
    exact .still height (.red la lb) (Or.inl rfl) right lean
  | @black a b lk lv ca m la lb =>
    by_cases bent : a.isRed = true
    · rw [toLeft_still (by simp [bent])]
      exact .still height (.black la lb) (Or.inr bent) right lean
    · have straight := Bool.not_eq_true _ ▸ bent
      obtain rfl := la.straight straight
      rw [toLeft_moves straight]
      obtain ⟨rl, rk, rv, rr, cr, rfl, ra, rb⟩ := right.split
      cases ra with
      | @red x y rlk rlv _ rx ry =>
        rw [moveRedLeft_lent]
        exact .still height (.black (.red la lb) rx) (Or.inr rfl) (.black ry rb) fun _ => rfl
      | empty =>
        rw [moveRedLeft_flips rfl]
        exact .flipped height rfl (.red la lb) (.red .empty rb)
      | black rx ry =>
        rw [moveRedLeft_flips rfl]
        exact .flipped height rfl (.red la lb) (.red (.black rx ry) rb)

/-- A tree that has lost an entry is balanced as before. A black one does not turn red. -/
def Keeps (c : FLLRBColor) (n : Nat) (t : FLLRBNode α β) : Prop :=
  ∃ c', Balanced t c' n ∧ (c = .black → c' = .black)

/-- Without a red node at hand, the tree may have lost a level. -/
inductive Outcome (c : FLLRBColor) (n : Nat) (reach : Bool) (t : FLLRBNode α β) : Prop where
  | keeps (keeps : Keeps c n t)
  | shrinks {m : Nat} (black : c = .black) (none : reach = false)
      (balanced : Balanced (t.setColor .black) .black m)

theorem Outcome.kept (outcome : Outcome c n reach t) (red : c = .red ∨ reach = true) : Keeps c n t := by
  cases outcome with
  | keeps keeps => exact keeps
  | shrinks black none => simp [black, none] at red

theorem Outcome.root (outcome : Outcome c n reach t) : ∃ m, Balanced (t.setColor .black) .black m := by
  cases outcome with
  | keeps keeps =>
    obtain ⟨_, balanced, _⟩ := keeps
    cases balanced with
    | empty => exact ⟨_, .empty⟩
    | red left right => exact ⟨_, .black left right⟩
    | black left right => exact ⟨_, .black left right⟩
  | shrinks _ _ balanced => exact ⟨_, balanced⟩

/-- The left child takes what is left of it when there was a red node to take from. -/
theorem LeftReady.shorter (ready : LeftReady c n l₀ t) (nothing : t.left = .empty → x = .empty)
    (keeps : ∀ c' m, Balanced t.left c' m → (c' = .red ∨ t.left.left.isRed = true) → Keeps c' m x) :
    Outcome c n l₀.isRed (t.setLeft x).fixUp := by
  cases ready with
  | none height =>
    obtain rfl := nothing rfl
    exact .keeps ⟨c, height ▸ fixUp_mid .empty .empty fun _ => rfl, id⟩
  | still height left red right lean =>
    obtain ⟨c', balanced, black⟩ := keeps _ _ left red
    exact .keeps ⟨c, height ▸ fixUp_mid balanced right fun red => black (lean red), id⟩
  | @flipped l r k v m height straight left right =>
    obtain ⟨c', balanced, -⟩ := keeps _ _ left (Or.inl rfl)
    cases c with
    | red =>
      obtain ⟨c'', fixed, -⟩ := fixUp_black (k := k) (v := v) balanced right
      exact .keeps ⟨c'', height ▸ fixed, nofun⟩
    | black =>
      cases c' with
      | red => exact .keeps ⟨_, height ▸ fixUp_both (c := .red) balanced right, fun _ => rfl⟩
      | black =>
        obtain ⟨l', k', v', r', fixed, left', right'⟩ := fixUp_right (c := .red) (k := k) (v := v) balanced right
        refine .shrinks (m := m + 1) rfl straight ?_
        show Balanced ((FLLRBNode.node .red x k v r).fixUp.setColor .black) .black (m + 1)
        rw [fixed]
        exact .black left' right'

/-- A pass to the left that takes nothing away. -/
theorem LeftReady.same (ready : LeftReady c n l₀ t)
    (same : ∀ c' m, Balanced t.left c' m → Balanced x c' m) : Balanced (t.setLeft x).fixUp c n := by
  cases ready with
  | none height => exact height ▸ fixUp_mid (same _ _ .empty) .empty fun _ => rfl
  | still height left red right lean => exact height ▸ fixUp_mid (same _ _ left) right lean
  | flipped height none left right =>
    cases c with
    | red => exact height ▸ fixUp_both (c := .black) (same _ _ left) right
    | black => exact height ▸ fixUp_both (c := .red) (same _ _ left) right

/-! ### On the way to the right -/

/-- What `toRight` makes of a balanced tree with the key `k₀` on top. -/
inductive RightReady (k₀ : α) (c : FLLRBColor) (n : Nat) (reach : Bool) : FLLRBNode α β → Prop where
  | none {k : α} {v : β} (height : n = c.above 0) (straight : reach = false) :
      RightReady k₀ c n reach (.node c .empty k v .empty)
  | still {l r : FLLRBNode α β} {k : α} {v : β} {c' : FLLRBColor} {m : Nat} (height : n = c.above m)
      (left : Balanced l .black m) (right : Balanced r c' m) (red : c' = .red ∨ r.left.isRed = true)
      (lean : c = .red → c' = .black) : RightReady k₀ c n reach (.node c l k v r)
  | lent {l rl rr : FLLRBNode α β} {k : α} {v v₀ : β} {m : Nat} (height : n = c.above (m + 1))
      (left : Balanced l .black (m + 1)) (below : Balanced rl .black m) (above : Balanced rr .red m) :
      RightReady k₀ c n reach (.node c l k v (.node .black rl k₀ v₀ rr))
  | flipped {l r : FLLRBNode α β} {k : α} {v : β} {m : Nat} (height : n = c.above (m + 1))
      (straight : reach = false) (left : Balanced l .red m) (right : Balanced r .red m) :
      RightReady k₀ c n reach (.node c.flip l k v r)

theorem toRight_still (left : l.isRed = false) (stays : (r.isEmpty || r.isRed || r.left.isRed) = true) :
    (node c l k v r).toRight = node c l k v r := by
  unfold toRight
  simp only [left_node, left, Bool.false_eq_true, if_false, right_node]
  rw [if_neg]
  revert stays
  cases r.isEmpty <;> cases r.isRed <;> cases r.left.isRed <;> decide

theorem toRight_moves {rk : α} {rv : β} (left : l.isRed = false) (moves : a.isRed = false) :
    (node c l k v (node .black a rk rv b)).toRight = (node c l k v (node .black a rk rv b)).moveRedRight := by
  unfold toRight
  simp only [left_node, left, Bool.false_eq_true, if_false, right_node]
  rw [if_pos]
  simp [isEmpty, moves]

theorem toRight_rotates (lk : α) (lv : β) (k : α) (v : β) :
    (node c (node .red a lk lv b) k v r).toRight = node c a lk lv (node .red b k v r) := by
  cases c <;> rfl

theorem Balanced.toRight (balanced : Balanced (.node c l k v r) c₀ n) :
    RightReady k c n l.isRed (FLLRBNode.node c l k v r).toRight := by
  obtain ⟨-, c', m, height, left, right, lean⟩ := balanced.parts
  cases left with
  | empty =>
    obtain rfl := right.flat
    rw [toRight_still rfl rfl]
    exact .none height rfl
  | red la lb =>
    rw [toRight_rotates]
    refine .still height la (.red lb right) (Or.inl rfl) ?_
    intro red
    cases lean red
  | @black a b lk lv ca m la lb =>
    obtain ⟨rl, rk, rv, rr, cr, rfl, ra, rb⟩ := right.split
    by_cases bent : rl.isRed = true
    · rw [toRight_still rfl (by simp [bent])]
      exact .still height (.black la lb) (.black ra rb) (Or.inr bent) fun _ => rfl
    · have straight := Bool.not_eq_true _ ▸ bent
      obtain rfl := ra.straight straight
      rw [toRight_moves rfl straight]
      cases la with
      | @red x y llk llv _ lx ly =>
        rw [moveRedRight_lent]
        exact .lent height (.black lx ly) lb (.red ra rb)
      | empty =>
        rw [moveRedRight_flips rfl]
        exact .flipped height rfl (.red .empty lb) (.red ra rb)
      | black lx ly =>
        rw [moveRedRight_flips rfl]
        exact .flipped height rfl (.red (.black lx ly) lb) (.red ra rb)

/-- The right child takes what is left of it, under an entry `(k, v)` that may be another. -/
theorem RightReady.shorter {c₁ : FLLRBColor} {k₁ : α} {v₁ : β} (ready : RightReady k₀ c n reach (.node c₁ l k₁ v₁ r))
    (nothing : r = .empty → x = .empty)
    (keeps : ∀ c' m, Balanced r c' m → (c' = .red ∨ r.left.isRed = true) → Keeps c' m x)
    (leaning : ∀ l' v' r' m, r = .node .black l' k₀ v' r' → Balanced l' .black m → Balanced r' .red m →
      Balanced x .black (m + 1)) : Outcome c n reach (FLLRBNode.node c₁ l k v x).fixUp := by
  cases ready with
  | none height =>
    obtain rfl := nothing rfl
    exact .keeps ⟨c, height ▸ fixUp_mid .empty .empty fun _ => rfl, id⟩
  | still height left right red lean =>
    obtain ⟨c', balanced, black⟩ := keeps _ _ right red
    cases c with
    | red =>
      obtain rfl := black (lean rfl)
      exact .keeps ⟨_, height ▸ fixUp_mid left balanced fun _ => rfl, nofun⟩
    | black =>
      exact .keeps ⟨_, height ▸ fixUp_left_black left balanced, fun _ => rfl⟩
  | lent height left below above =>
    exact .keeps ⟨c, height ▸ fixUp_mid left (leaning _ _ _ _ rfl below above) fun _ => rfl, id⟩
  | @flipped l r k' v' m height straight left right =>
    obtain ⟨c', balanced, -⟩ := keeps _ _ right (Or.inl rfl)
    cases c with
    | red =>
      obtain ⟨c'', fixed, -⟩ := fixUp_black (k := k) (v := v) left balanced
      exact .keeps ⟨c'', height ▸ fixed, nofun⟩
    | black =>
      cases c' with
      | red => exact .keeps ⟨_, height ▸ fixUp_both (c := .red) left balanced, fun _ => rfl⟩
      | black =>
        refine .shrinks (m := m + 1) rfl straight ?_
        show Balanced ((FLLRBNode.node .red l k v x).fixUp.setColor .black) .black (m + 1)
        rw [fixUp_still balanced.not_red left.no_two_reds]
        exact .black left balanced

/-! ### Removing the smallest -/

theorem toLeft_node (c : FLLRBColor) (l : FLLRBNode α β) (k : α) (v : β) (r : FLLRBNode α β) :
    ∃ c' l' k' v' r', (node c l k v r).toLeft = node c' l' k' v' r' := by
  have kept := toLeft_entries (node c l k v r)
  cases moved : (node c l k v r).toLeft with
  | empty =>
    rw [moved] at kept
    simp [entries] at kept
  | node => exact ⟨_, _, _, _, _, rfl⟩

theorem LeftReady.left (ready : LeftReady c n l₀ t) : ∃ c' m, Balanced t.left c' m ∧
    (l₀.isEmpty = false → c' = .red ∨ t.left.left.isRed = true) := by
  cases ready with
  | none height absent => exact ⟨_, _, .empty, fun there => by simp [absent] at there⟩
  | still height left red => exact ⟨_, _, left, fun _ => red⟩
  | flipped height straight left => exact ⟨_, _, left, fun _ => Or.inl rfl⟩

theorem removeMin_keeps (balanced : Balanced t c n) (red : c = .red ∨ t.left.isRed = true) :
    Keeps c n t.removeMin ∧ ∃ e, t.entries = e :: t.removeMin.entries := by
  fun_induction removeMin t generalizing c n with
  | case1 =>
    cases balanced
    rcases red with red | red <;> cases red
  | case2 c₁ l k v r nothing =>
    obtain ⟨rfl, c', m, height, left, right, lean⟩ := balanced.parts
    cases left with
    | red => cases nothing
    | black => cases nothing
    | empty =>
      obtain rfl := right.flat
      obtain rfl := red.resolve_right Bool.false_ne_true
      subst height
      exact ⟨⟨_, Balanced.empty, fun black => by cases black⟩, _, rfl⟩
  | case3 c₁ l k v r there ih =>
    have ready := balanced.toLeft
    have kept := toLeft_entries (node c₁ l k v r)
    have same : c₁ = c := (balanced.parts).1.symm
    subst same
    have shorter : Outcome c₁ n l.isRed _ := ready.shorter
      (fun nothing => by rw [nothing, removeMin]) fun c' m left red => (ih left red).1
    obtain ⟨c'', m, left, reached⟩ := ready.left
    obtain ⟨-, e, least⟩ := ih left (reached (by simpa using there))
    obtain ⟨c', l', k', v', r', moved⟩ := toLeft_node c₁ l k v r
    rw [moved] at kept least ⊢ shorter
    refine ⟨shorter.kept red, e, ?_⟩
    rw [← kept, fixUp_entries]
    show l'.entries ++ (k', v') :: r'.entries = _
    rw [show l'.entries = _ from least]
    rfl

theorem removeMin_sublist (t : FLLRBNode α β) : t.removeMin.entries.Sublist t.entries := by
  fun_induction removeMin t with
  | case1 => exact List.Sublist.refl _
  | case2 => exact List.nil_sublist _
  | case3 c l k v r _ ih =>
    have kept := toLeft_entries (node c l k v r)
    obtain ⟨c', l', k', v', r', moved⟩ := toLeft_node c l k v r
    rw [moved] at kept ih ⊢
    rw [← kept, fixUp_entries]
    exact ih.append_right _

theorem min_entries (there : t.isEmpty = false) :
    ∃ c l k v r rest, t.min = node c l k v r ∧ t.entries = (k, v) :: rest := by
  induction t with
  | empty => cases there
  | node c l k v r ihl =>
    cases l with
    | empty => exact ⟨_, _, _, _, _, _, rfl, rfl⟩
    | node c' ll lk lv lr =>
      obtain ⟨c₁, l₁, k₁, v₁, r₁, rest, least, first⟩ := ihl rfl
      refine ⟨c₁, l₁, k₁, v₁, r₁, rest ++ (k, v) :: r.entries, least, ?_⟩
      rw [FLLRBNode.entries, first, List.cons_append]

/-! ### Removing a key -/

theorem toRight_key {c' : FLLRBColor} {l' r' : FLLRBNode α β} {k' : α} {v' : β}
    (moved : (node c l k v r).toRight = node c' l' k' v' r') : k' = k ∨ (k, v) ∈ r'.entries := by
  by_cases red : l.isRed = true
  · obtain _ | ⟨_ | _, a, lk, lv, b⟩ := l
    · cases red
    · rw [toRight_rotates] at moved
      cases moved
      exact Or.inr (List.mem_append_right _ List.mem_cons_self)
    · cases red
  · unfold toRight at moved
    simp only [left_node, red, Bool.false_eq_true, if_false, right_node] at moved
    split at moved
    · unfold moveRedRight at moved
      simp only at moved
      split at moved
      · rename_i bent
        obtain _ | ⟨_, _ | ⟨_, x, llk, llv, y⟩, lk, lv, b⟩ := l
        · cases bent
        · cases bent
        · cases moved
          exact Or.inr (by simp [entries])
      · cases moved
        exact Or.inl rfl
    · cases moved
      exact Or.inl rfl

theorem toRight_node (c : FLLRBColor) (l : FLLRBNode α β) (k : α) (v : β) (r : FLLRBNode α β) :
    (node c l k v r).toRight ≠ .empty := by
  intro nothing
  have kept := toRight_entries (node c l k v r)
  rw [nothing] at kept
  simp [entries] at kept

theorem toLeft_prefix (c : FLLRBColor) (l : FLLRBNode α β) (k : α) (v : β) (r : FLLRBNode α β) :
    ∃ mid, (node c l k v r).toLeft.left.entries = l.entries ++ mid := by
  unfold toLeft
  split
  · unfold moveRedLeft
    simp only
    split
    · rename_i bent
      obtain _ | ⟨_, _ | ⟨_, rll, rlk, rlv, rlr⟩, rk, rv, rr⟩ := r
      · cases bent
      · cases bent
      · refine ⟨(k, v) :: rll.entries, ?_⟩
        simp [colorFlip, rotateRight, rotateLeft, setColor, setLeft, setRight, entries]
    · exact ⟨[], by simp [colorFlip]⟩
  · exact ⟨[], (List.append_nil _).symm⟩

/-- What `remove` makes of `t`. The redundant search goes by `absent`, and a black node with a red child to
the right, as `toRight` leaves it, by `leaning`. -/
structure RemoveSpec (cmp : α → α → Ordering) (aKey : α) (t t' : FLLRBNode α β) : Prop where
  some : ∀ c n, Balanced t c n → Outcome c n t.left.isRed t' ∧ t'.entries = erase cmp aKey t.entries
  absent : ∀ c n, Balanced t c n → (∀ e ∈ t.entries, cmp aKey e.1 = .lt) → Balanced t' c n
  leaning : ∀ l k v r n, t = .node .black l k v r → Balanced l .black n → Balanced r .red n →
    cmp aKey k ≠ .lt → Balanced t' .black (n + 1) ∧ t'.entries = erase cmp aKey t.entries

theorem RightReady.right {c₁ : FLLRBColor} {k₁ : α} {v₁ : β} (ready : RightReady k₀ c n reach (.node c₁ l k₁ v₁ r)) :
    (∃ c' m, Balanced r c' m ∧ (r.isEmpty = false → c' = .red ∨ r.left.isRed = true)) ∨
      ∃ rl v₀ rr m, r = .node .black rl k₀ v₀ rr ∧ Balanced rl .black m ∧ Balanced rr .red m := by
  cases ready with
  | none => exact Or.inl ⟨_, _, .empty, nofun⟩
  | still _ _ right red => exact Or.inl ⟨_, _, right, fun _ => red⟩
  | lent _ _ below above => exact Or.inr ⟨_, _, _, _, rfl, below, above⟩
  | flipped _ _ _ right => exact Or.inl ⟨_, _, right, fun _ => Or.inl rfl⟩

/-- The key is in the last node on the way. -/
theorem spec_last {c' : FLLRBColor} {l' : FLLRBNode α β} {k' : α} {v' : β} (after : cmp aKey k ≠ .lt)
    (moved : (node c l k v r).toRight = node c' l' k' v' .empty) (here : cmp aKey k' = .eq) :
    RemoveSpec cmp aKey (node c l k v r) .empty := by
  refine ⟨?_, ?_, ?_⟩
  · intro c₀ n balanced
    obtain rfl := (balanced.parts).1
    have ready := balanced.toRight
    have kept := toRight_entries (node c₀ l k v r)
    rw [moved] at ready kept
    cases ready with
    | still _ _ right red =>
      cases right
      simp [left, isRed] at red
    | flipped _ _ _ right => cases right
    | none height straight =>
      subst height
      refine ⟨?_, ?_⟩
      · cases c' with
        | red => exact .keeps ⟨_, Balanced.empty, fun black => by cases black⟩
        | black => exact .shrinks rfl straight Balanced.empty
      · rw [← kept]
        simp [entries, erase, here]
  · intro c₀ n _ all
    exact absurd (all (k, v) (List.mem_append_right _ List.mem_cons_self)) after
  · rintro _ _ _ _ n same left right -
    cases same
    rw [toRight_still left.not_red (by simp [right.isRed_iff.mpr rfl])] at moved
    cases moved
    cases right

/-- A subtree without its smallest entry, from which a key below all of it takes nothing more. -/
theorem removeMin_takes {c₁ : FLLRBColor} {l₁ r₁ : FLLRBNode α β} {k₁ : α} {v₁ : β} {c : FLLRBColor} {n : Nat}
    (above : ∀ e ∈ t.entries, cmp aKey e.1 = .lt) (there : t.isEmpty = false)
    (least : t.min = node c₁ l₁ k₁ v₁ r₁) (spec : RemoveSpec cmp aKey t.removeMin x) (balanced : Balanced t c n)
    (red : c = .red ∨ t.left.isRed = true) : Keeps c n x ∧ (k₁, v₁) :: x.entries = t.entries := by
  obtain ⟨⟨c₂, balanced', black⟩, e, first⟩ := removeMin_keeps balanced red
  have above' : ∀ e ∈ t.removeMin.entries, cmp aKey e.1 = .lt := by
    intro e member
    apply above
    rw [first]
    exact List.mem_cons_of_mem _ member
  refine ⟨⟨c₂, spec.absent c₂ n balanced' above', black⟩, ?_⟩
  obtain ⟨_, _, _, _, _, rest, least', first'⟩ := min_entries there
  rw [least] at least'
  cases least'
  obtain rfl := (List.cons.inj (first.symm.trans first')).1
  rw [(spec.some c₂ n balanced').2, erase_absent fun e member => by simp [above' e member], first]

section Trans
variable [TransCmp cmp]

/-- The key is to the left. -/
theorem spec_left (sorted : Ascending cmp (node c l k v r).entries) (before : cmp aKey k = .lt)
    (nothing : (node c l k v r).toLeft.left = .empty → x = .empty)
    (spec : RemoveSpec cmp aKey (node c l k v r).toLeft.left x) :
    RemoveSpec cmp aKey (node c l k v r) ((node c l k v r).toLeft.setLeft x).fixUp := by
  have kept := toLeft_entries (node c l k v r)
  obtain ⟨mid, left_part⟩ := toLeft_prefix c l k v r
  obtain ⟨c', l', k', v', r', moved⟩ := toLeft_node c l k v r
  rw [moved] at kept left_part nothing spec
  have tail : (k, v) :: r.entries = mid ++ (k', v') :: r'.entries := by
    rw [entries, entries, show l'.entries = _ from left_part, List.append_assoc] at kept
    exact (List.append_cancel_left kept).symm
  have above : ∀ e ∈ (k', v') :: r'.entries, cmp aKey e.1 = .lt := by
    intro e member
    exact lt_after (l := l.entries) sorted before e (tail ▸ List.mem_append_right _ member)
  refine ⟨?_, ?_, ?_⟩
  · intro c₀ n balanced
    obtain rfl := (balanced.parts).1
    have ready := balanced.toLeft
    rw [moved] at ready ⊢
    refine ⟨ready.shorter nothing fun c'' m left red => (spec.some c'' m left).1.kept red, ?_⟩
    obtain ⟨c'', m, left, -⟩ := ready.left
    rw [fixUp_entries, ← kept]
    show x.entries ++ (k', v') :: r'.entries = erase cmp aKey (l'.entries ++ (k', v') :: r'.entries)
    rw [(spec.some c'' m left).2, erase_append]
    rw [erase_absent (l := (k', v') :: r'.entries) fun e member => by simp [above e member]]
    rfl
  · intro c₀ n balanced all
    obtain rfl := (balanced.parts).1
    have ready := balanced.toLeft
    rw [moved] at ready ⊢
    refine ready.same fun c'' m left => spec.absent c'' m left ?_
    intro e member
    exact all e (kept ▸ List.mem_append_left _ member)
  · rintro _ _ _ _ n same - - after
    cases same
    exact absurd before after

/-- The entry of the key goes, and the smallest to the right of it takes its place. -/
theorem spec_here {c' c₁ : FLLRBColor} {l' r' l₁ r₁ : FLLRBNode α β} {k' k₁ : α} {v' v₁ : β}
    (sorted : Ascending cmp (node c l k v r).entries) (after : cmp aKey k ≠ .lt)
    (moved : (node c l k v r).toRight = node c' l' k' v' r') (here : cmp aKey k' = .eq)
    (least : r'.min = node c₁ l₁ k₁ v₁ r₁) (spec : RemoveSpec cmp aKey r'.removeMin x) :
    RemoveSpec cmp aKey (node c l k v r) (node c' l' k₁ v₁ x).fixUp := by
  have kept := toRight_entries (node c l k v r)
  rw [moved] at kept
  have sorted' : Ascending cmp (l'.entries ++ (k', v') :: r'.entries) := by
    rw [← kept] at sorted
    exact sorted
  have above := lt_after_eq sorted' here
  have there : r'.isEmpty = false := by
    cases r' with
    | empty => cases least
    | node => rfl
  have taken : ∀ c'' m, Balanced r' c'' m → (c'' = .red ∨ r'.left.isRed = true) →
      Keeps c'' m x ∧ (k₁, v₁) :: x.entries = r'.entries :=
    fun c'' m balanced red => removeMin_takes above there least spec balanced red
  have replaced : ∀ c'' m, Balanced r' c'' m → (c'' = .red ∨ r'.left.isRed = true) →
      (node c' l' k₁ v₁ x).fixUp.entries = erase cmp aKey (node c l k v r).entries := by
    intro c'' m balanced red
    rw [fixUp_entries, ← kept]
    show l'.entries ++ (k₁, v₁) :: x.entries = _
    rw [(taken c'' m balanced red).2]
    exact (erase_eq sorted' here).symm
  have upright : ∀ rl v₀ rr, r' ≠ .node .black rl k v₀ rr := by
    rintro rl v₀ rr rfl
    exact after (above (k, v₀) (List.mem_append_right _ List.mem_cons_self))
  refine ⟨?_, ?_, ?_⟩
  · intro c₀ n balanced
    obtain rfl := (balanced.parts).1
    have ready := balanced.toRight
    rw [moved] at ready
    have outcome := ready.shorter (k := k₁) (v := v₁) (fun nothing => by simp [nothing, isEmpty] at there)
      (fun c'' m balanced red => (taken c'' m balanced red).1) fun rl v₀ rr m same => absurd same (upright rl v₀ rr)
    refine ⟨outcome, ?_⟩
    rcases ready.right with ⟨c'', m, right, reached⟩ | ⟨rl, v₀, rr, m, same, -⟩
    · exact replaced c'' m right (reached there)
    · exact absurd same (upright rl v₀ rr)
  · intro c₀ n _ all
    exact absurd (all (k, v) (List.mem_append_right _ List.mem_cons_self)) after
  · rintro _ _ _ _ n same left right -
    cases same
    rw [toRight_still left.not_red (by simp [right.isRed_iff.mpr rfl])] at moved
    cases moved
    obtain ⟨⟨c₂, balanced, -⟩, -⟩ := taken _ _ right (Or.inl rfl)
    exact ⟨fixUp_left_black left balanced, replaced _ _ right (Or.inl rfl)⟩

/-- The key is to the right. -/
theorem spec_right {c' : FLLRBColor} {l' r' : FLLRBNode α β} {k' : α} {v' : β}
    (sorted : Ascending cmp (node c l k v r).entries) (after : cmp aKey k ≠ .lt)
    (moved : (node c l k v r).toRight = node c' l' k' v' r') (other : cmp aKey k' ≠ .eq)
    (nothing : r' = .empty → x = .empty) (spec : RemoveSpec cmp aKey r' x) :
    RemoveSpec cmp aKey (node c l k v r) (node c' l' k' v' x).fixUp := by
  have kept := toRight_entries (node c l k v r)
  rw [moved] at kept
  have sorted' : Ascending cmp (l'.entries ++ (k', v') :: r'.entries) := by
    rw [← kept] at sorted
    exact sorted
  have beyond : cmp aKey k' = .gt := by
    rcases toRight_key moved with rfl | member
    · cases place : cmp aKey k' with
      | lt => exact absurd place after
      | eq => exact absurd place other
      | gt => rfl
    · obtain ⟨front, back, split⟩ := List.append_of_mem member
      rw [split, ← List.cons_append, ← List.append_assoc] at sorted'
      exact gt_before sorted' after (k', v') (List.mem_append_right _ List.mem_cons_self)
  have removed (erased : x.entries = erase cmp aKey r'.entries) :
      (node c' l' k' v' x).fixUp.entries = erase cmp aKey (node c l k v r).entries := by
    rw [fixUp_entries, ← kept]
    show l'.entries ++ (k', v') :: x.entries = _
    rw [erased]
    exact (erase_gt sorted' beyond).symm
  refine ⟨?_, ?_, ?_⟩
  · intro c₀ n balanced
    obtain rfl := (balanced.parts).1
    have ready := balanced.toRight
    rw [moved] at ready
    have outcome := ready.shorter (k := k') (v := v') nothing
      (fun c'' m balanced red => (spec.some c'' m balanced).1.kept red)
      fun rl v₀ rr m same below above => (spec.leaning _ _ _ _ m same below above after).1
    refine ⟨outcome, removed ?_⟩
    rcases ready.right with ⟨c'', m, right, -⟩ | ⟨rl, v₀, rr, m, same, below, above⟩
    · exact (spec.some c'' m right).2
    · exact (spec.leaning _ _ _ _ m same below above after).2
  · intro c₀ n _ all
    exact absurd (all (k, v) (List.mem_append_right _ List.mem_cons_self)) after
  · rintro _ _ _ _ n same left right -
    cases same
    rw [toRight_still left.not_red (by simp [right.isRed_iff.mpr rfl])] at moved
    cases moved
    obtain ⟨outcome, erased⟩ := spec.some _ _ right
    obtain ⟨c₂, balanced, -⟩ := outcome.kept (Or.inl rfl)
    exact ⟨fixUp_left_black left balanced, removed erased⟩

theorem remove_spec (t : FLLRBNode α β) (sorted : Ascending cmp t.entries) :
    RemoveSpec cmp aKey t (t.remove cmp aKey) := by
  fun_induction remove cmp aKey t with
  | case1 => exact ⟨fun c n balanced => ⟨.keeps ⟨c, balanced, id⟩, rfl⟩, fun _ _ balanced _ => balanced, nofun⟩
  | case2 c l k v r before ih =>
    have kept := toLeft_entries (node c l k v r)
    obtain ⟨c', l', k', v', r', moved⟩ := toLeft_node c l k v r
    refine spec_left sorted before (fun nothing => ?_) (ih ?_)
    · rw [nothing, remove]
    · rw [← kept, moved] at sorted
      rw [moved]
      exact (ascending_mid.mp sorted).1
  | case3 c l k v r after nothing => exact absurd nothing (toRight_node c l k v r)
  | case4 c l k v r after c' l' k' v' r' moved here nothing =>
    cases r' with
    | empty => exact spec_last after moved here
    | node =>
      obtain ⟨_, _, _, _, _, _, least, -⟩ := min_entries (t := node _ _ _ _ _) rfl
      cases nothing.symm.trans least
  | case5 c l k v r after c' l' k' v' r' moved here _ _ _ _ _ least ih =>
    have kept := toRight_entries (node c l k v r)
    refine spec_here sorted after moved here least (ih ?_)
    rw [← kept, moved] at sorted
    exact (ascending_mid.mp sorted).2.1.sublist (removeMin_sublist r')
  | case6 c l k v r after c' l' k' v' r' moved other ih =>
    have kept := toRight_entries (node c l k v r)
    refine spec_right sorted after moved other (fun nothing => ?_) (ih ?_)
    · rw [nothing, remove]
    · rw [← kept, moved] at sorted
      exact (ascending_mid.mp sorted).2.1

end Trans

end SimpleSNS.FLLRBNode
