import Mathlib.Data.List.Sort
import SimpleSNS.Database.FTreeSortedDictionary

/-!
The tree that `FTreeSortedDictionary` builds of a whole dictionary at once. The number of entries is written with
the digits 1 and 2, and each digit hangs one or two perfect trees below the ones before.
-/

namespace SimpleSNS
open Std Sorted FLLRBNode

structure Base1_2List where
  bits : Nat
  count : Nat
  current : Nat

/-- `log(num) / log(2)`, cut off; the quotient of the two doubles is exact enough for every 32-bit `num`. -/
def log_base2 (num : Nat) : Nat := Nat.log2 num

def bit_mask (x : Nat) : Nat := if 32 ≤ x then 2 ^ 32 - 1 else 2 ^ x - 1

/-- Whether the next digit is a 1. -/
def base1_2List_next (list : Base1_2List) : Bool × Base1_2List :=
  (!list.bits.testBit list.current, { list with current := list.current - 1 })

def base1_2List_new (length : Nat) : Base1_2List where
  count := log_base2 (length + 1)
  bits := (length + 1) &&& bit_mask (log_base2 (length + 1))
  current := log_base2 (length + 1) - 1

namespace FTreeSortedDictionary
variable {α β : Type}

/-- The difference of the two unsigned numbers wraps around. -/
def boundedLength (count startIndex length : Nat) : Nat :=
  if startIndex ≤ count then min (count - startIndex) length else length

theorem boundedLength_le (count startIndex length : Nat) : boundedLength count startIndex length ≤ length := by
  unfold boundedLength
  split
  · exact Nat.min_le_right _ _
  · exact Nat.le_refl _

/-- `none` where a key is read beyond the end of the list. -/
def buildBalancedTree (keys : List (α × β)) (startIndex length : Nat) : Option (FLLRBNode α β) :=
  let bound := boundedLength keys.length startIndex length
  if bound = 0 then some .empty
  else if bound = 1 then keys[startIndex]?.map fun e => .node .black .empty e.1 e.2 .empty
  else do
    let middle := bound / 2
    let left ← buildBalancedTree keys startIndex middle
    let right ← buildBalancedTree keys (startIndex + middle + 1) middle
    let e ← keys[startIndex + middle]?
    return .node .black left e.1 e.2 right
termination_by length
decreasing_by all_goals
  have := boundedLength_le keys.length startIndex length
  omega

/-- A pennant, with the hole to its left in which the next one is hung. -/
structure Pennant (α β : Type) where
  color : FLLRBColor
  key : α
  value : β
  right : FLLRBNode α β

/-- The root above a chain of pennants, each the left child of the one before. -/
def assemble (pennants : List (Pennant α β)) (left : FLLRBNode α β) : FLLRBNode α β :=
  pennants.foldr (fun p below => .node p.color below p.key p.value p.right) left

/-- `index` and the pennants that hang already. -/
abbrev Chain (α β : Type) : Type := Nat × List (Pennant α β)

def buildPennant (keyList : List (α × β)) (color : FLLRBColor) (chunkSize : Nat) (chain : Chain α β) :
    Option (Chain α β) := do
  if chain.1 < chunkSize then none
  let index := chain.1 - chunkSize
  let e ← keyList[index]?
  let childTree ← buildBalancedTree keyList (index + 1) (chunkSize - 1)
  return (index, chain.2 ++ [⟨color, e.1, e.2, childTree⟩])

/-- The loop of `rootFrom12List`, with `remaining` digits to go. -/
def hang (keyList : List (α × β)) : Nat → Base1_2List → Chain α β → Option (Chain α β)
  | 0, _, chain => some chain
  | remaining + 1, list, chain => do
    let (isOne, list) := base1_2List_next list
    let chunkSize := 2 ^ remaining
    let chain ← buildPennant keyList .black chunkSize chain
    let chain ← if isOne then some chain else buildPennant keyList .red chunkSize chain
    hang keyList remaining list chain

def rootFrom12List (list : Base1_2List) (keyList : List (α × β)) : Option (FLLRBNode α β) := do
  let chain ← hang keyList list.count list (keyList.length, [])
  return assemble chain.2 .empty

/-! ### The perfect trees -/

theorem slice_cons (keys : List (α × β)) (start m n : Nat) (inside : start + m < keys.length) :
    (keys.drop start).take (m + 1 + n) =
      (keys.drop start).take m ++ keys[start + m] :: (keys.drop (start + m + 1)).take n := by
  rw [Nat.add_assoc, List.take_add, List.drop_drop, Nat.add_comm 1 n, List.drop_eq_getElem_cons inside,
    List.take_succ_cons]

theorem boundedLength_inside {count startIndex length : Nat} (inside : startIndex + length ≤ count) :
    boundedLength count startIndex length = length := by
  unfold boundedLength
  rw [if_pos (by omega)]
  omega

/-- Over `2 ^ h - 1` keys the tree is perfect. -/
theorem buildBalancedTree_perfect (keys : List (α × β)) (h start : Nat) (inside : start + (2 ^ h - 1) ≤ keys.length) :
    ∃ t, buildBalancedTree keys start (2 ^ h - 1) = some t ∧ Balanced t .black h ∧
      t.entries = (keys.drop start).take (2 ^ h - 1) := by
  induction h generalizing start with
  | zero =>
    refine ⟨.empty, ?_, .empty, by simp [FLLRBNode.entries]⟩
    rw [buildBalancedTree, boundedLength_inside inside]
    rfl
  | succ h ih =>
    have positive : 0 < 2 ^ h := Nat.two_pow_pos h
    have odd : 2 ^ (h + 1) - 1 = (2 ^ h - 1) + 1 + (2 ^ h - 1) := by
      rw [Nat.pow_succ]
      omega
    rw [odd] at inside ⊢
    obtain ⟨left, built, balanced, entries⟩ := ih start (by omega)
    obtain ⟨right, built', balanced', entries'⟩ := ih (start + (2 ^ h - 1) + 1) (by omega)
    have middle : start + (2 ^ h - 1) < keys.length := by omega
    refine ⟨.node .black left keys[start + (2 ^ h - 1)].1 keys[start + (2 ^ h - 1)].2 right, ?_,
      .black balanced balanced', ?_⟩
    · rw [buildBalancedTree, boundedLength_inside inside]
      cases h with
      | zero =>
        obtain rfl := balanced.flat
        obtain rfl := balanced'.flat
        simp only [Nat.pow_zero, Nat.sub_self, Nat.add_zero, Nat.zero_add] at middle ⊢
        simp [List.getElem?_eq_getElem middle]
      | succ h =>
        have large : 2 ≤ 2 ^ (h + 1) := by
          rw [Nat.pow_succ]
          have := Nat.two_pow_pos h
          omega
        rw [if_neg (by omega), if_neg (by omega)]
        have half : (2 ^ (h + 1) - 1 + 1 + (2 ^ (h + 1) - 1)) / 2 = 2 ^ (h + 1) - 1 := by omega
        simp only [half, built, built', List.getElem?_eq_getElem middle]
        rfl
    · rw [FLLRBNode.entries, entries, entries', slice_cons keys start _ _ middle]

/-! ### The pennants -/

/-- Pennants that make a tree of `n` black nodes on every way down once a tree of `h` is hung into the hole,
a red one where `red` allows it. The keys from `index` on are in their places. -/
def Hung (keyList : List (α × β)) (n h index : Nat) (red : Bool) (pennants : List (Pennant α β)) : Prop :=
  ∀ t c, (c = .red → red = true) → Balanced t c h → (pennants = [] → c = .black) →
    Balanced (assemble pennants t) .black n ∧ (assemble pennants t).entries = t.entries ++ keyList.drop index

variable {keyList : List (α × β)} {pennants : List (Pennant α β)} {n h index : Nat} {red : Bool}

theorem buildPennant_spec (pennants : List (Pennant α β)) (color : FLLRBColor) (room : 2 ^ h ≤ index)
    (inside : index ≤ keyList.length) :
    ∃ p, buildPennant keyList color (2 ^ h) (index, pennants) = some (index - 2 ^ h, pennants ++ [p]) ∧
      p.color = color ∧ Balanced p.right .black h ∧
      (p.key, p.value) :: p.right.entries ++ keyList.drop index = keyList.drop (index - 2 ^ h) := by
  have positive : 0 < 2 ^ h := Nat.two_pow_pos h
  obtain ⟨t, built, balanced, entries⟩ := buildBalancedTree_perfect keyList h (index - 2 ^ h + 1) (by omega)
  have first : index - 2 ^ h < keyList.length := by omega
  refine ⟨⟨color, keyList[index - 2 ^ h].1, keyList[index - 2 ^ h].2, t⟩, ?_, rfl, balanced, ?_⟩
  · unfold buildPennant
    simp only
    rw [if_neg (by omega), built, List.getElem?_eq_getElem first]
    rfl
  · have rest : keyList.drop index = (keyList.drop (index - 2 ^ h + 1)).drop (2 ^ h - 1) := by
      rw [List.drop_drop]
      congr 1
      omega
    rw [entries, rest, List.cons_append, List.take_append_drop, ← List.drop_eq_getElem_cons first]

theorem assemble_append (p : Pennant α β) (t : FLLRBNode α β) :
    assemble (pennants ++ [p]) t = assemble pennants (.node p.color t p.key p.value p.right) := by
  simp [assemble]

/-- One pennant more. -/
theorem Hung.next {h' : Nat} (hung : Hung keyList n h' index red pennants) (color : FLLRBColor) (red' : Bool)
    (allowed : color = .red → red = true) (inner : pennants = [] → color = .black)
    (height : h' = color.above h) (lean : color = .red → red' = false)
    (room : 2 ^ h ≤ index) (inside : index ≤ keyList.length) :
    ∃ more, buildPennant keyList color (2 ^ h) (index, pennants) = some (index - 2 ^ h, more) ∧
      Hung keyList n h (index - 2 ^ h) red' more ∧ more ≠ [] := by
  obtain ⟨p, built, colored, balanced, entries⟩ := buildPennant_spec pennants color room inside
  refine ⟨pennants ++ [p], built, ?_, by simp⟩
  intro t c may filled _
  rw [assemble_append, colored]
  have pennant : Balanced (.node color t p.key p.value p.right) color h' := height ▸ filled.node balanced (by
    intro isRed
    cases c with
    | red => simp [lean isRed] at may
    | black => rfl)
  obtain ⟨whole, all⟩ := hung _ color allowed pennant inner
  refine ⟨whole, ?_⟩
  rw [all, FLLRBNode.entries, List.append_assoc, entries]

theorem hang_spec (remaining : Nat) (list : Base1_2List) (current : list.current + 1 = remaining ∨ remaining = 0)
    (hung : Hung keyList n remaining index red pennants) (inside : index ≤ keyList.length)
    (left : index + 1 = 2 ^ remaining + list.bits % 2 ^ remaining) :
    ∃ more red', hang keyList remaining list (index, pennants) = some (0, more) ∧
      Hung keyList n 0 0 red' more := by
  induction remaining generalizing list index red pennants with
  | zero =>
    obtain rfl : index = 0 := by
      simp [Nat.mod_one] at left
      exact left
    exact ⟨pennants, red, rfl, hung⟩
  | succ h ih =>
    have here : list.current = h := by omega
    have double : 2 ^ (h + 1) = 2 ^ h + 2 ^ h := by
      rw [Nat.pow_succ]
      omega
    rw [Nat.mod_pow_succ] at left
    obtain ⟨more, built, hung', some⟩ := hung.next (h := h) .black true nofun (fun _ => rfl) rfl
      nofun (by omega) inside
    have later : h - 1 + 1 = h ∨ h = 0 := by omega
    have digit := Nat.testBit_eq_decide_div_mod_eq (x := list.bits) (i := h)
    unfold hang
    simp only [base1_2List_next, here, built, Option.bind_eq_bind, Option.bind_some]
    rcases Nat.mod_two_eq_zero_or_one (list.bits / 2 ^ h) with zero | one
    · rw [zero] at digit left
      simp only [digit, Nat.zero_ne_one, decide_false, Bool.not_false, if_true]
      exact ih ⟨list.bits, list.count, h - 1⟩ later hung' (by omega) (by simp only; omega)
    · rw [one] at digit left
      obtain ⟨more', built', hung'', some'⟩ := hung'.next (h := h) .red false (fun _ => rfl)
        (fun nothing => absurd nothing some) rfl (fun _ => rfl) (by omega) (by omega)
      simp only [digit, decide_true, Bool.not_true, Bool.false_eq_true, if_false, built', Option.bind_some]
      exact ih ⟨list.bits, list.count, h - 1⟩ later hung'' (by omega) (by simp only; omega)

/-- The tree of all the keys. -/
theorem rootFrom12List_spec (keyList : List (α × β)) (fits : keyList.length + 1 < 2 ^ 32) :
    ∃ n t, rootFrom12List (base1_2List_new keyList.length) keyList = some t ∧ Balanced t .black n ∧
      t.entries = keyList := by
  have small : (keyList.length + 1).log2 < 32 := (Nat.log2_lt (by omega)).mpr fits
  have below := Nat.log2_self_le (n := keyList.length + 1) (by omega)
  have above := Nat.lt_log2_self (n := keyList.length + 1)
  rw [Nat.pow_succ] at above
  have bits : (base1_2List_new keyList.length).bits = keyList.length + 1 - 2 ^ (keyList.length + 1).log2 := by
    show (keyList.length + 1) &&& bit_mask (keyList.length + 1).log2 = _
    rw [bit_mask, if_neg (by omega), Nat.and_two_pow_sub_one_eq_mod, Nat.mod_eq_sub_mod below,
      Nat.mod_eq_of_lt (by omega)]
  have start : Hung keyList (keyList.length + 1).log2 (keyList.length + 1).log2 keyList.length false [] := by
    intro t c _ balanced inner
    obtain rfl := inner rfl
    exact ⟨balanced, by simp [assemble]⟩
  have current : (base1_2List_new keyList.length).current + 1 = (keyList.length + 1).log2 ∨
      (keyList.length + 1).log2 = 0 := by
    show (keyList.length + 1).log2 - 1 + 1 = _ ∨ _
    omega
  obtain ⟨pennants, red, hangs, hung⟩ := hang_spec _ _ current start (Nat.le_refl _) (by
    rw [bits, Nat.mod_eq_of_lt (by omega)]
    omega)
  obtain ⟨balanced, entries⟩ := hung .empty .black nofun .empty fun _ => rfl
  refine ⟨_, _, ?_, balanced, entries⟩
  unfold rootFrom12List
  rw [show (base1_2List_new keyList.length).count = (keyList.length + 1).log2 from rfl, hangs]
  rfl

end FTreeSortedDictionary

end SimpleSNS
