import Mathlib.Data.List.Forall2
import Mathlib.Order.Compare

/-!
Lists of entries that ascend by a comparator: looking up, inserting and erasing at a key, and where in the
list each of them happens. Keys that compare the same are one key here.
-/

namespace Sorted
open Std

variable {α β : Type} {cmp : α → α → Ordering}

def Ascending (cmp : α → α → Ordering) (l : List (α × β)) : Prop := l.Pairwise (cmp ·.1 ·.1 = .lt)

def find (cmp : α → α → Ordering) (k : α) (l : List (α × β)) : Option β :=
  (l.find? (cmp k ·.1 == .eq)).map Prod.snd

/-- An entry that is there keeps its key. -/
def insert (cmp : α → α → Ordering) (k : α) (v : β) : List (α × β) → List (α × β)
  | [] => [(k, v)]
  | (k', v') :: rest =>
    match cmp k k' with
    | .lt => (k, v) :: (k', v') :: rest
    | .eq => (k', v) :: rest
    | .gt => (k', v') :: insert cmp k v rest

/-- The entry of a key, with the key as it is now written. -/
def replace (cmp : α → α → Ordering) (k : α) (v : β) (l : List (α × β)) : List (α × β) :=
  l.map fun e => if cmp k e.1 = .eq then (k, v) else e

def erase (cmp : α → α → Ordering) (k : α) (l : List (α × β)) : List (α × β) := l.filter (cmp k ·.1 != .eq)

/-- The entries before a key. -/
def below (cmp : α → α → Ordering) (k : α) (l : List (α × β)) : List (α × β) := l.filter (cmp k ·.1 == .gt)

/-- The same entries, up to keys that compare the same. -/
def Alike (cmp : α → α → Ordering) : List (α × β) → List (α × β) → Prop :=
  List.Forall₂ fun e e' => cmp e.1 e'.1 = .eq ∧ e.2 = e'.2

variable {l r : List (α × β)} {e : α × β} {k : α} {v : β}

theorem find_cons (k : α) (e : α × β) (l : List (α × β)) :
    find cmp k (e :: l) = if cmp k e.1 = .eq then some e.2 else find cmp k l := by
  unfold find
  rw [List.find?_cons]
  cases cmp k e.1 <;> rfl

theorem find_append (k : α) (l r : List (α × β)) : find cmp k (l ++ r) = (find cmp k l).or (find cmp k r) := by
  unfold find
  rw [List.find?_append]
  cases l.find? (cmp k ·.1 == .eq) <;> rfl

theorem find_eq_none : find cmp k l = none ↔ ∀ a ∈ l, cmp k a.1 ≠ .eq := by
  unfold find
  rw [Option.map_eq_none_iff, List.find?_eq_none]
  simp

theorem erase_append (k : α) (l r : List (α × β)) : erase cmp k (l ++ r) = erase cmp k l ++ erase cmp k r :=
  List.filter_append _ _

theorem erase_absent (absent : ∀ a ∈ l, cmp k a.1 ≠ .eq) : erase cmp k l = l := by
  apply List.filter_eq_self.mpr
  intro a member
  simpa using absent a member

theorem below_append (k : α) (l r : List (α × β)) : below cmp k (l ++ r) = below cmp k l ++ below cmp k r :=
  List.filter_append _ _

theorem below_all (beyond : ∀ a ∈ l, cmp k a.1 = .gt) : below cmp k l = l := by
  apply List.filter_eq_self.mpr
  intro a member
  simp [beyond a member]

theorem below_none (none : ∀ b ∈ r, cmp k b.1 ≠ .gt) : below cmp k r = [] := by
  apply List.filter_eq_nil_iff.mpr
  intro b member
  simpa using none b member

theorem insert_before (below : ∀ a ∈ r, cmp k a.1 = .lt) : insert cmp k v r = (k, v) :: r := by
  cases r with
  | nil => rfl
  | cons first rest => rw [insert, below first List.mem_cons_self]

theorem insert_after (beyond : ∀ a ∈ l, cmp k a.1 = .gt) : insert cmp k v (l ++ r) = l ++ insert cmp k v r := by
  induction l with
  | nil => rfl
  | cons first rest ih =>
    rw [List.cons_append, insert, beyond first List.mem_cons_self]
    simp only
    rw [ih fun a member => beyond a (List.mem_cons_of_mem _ member), List.cons_append]

theorem insert_append (above : ∀ b ∈ r, cmp k b.1 = .lt) : insert cmp k v (l ++ r) = insert cmp k v l ++ r := by
  induction l with
  | nil => exact insert_before above
  | cons first rest ih =>
    rw [List.cons_append, insert, insert]
    cases cmp k first.1 with
    | lt => rfl
    | eq => rfl
    | gt => rw [ih, List.cons_append]

theorem replace_before (below : ∀ a ∈ r, cmp k a.1 = .lt) : replace cmp k v r = r := by
  have kept : ∀ a ∈ r, (if cmp k a.1 = .eq then (k, v) else a) = a := by
    intro a member
    rw [if_neg (by simp [below a member])]
  rw [replace, List.map_congr_left kept, List.map_id']

theorem mem_insert {a : α × β} (member : a ∈ insert cmp k v l) : a = (k, v) ∨ cmp k a.1 = .eq ∨ a ∈ l := by
  induction l with
  | nil => exact Or.inl (List.mem_singleton.mp member)
  | cons first rest ih =>
    rw [insert] at member
    cases place : cmp k first.1 with
    | lt =>
      simp only [place, List.mem_cons] at member ⊢
      exact member.imp_right Or.inr
    | eq =>
      simp only [place, List.mem_cons] at member ⊢
      rcases member with rfl | there
      · exact Or.inr (Or.inl place)
      · exact Or.inr (Or.inr (Or.inr there))
    | gt =>
      simp only [place, List.mem_cons] at member ⊢
      rcases member with rfl | there
      · exact Or.inr (Or.inr (Or.inl rfl))
      · exact (ih there).imp_right (Or.imp_right Or.inr)

theorem insert_perm (absent : ∀ a ∈ l, cmp k a.1 ≠ .eq) : (insert cmp k v l).Perm (l ++ [(k, v)]) := by
  induction l with
  | nil => exact List.Perm.refl _
  | cons first rest ih =>
    rw [insert]
    cases place : cmp k first.1 with
    | lt => exact (List.perm_append_singleton (k, v) (first :: rest)).symm
    | eq => exact absurd place (absent first List.mem_cons_self)
    | gt => exact (ih fun a member => absent a (List.mem_cons_of_mem _ member)).cons first

theorem alike_mem {l' : List (α × β)} (alike : Alike cmp l l') {a : α × β} (member : a ∈ l) :
    ∃ b ∈ l', cmp a.1 b.1 = .eq := by
  induction alike with
  | nil => cases member
  | @cons a' b rest rest' same _ ih =>
    rcases List.mem_cons.mp member with rfl | there
    · exact ⟨b, List.mem_cons_self, same.1⟩
    · obtain ⟨b', member', meets⟩ := ih there
      exact ⟨b', List.mem_cons_of_mem _ member', meets⟩

/-! ### Around one entry -/

theorem ascending_mid : Ascending cmp (l ++ e :: r) ↔
    Ascending cmp l ∧ Ascending cmp r ∧ (∀ a ∈ l, cmp a.1 e.1 = .lt) ∧ (∀ b ∈ r, cmp e.1 b.1 = .lt) ∧
      ∀ a ∈ l, ∀ b ∈ r, cmp a.1 b.1 = .lt := by
  unfold Ascending
  rw [List.pairwise_append, List.pairwise_cons]
  constructor
  · rintro ⟨left, ⟨above, right⟩, apart⟩
    exact ⟨left, right, fun a here => apart a here e List.mem_cons_self, above,
      fun a here b there => apart a here b (List.mem_cons_of_mem _ there)⟩
  · rintro ⟨left, right, below, above, apart⟩
    refine ⟨left, ⟨above, right⟩, ?_⟩
    intro a here b there
    rcases List.mem_cons.mp there with rfl | there
    · exact below a here
    · exact apart a here b there

/-- What holds of the keys and of the values still does. -/
theorem insert_forall {P : α → Prop} {Q : β → Prop} (held : ∀ e ∈ l, P e.1 ∧ Q e.2) (key : P k) (value : Q v) :
    ∀ e ∈ insert cmp k v l, P e.1 ∧ Q e.2 := by
  induction l with
  | nil =>
    intro e member
    obtain rfl := List.mem_singleton.mp member
    exact ⟨key, value⟩
  | cons first rest ih =>
    obtain ⟨here, others⟩ := List.forall_mem_cons.mp held
    rw [insert]
    cases cmp k first.1 with
    | lt => exact List.forall_mem_cons.mpr ⟨⟨key, value⟩, held⟩
    | eq => exact List.forall_mem_cons.mpr ⟨⟨here.1, value⟩, others⟩
    | gt => exact List.forall_mem_cons.mpr ⟨here, ih others⟩

theorem replace_forall {P : α → Prop} {Q : β → Prop} (held : ∀ e ∈ l, P e.1 ∧ Q e.2) (key : P k) (value : Q v) :
    ∀ e ∈ replace cmp k v l, P e.1 ∧ Q e.2 := by
  intro e member
  obtain ⟨e', there, rfl⟩ := List.mem_map.mp member
  split
  · exact ⟨key, value⟩
  · exact held e' there

theorem find_mem (found : find cmp k l = some v) : ∃ e ∈ l, e.2 = v := by
  obtain ⟨e, there, same⟩ := Option.map_eq_some_iff.mp found
  exact ⟨e, List.mem_of_find?_eq_some there, same⟩

theorem find_map {γ : Type} (f : β → γ) (k : α) (l : List (α × β)) :
    find cmp k (l.map fun e => (e.1, f e.2)) = (find cmp k l).map f := by
  induction l with
  | nil => rfl
  | cons e rest ih =>
    rw [List.map_cons, find_cons, find_cons, ih]
    split <;> rfl

section Trans
variable [TransCmp cmp]

/-- A key before an entry is before all that follow it. -/
theorem lt_after (sorted : Ascending cmp (l ++ e :: r)) (before : cmp k e.1 = .lt) :
    ∀ b ∈ e :: r, cmp k b.1 = .lt := by
  obtain ⟨_, _, _, above, _⟩ := ascending_mid.mp sorted
  intro b member
  rcases List.mem_cons.mp member with rfl | there
  · exact before
  · exact TransCmp.lt_trans before (above b there)

/-- A key after an entry is after all that come before it. -/
theorem gt_before (sorted : Ascending cmp (l ++ e :: r)) (after : cmp k e.1 ≠ .lt) :
    ∀ a ∈ l, cmp k a.1 = .gt := by
  obtain ⟨_, _, below, _⟩ := ascending_mid.mp sorted
  intro a member
  have beyond := OrientedCmp.gt_of_lt (below a member)
  cases at_e : cmp k e.1 with
  | lt => exact absurd at_e after
  | eq => exact TransCmp.gt_of_eq_of_gt at_e beyond
  | gt => exact TransCmp.gt_trans at_e beyond

/-- A key that meets an entry is before all that follow it. -/
theorem lt_after_eq (sorted : Ascending cmp (l ++ e :: r)) (here : cmp k e.1 = .eq) :
    ∀ b ∈ r, cmp k b.1 = .lt := by
  obtain ⟨_, _, _, above, _⟩ := ascending_mid.mp sorted
  exact fun b member => TransCmp.lt_of_eq_of_lt here (above b member)

theorem absent_before (sorted : Ascending cmp (l ++ e :: r)) (after : cmp k e.1 ≠ .lt) :
    ∀ a ∈ l, cmp k a.1 ≠ .eq := by
  intro a member
  rw [gt_before sorted after a member]
  nofun

theorem absent_after (sorted : Ascending cmp (l ++ e :: r)) (before : cmp k e.1 = .lt) :
    ∀ b ∈ e :: r, cmp k b.1 ≠ .eq := by
  intro b member
  rw [lt_after sorted before b member]
  nofun

/-! ### Looking up -/

theorem find_lt (sorted : Ascending cmp (l ++ e :: r)) (before : cmp k e.1 = .lt) :
    find cmp k (l ++ e :: r) = find cmp k l := by
  rw [find_append, find_eq_none.mpr (absent_after sorted before), Option.or_none]

theorem find_eq (sorted : Ascending cmp (l ++ e :: r)) (here : cmp k e.1 = .eq) :
    find cmp k (l ++ e :: r) = some e.2 := by
  rw [find_append, find_eq_none.mpr (absent_before sorted (by simp [here])), Option.none_or, find_cons, if_pos here]

theorem find_gt (sorted : Ascending cmp (l ++ e :: r)) (after : cmp k e.1 = .gt) :
    find cmp k (l ++ e :: r) = find cmp k r := by
  rw [find_append, find_eq_none.mpr (absent_before sorted (by simp [after])), Option.none_or, find_cons,
    if_neg (by simp [after])]

/-! ### Inserting -/

theorem insert_lt (sorted : Ascending cmp (l ++ e :: r)) (before : cmp k e.1 = .lt) :
    insert cmp k v (l ++ e :: r) = insert cmp k v l ++ e :: r := insert_append (lt_after sorted before)

theorem insert_eq (sorted : Ascending cmp (l ++ e :: r)) (here : cmp k e.1 = .eq) :
    insert cmp k v (l ++ e :: r) = l ++ (e.1, v) :: r := by
  rw [insert_after (gt_before sorted (by simp [here])), insert, here]

theorem insert_gt (sorted : Ascending cmp (l ++ e :: r)) (after : cmp k e.1 = .gt) :
    insert cmp k v (l ++ e :: r) = l ++ e :: insert cmp k v r := by
  rw [insert_after (gt_before sorted (by simp [after])), insert, after]

theorem insert_ascending (sorted : Ascending cmp l) : Ascending cmp (insert cmp k v l) := by
  induction l with
  | nil => exact List.pairwise_singleton _ _
  | cons first rest ih =>
    obtain ⟨above, tail⟩ := List.pairwise_cons.mp sorted
    rw [insert]
    cases place : cmp k first.1 with
    | lt => exact List.pairwise_cons.mpr ⟨lt_after (l := []) sorted place, sorted⟩
    | eq => exact List.pairwise_cons.mpr ⟨above, tail⟩
    | gt =>
      refine List.pairwise_cons.mpr ⟨?_, ih tail⟩
      intro a member
      rcases mem_insert member with rfl | same | there
      · exact OrientedCmp.lt_of_gt place
      · exact TransCmp.lt_of_lt_of_eq (OrientedCmp.lt_of_gt place) same
      · exact above a there

/-- One set of entries ascends in one way. -/
theorem Ascending.unique {l' : List (α × β)} (sorted : Ascending cmp l) (sorted' : Ascending cmp l')
    (perm : l.Perm l') : l = l' := by
  refine perm.eq_of_pairwise ?_ sorted sorted'
  intro a b _ _ less more
  exact absurd more (OrientedCmp.not_lt_of_lt less)

/-! ### Erasing -/

theorem erase_eq (sorted : Ascending cmp (l ++ e :: r)) (here : cmp k e.1 = .eq) :
    erase cmp k (l ++ e :: r) = l ++ r := by
  have above : ∀ b ∈ r, cmp k b.1 ≠ .eq := by
    intro b member
    rw [lt_after_eq sorted here b member]
    nofun
  rw [erase_append, erase_absent (absent_before sorted (by simp [here]))]
  rw [show erase cmp k (e :: r) = erase cmp k r by simp [erase, here], erase_absent above]

theorem erase_gt (sorted : Ascending cmp (l ++ e :: r)) (after : cmp k e.1 = .gt) :
    erase cmp k (l ++ e :: r) = l ++ e :: erase cmp k r := by
  rw [erase_append, erase_absent (absent_before sorted (by simp [after]))]
  rw [show erase cmp k (e :: r) = e :: erase cmp k r by simp [erase, after]]

omit [TransCmp cmp] in
theorem erase_ascending (sorted : Ascending cmp l) : Ascending cmp (erase cmp k l) := List.Pairwise.filter _ sorted

/-! ### The entries before a key -/

theorem below_lt (sorted : Ascending cmp (l ++ e :: r)) (before : cmp k e.1 = .lt) :
    below cmp k (l ++ e :: r) = below cmp k l := by
  rw [below_append, below_none (r := e :: r), List.append_nil]
  intro b member
  rw [lt_after sorted before b member]
  nofun

theorem below_eq (sorted : Ascending cmp (l ++ e :: r)) (here : cmp k e.1 = .eq) :
    below cmp k (l ++ e :: r) = l := by
  rw [below_append, below_all (gt_before sorted (by simp [here])), below_none (r := e :: r), List.append_nil]
  intro b member
  rcases List.mem_cons.mp member with rfl | there
  · simp [here]
  · simp [lt_after_eq sorted here b there]

theorem below_gt (sorted : Ascending cmp (l ++ e :: r)) (after : cmp k e.1 = .gt) :
    below cmp k (l ++ e :: r) = l ++ e :: below cmp k r := by
  rw [below_append, below_all (gt_before sorted (by simp [after]))]
  rw [show below cmp k (e :: r) = e :: below cmp k r by simp [below, after]]

/-! ### Reading back -/

theorem find_insert (k k' : α) (v : β) (l : List (α × β)) :
    find cmp k' (insert cmp k v l) = if cmp k' k = .eq then some v else find cmp k' l := by
  induction l with
  | nil => exact find_cons k' (k, v) []
  | cons first rest ih =>
    rw [insert]
    cases place : cmp k first.1 with
    | lt => exact find_cons k' (k, v) (first :: rest)
    | eq =>
      simp only [find_cons, TransCmp.congr_right place]
      split <;> rfl
    | gt =>
      simp only [find_cons, ih]
      by_cases same : cmp k' k = .eq
      · have other : cmp k' first.1 ≠ .eq := by
          rw [TransCmp.congr_left same, place]
          nofun
        rw [if_neg other, if_pos same, if_pos same]
      · rw [if_neg same, if_neg same]

theorem find_erase (k k' : α) (l : List (α × β)) :
    find cmp k' (erase cmp k l) = if cmp k' k = .eq then none else find cmp k' l := by
  induction l with
  | nil => simp [erase, find]
  | cons first rest ih =>
    by_cases here : cmp k first.1 = .eq
    · rw [show erase cmp k (first :: rest) = erase cmp k rest by simp [erase, here], ih, find_cons,
        ← TransCmp.congr_right here]
      split <;> rfl
    · rw [show erase cmp k (first :: rest) = first :: erase cmp k rest by simp [erase, here], find_cons, ih,
        find_cons]
      by_cases same : cmp k' k = .eq
      · have other : cmp k' first.1 ≠ .eq := fun meets =>
          here (TransCmp.eq_trans (OrientedCmp.eq_symm same) meets)
        rw [if_neg other, if_pos same, if_pos same]
      · rw [if_neg same, if_neg same]

/-! ### Alike -/

theorem alike_refl (l : List (α × β)) : Alike cmp l l :=
  List.forall₂_same.mpr fun _ _ => ⟨ReflCmp.compare_self, rfl⟩

theorem alike_insert {l' : List (α × β)} (alike : Alike cmp l l') :
    Alike cmp (insert cmp k v l) (insert cmp k v l') := by
  induction alike with
  | nil => exact alike_refl _
  | @cons a b rest rest' same alike ih =>
    rw [insert, insert, TransCmp.congr_right same.1]
    cases cmp k b.1 with
    | lt => exact .cons ⟨ReflCmp.compare_self, rfl⟩ (.cons same alike)
    | eq => exact .cons ⟨same.1, rfl⟩ alike
    | gt => exact .cons same ih

theorem alike_erase {l' : List (α × β)} (alike : Alike cmp l l') : Alike cmp (erase cmp k l) (erase cmp k l') := by
  induction alike with
  | nil => exact .nil
  | @cons a b rest rest' same alike ih =>
    unfold erase
    rw [List.filter_cons, List.filter_cons, TransCmp.congr_right same.1]
    split
    · exact .cons same ih
    · exact ih

theorem alike_trans {l' l'' : List (α × β)} (alike : Alike cmp l l') (alike' : Alike cmp l' l'') :
    Alike cmp l l'' := by
  induction alike generalizing l'' with
  | nil => exact alike'
  | cons same _ ih =>
    cases alike' with
    | cons same' rest => exact .cons ⟨TransCmp.eq_trans same.1 same'.1, same.2.trans same'.2⟩ (ih rest)

theorem replace_alike (sorted : Ascending cmp l) (there : (find cmp k l).isSome) :
    Alike cmp (replace cmp k v l) (insert cmp k v l) := by
  induction l with
  | nil => cases there
  | cons e rest ih =>
    rw [replace, List.map_cons, insert]
    cases place : cmp k e.1 with
    | lt =>
      rw [show find cmp k (e :: rest) = none from find_lt (l := []) sorted place] at there
      cases there
    | eq =>
      have kept : replace cmp k v rest = rest := replace_before (lt_after_eq (l := []) sorted place)
      have same : Alike cmp (replace cmp k v rest) rest := by
        rw [kept]
        exact alike_refl rest
      rw [if_pos rfl]
      exact .cons ⟨place, rfl⟩ same
    | gt =>
      rw [show find cmp k (e :: rest) = find cmp k rest from find_gt (l := []) sorted place] at there
      rw [if_neg (by simp)]
      exact .cons ⟨ReflCmp.compare_self, rfl⟩ (ih sorted.of_cons there)

theorem alike_find {l' : List (α × β)} (alike : Alike cmp l l') : find cmp k l = find cmp k l' := by
  induction alike with
  | nil => rfl
  | cons same _ ih => rw [find_cons, find_cons, TransCmp.congr_right same.1, same.2, ih]

theorem alike_ascending {l' : List (α × β)} (alike : Alike cmp l l') (sorted : Ascending cmp l') :
    Ascending cmp l := by
  induction alike with
  | nil => exact .nil
  | cons same rest ih =>
    obtain ⟨above, sorted⟩ := List.pairwise_cons.mp sorted
    refine .cons ?_ (ih sorted)
    intro a member
    obtain ⟨b, member', meets⟩ := alike_mem rest member
    exact TransCmp.lt_of_lt_of_eq (TransCmp.lt_of_eq_of_lt same.1 (above b member')) (OrientedCmp.eq_symm meets)

end Trans

end Sorted
