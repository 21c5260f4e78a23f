import Mathlib.Data.List.Nodup
import Mathlib.Data.List.Perm.Basic

/-!
A list under a search bar: the array on display, the array that a search starts from and the text
in the bar. Each edit touches some of the three.
-/

namespace UIKit

variable {α τ κ : Type}

structure Searchable (α τ : Type) where
  array : List α
  unfiltered : List α
  text : τ

inductive Edit (α τ : Type) where
  | load (array : List α)
  | search (text : τ)
  | cancel
  | remove (row : Nat)
  | none

/-- The edit neither loads nor cancels, and its text does not select `x`. -/
def Edit.Hides (select : τ → α → Bool) (x : α) : Edit α τ → Prop
  | .load _ => False
  | .search text => select text x = false
  | .cancel => False
  | _ => True

namespace Searchable

/-- `clear` is the text that a cancelled search leaves in the bar. -/
def edit (select : τ → α → Bool) (clear : τ) (s : Searchable α τ) : Edit α τ → Searchable α τ
  | .load array => { s with array := array, unfiltered := array }
  | .search text => { s with array := s.unfiltered.filter (select text), text := text }
  | .cancel => { s with array := s.unfiltered, text := clear }
  | .remove row => { s with array := s.array.eraseIdx row }
  | .none => s

/-- The display shows what the text selects, in order. -/
def Follows (select : τ → α → Bool) (s : Searchable α τ) : Prop :=
  s.array = s.unfiltered.filter (select s.text)

/-- A load brings only what the text in the bar selects, and nothing is removed. -/
def Fits (select : τ → α → Bool) (s : Searchable α τ) : Edit α τ → Prop
  | .load array => ∀ x ∈ array, select s.text x = true
  | .remove _ => False
  | _ => True

/-- A row that is removed exists. -/
def Inside (s : Searchable α τ) : Edit α τ → Prop
  | .remove row => row < s.array.length
  | _ => True

variable {select : τ → α → Bool} {clear : τ} {s : Searchable α τ} {e : Edit α τ}

theorem Follows.whole (follows : s.Follows select)
    (all : ∀ x ∈ s.unfiltered, select s.text x = true) : s.array = s.unfiltered :=
  follows.trans (List.filter_eq_self.mpr all)

/-- Exactly the fitting edits keep the display in line with the text. -/
theorem edit_follows (clears : ∀ x ∈ s.unfiltered, select clear x = true) (follows : s.Follows select)
    (inside : s.Inside e) : (s.edit select clear e).Follows select ↔ s.Fits select e := by
  cases e with
  | load array =>
    show array = array.filter (select s.text) ↔ _
    rw [eq_comm, List.filter_eq_self]
    exact Iff.rfl
  | search text => exact iff_of_true rfl trivial
  | cancel => exact iff_of_true (List.filter_eq_self.mpr clears).symm trivial
  | remove row =>
    refine iff_of_false ?_ id
    intro followed
    have shorter := congrArg List.length (followed.trans follows.symm)
    change row < s.array.length at inside
    change (s.array.eraseIdx row).length = s.array.length at shorter
    rw [List.length_eraseIdx_of_lt inside] at shorter
    omega
  | none => exact iff_of_true follows trivial

/-- What holds of everything that is loaded holds of both arrays. -/
theorem edit_all (select : τ → α → Bool) (clear : τ) (e : Edit α τ) {Q : α → Prop}
    (array : ∀ x ∈ s.array, Q x) (unfiltered : ∀ x ∈ s.unfiltered, Q x)
    (loaded : ∀ xs, e = .load xs → ∀ x ∈ xs, Q x) : (∀ x ∈ (s.edit select clear e).array, Q x) ∧
      ∀ x ∈ (s.edit select clear e).unfiltered, Q x := by
  cases e with
  | load xs => exact ⟨loaded xs rfl, loaded xs rfl⟩
  | search text => exact ⟨fun x member => unfiltered x (List.mem_of_mem_filter member), unfiltered⟩
  | cancel => exact ⟨unfiltered, unfiltered⟩
  | remove row => exact ⟨fun x member => array x (List.mem_of_mem_eraseIdx member), unfiltered⟩
  | none => exact ⟨array, unfiltered⟩

/-! ### What is not on display -/

/-- Everything on display is among what a search starts from, in the same order. -/
theorem edit_sublist (select : τ → α → Bool) (clear : τ) (e : Edit α τ)
    (sublist : s.array.Sublist s.unfiltered) :
    (s.edit select clear e).array.Sublist (s.edit select clear e).unfiltered := by
  cases e with
  | load array => exact List.Sublist.refl array
  | search text => exact List.filter_sublist
  | cancel => exact List.Sublist.refl s.unfiltered
  | remove row => exact (List.eraseIdx_sublist s.array row).trans sublist
  | none => exact sublist

/-- Only a load changes what a search starts from. -/
theorem edit_unfiltered (select : τ → α → Bool) (clear : τ) (no_load : ∀ array, e ≠ .load array) :
    (s.edit select clear e).unfiltered = s.unfiltered := by
  cases e with
  | load array => exact absurd rfl (no_load array)
  | _ => rfl

def Absent (key : α → κ) (k : κ) (array : List α) : Prop := ∀ x ∈ array, key x ≠ k

variable {key : α → κ} {k : κ} {x : α}

theorem Absent.sublist {array array' : List α} (absent : Absent key k array) (sublist : array'.Sublist array) :
    Absent key k array' := fun y member => absent y (sublist.subset member)

/-- Among unique keys, `x` is absent from a selection exactly when it is not selected. -/
theorem filter_absent {unfiltered : List α} (unique : (unfiltered.map key).Nodup) (listed : x ∈ unfiltered)
    (chosen : α → Bool) : Absent key (key x) (unfiltered.filter chosen) ↔ chosen x = false := by
  constructor
  · intro absent
    by_contra selected
    exact absent x (List.mem_filter.mpr ⟨listed, by simpa using selected⟩) rfl
  · intro passed y member same
    obtain ⟨listed', selected⟩ := List.mem_filter.mp member
    rw [List.inj_on_of_nodup_map unique listed' listed same, passed] at selected
    cases selected

/-- What the search starts from still has `x`: exactly the edits that hide it keep it off display. -/
theorem edit_absent (unique : (s.unfiltered.map key).Nodup) (listed : x ∈ s.unfiltered)
    (absent : Absent key (key x) s.array) (no_load : ∀ array, e ≠ .load array) :
    Absent key (key x) (s.edit select clear e).array ↔ e.Hides select x := by
  cases e with
  | load array => exact absurd rfl (no_load array)
  | search text => exact filter_absent unique listed (select text)
  | cancel => exact iff_of_false (fun away => away x listed rfl) id
  | remove row => exact iff_of_true (absent.sublist (List.eraseIdx_sublist s.array row)) trivial
  | none => exact iff_of_true absent trivial

/-- Without repeated keys, an entry that is removed is absent. -/
theorem eraseIdx_absent {array : List α} {row : Nat} (unique : (array.map key).Nodup)
    (found : array[row]?.map key = some k) : Absent key k (array.eraseIdx row) := by
  obtain ⟨x, at_row, rfl⟩ := Option.map_eq_some_iff.mp found
  obtain ⟨inside, rfl⟩ := List.getElem?_eq_some_iff.mp at_row
  intro y later same
  have keys := (List.getElem_cons_eraseIdx_perm inside).map key
  have fresh := (List.nodup_cons.mp (keys.nodup_iff.mpr unique)).1
  exact fresh (List.mem_map.mpr ⟨y, later, same⟩)

end Searchable

end UIKit
