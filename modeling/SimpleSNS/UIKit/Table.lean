import Mathlib.Logic.Function.Basic
import SimpleSNS.Async.Machine

/-!
A table view over an array, on one first-in first-out main queue. The array changes at once. The
table is reloaded, and a cell that is about to show a row is filled, by blocks that wait in the
queue, so the rows the table shows and the rows the array has can disagree.
-/

namespace UIKit
open Async

variable {α β : Type}

/-- `array[index]` -/
def item (array : List α) (index : Nat) : Except Trap α :=
  match array[index]? with
  | some x => .ok x
  | none => .error .indexOutOfRange

/-- `array.remove(at: index)` -/
def removeAt (array : List α) (index : Nat) : Except Trap (List α) :=
  if index < array.length then .ok (array.eraseIdx index) else .error .indexOutOfRange

theorem item_inside {array : List α} {index : Nat} (inside : index < array.length) :
    item array index = .ok array[index] := by
  unfold item
  rw [List.getElem?_eq_getElem inside]

theorem item_outside {array : List α} {index : Nat} (outside : array.length ≤ index) :
    item array index = .error .indexOutOfRange := by
  unfold item
  rw [List.getElem?_eq_none outside]

theorem item_ok_iff {array : List α} {index : Nat} {x : α} :
    item array index = .ok x ↔ array[index]? = some x := by
  by_cases inside : index < array.length
  · rw [item_inside inside, List.getElem?_eq_getElem inside, Except.ok.injEq, Option.some.injEq]
  · rw [item_outside (by omega), List.getElem?_eq_none (by omega)]
    exact ⟨nofun, nofun⟩

/-- A block that fills a cell, or one of the screen's own. -/
inductive Block (β : Type) where
  | row (cell row : Nat)
  | own (b : β)
  deriving DecidableEq

/-- `rows` is the row count of the last reload, `tag` the row that a cell's button was given. -/
structure Table (α β : Type) where
  array : List α := []
  rows : Nat := 0
  tag : Nat → Option Nat := fun _ => none
  queue : List (Block β) := []

namespace Table

def assign (t : Table α β) (array : List α) (b : β) : Table α β :=
  { t with array := array, queue := t.queue ++ [.own b] }

def enqueue (t : Table α β) (b : β) : Table α β := { t with queue := t.queue ++ [.own b] }

def willDisplay (t : Table α β) (cell row : Nat) : Table α β :=
  { t with queue := t.queue ++ [.row cell row] }

def popped (t : Table α β) (rest : List (Block β)) : Table α β := { t with queue := rest }

def reloadData (t : Table α β) : Table α β := { t with rows := t.array.length }

/-- The cell shows the entry of its row, and its button carries the row. -/
def fill (t : Table α β) (cell row : Nat) : Except Trap (Table α β) := do
  let _ ← item t.array row
  return { t with tag := Function.update t.tag cell (some row) }

def remove (t : Table α β) (row : Nat) : Except Trap (Table α β) := do
  let array ← removeAt t.array row
  return { t with array := array }

theorem fill_inside {t : Table α β} {row : Nat} (cell : Nat) (inside : row < t.array.length) :
    t.fill cell row = .ok { t with tag := Function.update t.tag cell (some row) } := by
  unfold fill
  rw [item_inside inside]
  rfl

theorem fill_outside {t : Table α β} {row : Nat} (cell : Nat) (outside : t.array.length ≤ row) :
    t.fill cell row = .error .indexOutOfRange := by
  unfold fill
  rw [item_outside outside]
  rfl

theorem remove_inside {t : Table α β} {row : Nat} (inside : row < t.array.length) :
    t.remove row = .ok { t with array := t.array.eraseIdx row } := by
  unfold remove removeAt
  rw [if_pos inside]
  rfl

theorem remove_outside {t : Table α β} {row : Nat} (outside : t.array.length ≤ row) :
    t.remove row = .error .indexOutOfRange := by
  unfold remove removeAt
  rw [if_neg (by omega)]
  rfl

theorem fill_ok_iff {t t' : Table α β} {cell row : Nat} : t.fill cell row = .ok t' ↔
    row < t.array.length ∧ t' = { t with tag := Function.update t.tag cell (some row) } := by
  by_cases inside : row < t.array.length
  · rw [fill_inside cell inside, Except.ok.injEq, eq_comm, and_iff_right inside]
  · rw [fill_outside cell (by omega)]
    exact ⟨nofun, fun h => absurd h.1 inside⟩

theorem remove_ok_iff {t t' : Table α β} {row : Nat} : t.remove row = .ok t' ↔
    row < t.array.length ∧ t' = { t with array := t.array.eraseIdx row } := by
  by_cases inside : row < t.array.length
  · rw [remove_inside inside, Except.ok.injEq, eq_comm, and_iff_right inside]
  · rw [remove_outside (by omega)]
    exact ⟨nofun, fun h => absurd h.1 inside⟩

/-! ### Rows that are still to be read -/

def queuedRows : List (Block β) → List Nat
  | [] => []
  | .row _ row :: rest => row :: queuedRows rest
  | .own _ :: rest => queuedRows rest

def Below (t : Table α β) (bound : Nat) : Prop := ∀ row ∈ queuedRows t.queue, row < bound

instance (t : Table α β) (bound : Nat) : Decidable (t.Below bound) :=
  inferInstanceAs (Decidable (∀ row ∈ queuedRows t.queue, row < bound))

/-- Every queued block finds its row. -/
def Fits (t : Table α β) : Prop := t.Below t.array.length

theorem queuedRows_append (xs ys : List (Block β)) :
    queuedRows (xs ++ ys) = queuedRows xs ++ queuedRows ys := by
  induction xs with
  | nil => rfl
  | cons b rest ih =>
    cases b with
    | row cell row => exact congrArg (row :: ·) ih
    | own b => exact ih

theorem assign_fits (t : Table α β) (array : List α) (b : β) :
    (t.assign array b).Fits ↔ t.Below array.length := by
  simp only [Fits, Below, assign, queuedRows_append, queuedRows, List.append_nil]

theorem enqueue_fits (t : Table α β) (b : β) : (t.enqueue b).Fits ↔ t.Fits := by
  simp only [Fits, Below, enqueue, queuedRows_append, queuedRows, List.append_nil]

theorem willDisplay_fits (t : Table α β) (cell row : Nat) :
    (t.willDisplay cell row).Fits ↔ t.Fits ∧ row < t.array.length := by
  simp only [Fits, Below, willDisplay, queuedRows_append, queuedRows, List.forall_mem_append,
    List.forall_mem_singleton]

theorem Fits.popped {t : Table α β} {b : Block β} {rest : List (Block β)} (fits : t.Fits)
    (next : t.queue = b :: rest) : (t.popped rest).Fits := by
  intro row member
  apply fits
  rw [next]
  cases b with
  | row cell first => exact List.mem_cons_of_mem _ member
  | own b => exact member

theorem Fits.next {t : Table α β} {cell row : Nat} {rest : List (Block β)} (fits : t.Fits)
    (next : t.queue = .row cell row :: rest) : row < t.array.length := by
  apply fits
  rw [next]
  exact List.mem_cons_self

theorem remove_fits {t t' : Table α β} {row : Nat} (ran : t.remove row = .ok t') :
    t'.Fits ↔ t.Below (t.array.length - 1) := by
  obtain ⟨inside, rfl⟩ := remove_ok_iff.mp ran
  simp only [Fits, Below, List.length_eraseIdx_of_lt inside]

/-! ### Screens around a table -/

section Screens
variable {σ ι : Type}

/-- The block that is about to run finds its row. -/
def NextInRange (t : Table α β) : Prop :=
  ∀ cell row rest, t.queue = .row cell row :: rest → row < t.array.length

/-- `main` runs the blocks of the table's queue and `put` writes the table back. A block of the
screen's own takes nothing from the queue but itself, puts nothing into it, and the array does not
grow. -/
structure Drains (M : Machine σ ι) (main : ι) (table : σ → Table α β) (put : σ → Table α β → σ) :
    Prop where
  possible : ∀ s, (table s).queue ≠ [] → M.enabled s main
  put_table : ∀ s t, table (put s t) = t
  row : ∀ s cell row rest, (table s).queue = .row cell row :: rest →
    M.react s main = ((table s).popped rest).fill cell row >>= fun t => .ok (put s t)
  own : ∀ s b rest, (table s).queue = .own b :: rest → M.react s main = .error .indexOutOfRange ∨
    ∃ s', M.react s main = .ok s' ∧ (table s').queue = rest ∧
      (table s').array.length ≤ (table s).array.length

variable {M : Machine σ ι} {main : ι} {table : σ → Table α β} {put : σ → Table α β → σ}

theorem Drains.missing (drains : Drains M main table put) {s : σ} {cell row : Nat}
    {rest : List (Block β)} (next : (table s).queue = .row cell row :: rest)
    (outside : (table s).array.length ≤ row) : M.react s main = .error .indexOutOfRange := by
  have unread : ((table s).popped rest).fill cell row = .error .indexOutOfRange :=
    fill_outside cell outside
  rw [drains.row s cell row rest next, unread]
  rfl

theorem Drains.filled (drains : Drains M main table put) {s : σ} {cell row : Nat}
    {rest : List (Block β)} (next : (table s).queue = .row cell row :: rest)
    (inside : row < (table s).array.length) :
    ∃ s', M.react s main = .ok s' ∧ (table s').queue = rest ∧
      (table s').array = (table s).array := by
  let t : Table α β :=
    { (table s).popped rest with tag := Function.update (table s).tag cell (some row) }
  have read : ((table s).popped rest).fill cell row = .ok t := fill_inside cell inside
  refine ⟨put s t, ?_, ?_, ?_⟩
  · rw [drains.row s cell row rest next, read]
    rfl
  · rw [drains.put_table]
    rfl
  · rw [drains.put_table]
    rfl

theorem Drains.next (drains : Drains M main table put) {s : σ} {b : Block β}
    {rest : List (Block β)} (next : (table s).queue = b :: rest) :
    M.react s main = .error .indexOutOfRange ∨
    ∃ s', M.react s main = .ok s' ∧ (table s').queue = rest ∧
      (table s').array.length ≤ (table s).array.length := by
  cases b with
  | own b => exact drains.own s b rest next
  | row cell row =>
    by_cases inside : row < (table s).array.length
    · obtain ⟨s', ran, left, same⟩ := drains.filled next inside
      exact Or.inr ⟨s', ran, left, Nat.le_of_eq (congrArg _ same)⟩
    · exact Or.inl (drains.missing next (by omega))

/-- A block that has filled its cell leaves the others where they fit. -/
theorem Drains.row_fits (drains : Drains M main table put) {s s' : σ} {cell row : Nat}
    {rest : List (Block β)} (fits : (table s).Fits) (next : (table s).queue = .row cell row :: rest)
    (ran : M.react s main = .ok s') : (table s').Fits := by
  obtain ⟨s₁, filled, left, same⟩ := drains.filled next (fits.next next)
  rw [filled] at ran
  obtain rfl := Except.ok.inj ran
  have popped := fits.popped next
  unfold Fits Below at popped ⊢
  rw [left, same]
  exact popped

/-- While all events are `fitting`, every block finds its row. After one that is not, the main
queue alone runs into a row outside the array. -/
structure SafeWhile (M : Machine σ ι) (main : ι) (table : σ → Table α β)
    (fitting : σ → ι → Prop) (s₀ : σ) : Prop where
  inRange : ∀ s, M.Run fitting s₀ s → NextInRange (table s)
  sharp : ∀ s i s', M.Run fitting s₀ s → M.enabled s i → M.react s i = .ok s' → ¬ fitting s i →
    ∃ s'', M.Run (fun _ i => i = main) s' s'' ∧ M.react s'' main = .error .indexOutOfRange

/-- A queued block that does not fit is reached when nothing but the main queue runs. -/
theorem Drains.stops (drains : Drains M main table put) {s : σ} (unfit : ¬ (table s).Fits) :
    ∃ s', M.Run (fun _ i => i = main) s s' ∧ M.react s' main = .error .indexOutOfRange := by
  generalize queue_eq : (table s).queue = queue
  induction queue generalizing s with
  | nil =>
    exfalso
    apply unfit
    intro row member
    rw [queue_eq] at member
    cases member
  | cons b rest ih =>
    rcases drains.next queue_eq with stopped | ⟨s', ran, left, shrunk⟩
    · exact ⟨s, .refl, stopped⟩
    · have later_unfit : ¬ (table s').Fits := by
        intro fits
        apply unfit
        intro row' member
        rw [queue_eq] at member
        have later : row' ∈ queuedRows rest → row' < (table s).array.length := by
          intro later
          have below := fits row' (left ▸ later)
          omega
        cases b with
        | own b => exact later member
        | row cell row =>
          rcases List.mem_cons.mp member with rfl | behind
          · by_contra outside
            rw [drains.missing queue_eq (by omega)] at ran
            cases ran
          · exact later behind
      obtain ⟨s'', run, stopped⟩ := ih later_unfit left
      have possible : M.enabled s main := drains.possible s (by rw [queue_eq]; exact List.cons_ne_nil _ _)
      exact ⟨s'', (Machine.Run.refl.step possible rfl ran).trans run, stopped⟩

/-- When `fitting` says exactly which events keep all queued rows inside the array, it is exactly
what safety needs. -/
theorem Drains.safeWhile {fitting : σ → ι → Prop} {s₀ : σ} (drains : Drains M main table put)
    (initial : (table s₀).Fits)
    (keeps : ∀ s i s', (table s).Fits → M.react s i = .ok s' → ((table s').Fits ↔ fitting s i)) :
    SafeWhile M main table fitting s₀ := by
  have fits : ∀ {s}, M.Run fitting s₀ s → (table s).Fits := by
    intro s run
    refine run.invariant (I := fun s => (table s).Fits) initial ?_
    intro s i s' before _ allowed ran
    exact (keeps s i s' before ran).mpr allowed
  refine ⟨?_, ?_⟩
  · intro s run cell row rest next
    exact (fits run).next next
  · intro s i s' run _ ran unfitting
    exact drains.stops (mt (keeps s i s' (fits run) ran).mp unfitting)

end Screens

end Table

end UIKit
