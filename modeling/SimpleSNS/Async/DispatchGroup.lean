import Mathlib.Data.List.Basic

/-!
Dispatch groups: a count of entries that have not left, and the notify blocks that wait for
the count to become zero. A block registered on a group that is already at zero is queued at
once, so a group at zero never holds a block; the structure carries that as a field.
-/

namespace Async

/-- The ways in which a Swift program stops at run time: its own traps, and the exception that the
database raises for a string that is no path. -/
inductive Trap where
  | nilUnwrap | unbalancedLeave | indexOutOfRange | failedCast
  | invalidPath (pathString : String)
  deriving DecidableEq, Repr

/-- `x!` -/
def unwrap {α : Type} : Option α → Except Trap α
  | some x => .ok x
  | none => .error .nilUnwrap

@[simp] theorem unwrap_some {α : Type} (x : α) : unwrap (some x) = .ok x := rfl

theorem unwrap_ok {α : Type} {x : Option α} {a : α} (ran : unwrap x = .ok a) : x = some a := by
  cases x with
  | none => cases ran
  | some b => exact congrArg some (Except.ok.inj ran)

/-- A computation that continues after `x` ends well when both parts do. -/
theorem bind_ok {ε α β : Type} {x : Except ε α} {f : α → Except ε β} {r : β} :
    (x >>= f) = .ok r ↔ ∃ a, x = .ok a ∧ f a = .ok r := by
  cases x with
  | ok a => exact ⟨fun h => ⟨a, rfl, h⟩, fun ⟨_, same, h⟩ => Except.ok.inj same ▸ h⟩
  | error t => exact ⟨nofun, fun ⟨_, same, _⟩ => nomatch same⟩

theorem bind_error {ε α β : Type} {x : Except ε α} {f : α → Except ε β} {t : ε} :
    (x >>= f) = .error t ↔ x = .error t ∨ ∃ a, x = .ok a ∧ f a = .error t := by
  cases x with
  | ok a => exact ⟨fun h => .inr ⟨a, rfl, h⟩, fun h => h.elim nofun fun ⟨_, same, h⟩ => Except.ok.inj same ▸ h⟩
  | error e => exact ⟨fun h => .inl (congrArg Except.error (Except.error.inj h)), fun h => h.elim (congrArg _ ∘ Except.error.inj) nofun⟩

theorem unwrap_error {α : Type} {x : Option α} {t : Trap} (stopped : unwrap x = .error t) : t = .nilUnwrap := by
  cases x with
  | none => exact (Except.error.inj stopped).symm
  | some a => cases stopped

structure DispatchGroup (β : Type) where
  count : Nat
  pending : List β
  drained : count = 0 → pending = []

namespace DispatchGroup

variable {β : Type}

@[ext] theorem ext {g h : DispatchGroup β} (count : g.count = h.count)
    (pending : g.pending = h.pending) : g = h := by
  cases g; cases h
  simp_all

def new : DispatchGroup β := ⟨0, [], fun _ => rfl⟩

def enter (g : DispatchGroup β) : DispatchGroup β :=
  ⟨g.count + 1, g.pending, fun zero => absurd zero (Nat.succ_ne_zero _)⟩

/-- `leave` returns the notify blocks it puts on their queue: all of them when the count
becomes zero, in the order of registration. -/
def leave (g : DispatchGroup β) : Except Trap (DispatchGroup β × List β) :=
  match g.count with
  | 0 => .error .unbalancedLeave
  | 1 => .ok (new, g.pending)
  | n + 2 => .ok (⟨n + 1, g.pending, fun zero => absurd zero (Nat.succ_ne_zero _)⟩, [])

/-- `notify` returns the block itself when the group is at zero. -/
def notify (g : DispatchGroup β) (b : β) : DispatchGroup β × List β :=
  if h : g.count = 0 then (g, [b])
  else (⟨g.count, g.pending ++ [b], fun zero => absurd zero h⟩, [])

@[simp] theorem enter_count (g : DispatchGroup β) : g.enter.count = g.count + 1 := rfl
@[simp] theorem enter_pending (g : DispatchGroup β) : g.enter.pending = g.pending := rfl

theorem leave_zero {g : DispatchGroup β} (zero : g.count = 0) :
    g.leave = .error .unbalancedLeave := by
  unfold leave
  rw [zero]

/-- The last `leave` empties the group and releases every pending block. -/
theorem leave_last {g : DispatchGroup β} (one : g.count = 1) : g.leave = .ok (new, g.pending) := by
  unfold leave
  rw [one]

/-- Any earlier `leave` only lowers the count. -/
theorem leave_more {g : DispatchGroup β} (more : 1 < g.count) :
    ∃ h : DispatchGroup β, g.leave = .ok (h, []) ∧ h.count + 1 = g.count ∧ h.pending = g.pending := by
  obtain ⟨n, hn⟩ : ∃ n, g.count = n + 2 := ⟨g.count - 2, by omega⟩
  refine ⟨⟨n + 1, g.pending, fun zero => absurd zero (Nat.succ_ne_zero _)⟩, ?_, ?_, rfl⟩
  · unfold leave
    rw [hn]
  · rw [hn]

/-- A balanced `leave`: the last one releases what is pending, an earlier one nothing. -/
theorem leave_cases {g : DispatchGroup β} (positive : 0 < g.count) :
    ∃ h released, g.leave = .ok (h, released) ∧
      (g.count = 1 ∧ released = g.pending ∨
        released = [] ∧ h.count + 1 = g.count ∧ 0 < h.count ∧ h.pending = g.pending) := by
  by_cases one : g.count = 1
  · exact ⟨new, g.pending, leave_last one, Or.inl ⟨one, rfl⟩⟩
  · obtain ⟨h, left, lower, kept⟩ := leave_more (show 1 < g.count by omega)
    exact ⟨h, [], left, Or.inr ⟨rfl, lower, by omega, kept⟩⟩

/-- A `leave` lowers the count by one and loses no block. -/
theorem leave_ok {g h : DispatchGroup β} {released : List β} (left : g.leave = .ok (h, released)) :
    h.count + 1 = g.count ∧ released ++ h.pending = g.pending := by
  have positive : 0 < g.count := by
    apply Nat.pos_of_ne_zero
    intro zero
    rw [leave_zero zero] at left
    cases left
  obtain ⟨h', released', left', shape⟩ := leave_cases positive
  obtain ⟨rfl, rfl⟩ := Prod.mk.inj (Except.ok.inj (left.symm.trans left'))
  rcases shape with ⟨one, rfl⟩ | ⟨rfl, lower, _, kept⟩
  · rw [leave_last one] at left
    obtain ⟨rfl, -⟩ := Prod.mk.inj (Except.ok.inj left)
    exact ⟨one.symm, List.append_nil _⟩
  · exact ⟨lower, kept⟩

theorem leave_error_iff {g : DispatchGroup β} {t : Trap} :
    g.leave = .error t ↔ g.count = 0 ∧ t = .unbalancedLeave := by
  constructor
  · intro h
    by_cases zero : g.count = 0
    · rw [leave_zero zero] at h
      exact ⟨zero, (Except.error.inj h).symm⟩
    · obtain ⟨g', released, left, _⟩ := leave_cases (Nat.pos_of_ne_zero zero)
      rw [left] at h
      cases h
  · rintro ⟨zero, rfl⟩
    exact leave_zero zero

theorem notify_zero {g : DispatchGroup β} (zero : g.count = 0) (b : β) : g.notify b = (g, [b]) :=
  dif_pos zero

theorem notify_released {g : DispatchGroup β} (positive : 0 < g.count) (b : β) :
    (g.notify b).2 = [] := by
  unfold notify
  rw [dif_neg (by omega)]

theorem notify_pending {g : DispatchGroup β} (positive : 0 < g.count) (b : β) :
    (g.notify b).1.pending = g.pending ++ [b] := by
  unfold notify
  rw [dif_neg (by omega)]

@[simp] theorem notify_count (g : DispatchGroup β) (b : β) : (g.notify b).1.count = g.count := by
  unfold notify
  split <;> rfl

end DispatchGroup

end Async
