import SimpleSNS.Async.DispatchGroup

/-!
A system that reacts to one event at a time. A reaction may stop the program, and the
environment may only raise the events that the state enables.
-/

namespace Async

structure Machine (σ ι : Type) where
  enabled : σ → ι → Prop
  react : σ → ι → Except Trap σ

namespace Machine

variable {σ ι : Type} {M : Machine σ ι}

/-- Runs from `s₀` whose events all satisfy `ok` in the state that they meet. -/
inductive Run (M : Machine σ ι) (ok : σ → ι → Prop) (s₀ : σ) : σ → Prop where
  | refl : Run M ok s₀ s₀
  | step {s s' : σ} {i : ι} (before : Run M ok s₀ s) (possible : M.enabled s i) (allowed : ok s i)
      (ran : M.react s i = .ok s') : Run M ok s₀ s'

abbrev AnyEvent : σ → ι → Prop := fun _ _ => True

theorem Run.trans {ok : σ → ι → Prop} {s₀ s₁ s₂ : σ} (first : Run M ok s₀ s₁)
    (second : Run M ok s₁ s₂) : Run M ok s₀ s₂ := by
  induction second with
  | refl => exact first
  | step _ possible allowed ran ih => exact .step ih possible allowed ran

theorem Run.weaken {ok ok' : σ → ι → Prop} {s₀ s : σ} (run : Run M ok s₀ s)
    (sub : ∀ s i, ok s i → ok' s i) : Run M ok' s₀ s := by
  induction run with
  | refl => exact .refl
  | step _ possible allowed ran ih => exact .step ih possible (sub _ _ allowed) ran

theorem Run.invariant {ok : σ → ι → Prop} {I : σ → Prop} {s₀ s : σ} (run : Run M ok s₀ s)
    (initial : I s₀)
    (kept : ∀ s i s', I s → M.enabled s i → ok s i → M.react s i = .ok s' → I s') : I s := by
  induction run with
  | refl => exact initial
  | step _ possible allowed ran ih => exact kept _ _ _ ih possible allowed ran

/-- Runs from `s₀`, with their events in order. -/
inductive Trace (M : Machine σ ι) (s₀ : σ) : List ι → σ → Prop where
  | refl : Trace M s₀ [] s₀
  | step {s s' : σ} {events : List ι} {i : ι} (before : Trace M s₀ events s) (possible : M.enabled s i)
      (ran : M.react s i = .ok s') : Trace M s₀ (events ++ [i]) s'

theorem Trace.invariant {I : List ι → σ → Prop} {s₀ s : σ} {events : List ι} (trace : Trace M s₀ events s)
    (initial : I [] s₀)
    (kept : ∀ events s i s', I events s → M.enabled s i → M.react s i = .ok s' → I (events ++ [i]) s') :
    I events s := by
  induction trace with
  | refl => exact initial
  | step _ possible ran ih => exact kept _ _ _ _ ih possible ran

/-! ### Running by hand -/

def exec (M : Machine σ ι) (ok : σ → ι → Prop) [∀ s i, Decidable (M.enabled s i)]
    [∀ s i, Decidable (ok s i)] (s : σ) : List ι → Option σ
  | [] => some s
  | i :: rest =>
    if M.enabled s i ∧ ok s i then
      match M.react s i with
      | .ok s' => exec M ok s' rest
      | .error _ => none
    else none

theorem exec_run_from {ok : σ → ι → Prop} [∀ s i, Decidable (M.enabled s i)]
    [∀ s i, Decidable (ok s i)] {events : List ι} {s₀ s s' : σ} (before : Run M ok s₀ s)
    (h : exec M ok s events = some s') : Run M ok s₀ s' := by
  induction events generalizing s with
  | nil =>
    cases h
    exact before
  | cons i rest ih =>
    unfold exec at h
    split at h
    · rename_i both
      split at h
      · rename_i next ran
        exact ih (before.step both.1 both.2 ran) h
      · cases h
    · cases h

theorem exec_run {ok : σ → ι → Prop} [∀ s i, Decidable (M.enabled s i)]
    [∀ s i, Decidable (ok s i)] {events : List ι} {s s' : σ}
    (h : exec M ok s events = some s') : Run M ok s s' := exec_run_from .refl h

end Machine

end Async
