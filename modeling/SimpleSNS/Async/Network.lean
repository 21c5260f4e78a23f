import SimpleSNS.Async.Program

/-!
Any number of calls of any programs of a family, all served by one service. Steps of different
calls interleave freely. What one call goes through in a run of the network is a run of that
call alone, so a fact about every run of one call holds of each call of the network.
-/

namespace Async

variable {ε κ : Type} {P : κ → Program ε} {W : Type}

/-- A service keeps its own state. `serve` says whether it may give this answer now, and what
state the answer leaves behind. -/
structure Service (P : κ → Program ε) (W : Type) where
  serve : W → (k : κ) → (r : (P k).Request) → (P k).Answer r → W → Prop

structure Job (P : κ → Program ε) where
  kind : κ
  call : Call (P kind)

/-- One call of a completion handler. -/
structure Completion (P : κ → Program ε) where
  index : Nat
  kind : κ
  report : (P kind).Report

structure Network (P : κ → Program ε) (W : Type) where
  world : W
  calls : List (Job P) := []
  log : List (Completion P) := []

namespace Service

/-- Only serving a request involves the service. -/
def Moves (S : Service P W) {k : κ} (w : W) : Call.Event (P k) → W → Prop
  | .serve r a, w' => S.serve w k r a w'
  | .deliver _ _, w' => w' = w
  | .block _, w' => w' = w

end Service

namespace Network

inductive Label (P : κ → Program ε) where
  | start (e : ε) (k : κ) (input : (P k).Input)
  | call (e : ε) (index : Nat) (k : κ) (ev : Call.Event (P k))

/-- What the step finds signed in. -/
def Label.session : Label P → ε
  | .start e _ _ => e
  | .call e _ _ _ => e

/-- The reports that a step added to a call, as completions of that call. -/
def completions (index : Nat) (k : κ) (reports : List (P k).Report) : List (Completion P) :=
  reports.map fun report => ⟨index, k, report⟩

def started (s : Network P W) (e : ε) (k : κ) (input : (P k).Input)
    (f : (P k).Frame) : Network P W :=
  { s with
    calls := s.calls ++ [⟨k, Call.init e input f⟩]
    log := s.log ++ completions s.calls.length k f.reported }

def moved (s : Network P W) (w : W) (index : Nat) {k : κ} (c c' : Call (P k)) : Network P W where
  world := w
  calls := s.calls.set index ⟨k, c'⟩
  log := s.log ++ completions index k (c'.reports.drop c.reports.length)

inductive Step (S : Service P W) : Network P W → Label P → Network P W → Prop where
  | start {s : Network P W} (e : ε) (k : κ) (input : (P k).Input) {f : (P k).Frame}
      (ran : (P k).start e input = .ok f) : Step S s (.start e k input) (s.started e k input f)
  | call {s : Network P W} {e : ε} {k : κ} {c c' : Call (P k)} {ev : Call.Event (P k)} {w : W}
      (index : Nat) (found : s.calls[index]? = some ⟨k, c⟩) (stepped : c.Step e ev c')
      (moves : S.Moves s.world ev w) : Step S s (.call e index k ev) (s.moved w index c c')

/-- Runs from `s₀` whose steps all satisfy `ok`. -/
inductive Run (S : Service P W) (ok : Network P W → Label P → Prop) (s₀ : Network P W) :
    Network P W → Prop where
  | refl : Run S ok s₀ s₀
  | step {s s' : Network P W} {l : Label P} (before : Run S ok s₀ s) (allowed : ok s l)
      (stepped : Step S s l s') : Run S ok s₀ s'

abbrev AnyLabel : Network P W → Label P → Prop := fun _ _ => True

/-- Runs from `s₀`, with the labels of their steps in order. -/
inductive Trace (S : Service P W) (s₀ : Network P W) : List (Label P) → Network P W → Prop where
  | refl : Trace S s₀ [] s₀
  | step {s s' : Network P W} {labels : List (Label P)} {l : Label P}
      (before : Trace S s₀ labels s) (stepped : Step S s l s') : Trace S s₀ (labels ++ [l]) s'

theorem Run.trans {S : Service P W} {ok : Network P W → Label P → Prop} {s₀ s₁ s₂ : Network P W}
    (first : Run S ok s₀ s₁) (second : Run S ok s₁ s₂) : Run S ok s₀ s₂ := by
  induction second with
  | refl => exact first
  | step _ allowed stepped ih => exact .step ih allowed stepped

/-- Traces whose steps all satisfy `ok`. -/
inductive Tracked (S : Service P W) (ok : Network P W → Label P → Prop) (s₀ : Network P W) :
    List (Label P) → Network P W → Prop
  | refl : Tracked S ok s₀ [] s₀
  | step {s s' : Network P W} {labels : List (Label P)} {l : Label P} (before : Tracked S ok s₀ labels s)
      (allowed : ok s l) (stepped : Step S s l s') : Tracked S ok s₀ (labels ++ [l]) s'

/-- An invariant of the network: what holds at first and is kept by every allowed step. -/
theorem Run.invariant {S : Service P W} {ok : Network P W → Label P → Prop} {s₀ s : Network P W}
    {I : Network P W → Prop} (run : Run S ok s₀ s) (initial : I s₀)
    (kept : ∀ s l s', I s → ok s l → Step S s l s' → I s') : I s := by
  induction run with
  | refl => exact initial
  | step _ allowed stepped ih => exact kept _ _ _ ih allowed stepped

/-! ### One call of the network -/

theorem job_inj {k : κ} {c d : Call (P k)} (h : (⟨k, c⟩ : Job P) = ⟨k, d⟩) : c = d := by
  cases h
  rfl

theorem concat_lookup {α : Type*} {l : List α} {x y : α} {i : Nat}
    (found : (l ++ [x])[i]? = some y) : l[i]? = some y ∨ i = l.length ∧ x = y := by
  rw [List.getElem?_append] at found
  split at found
  · exact Or.inl found
  · rename_i beyond
    obtain ⟨bound, value⟩ := List.getElem?_eq_some_iff.mp found
    rw [List.length_singleton] at bound
    exact Or.inr ⟨by omega, by simpa using value⟩

/-- When one call moved, every other call stands where it stood. -/
theorem moved_lookup {s : Network P W} {w : W} {i j : Nat} {k k' : κ} {c c' : Call (P k)}
    {d : Call (P k')} (found : s.calls[i]? = some ⟨k, c⟩)
    (look : (s.moved w i c c').calls[j]? = some ⟨k', d⟩) :
    (i = j ∧ (⟨k, c'⟩ : Job P) = ⟨k', d⟩) ∨ (i ≠ j ∧ s.calls[j]? = some ⟨k', d⟩) := by
  unfold moved at look
  by_cases same : i = j
  · subst same
    rw [List.getElem?_set_self (List.getElem?_eq_some_iff.mp found).1] at look
    exact Or.inl ⟨rfl, Option.some.inj look⟩
  · rw [List.getElem?_set_ne same] at look
    exact Or.inr ⟨same, look⟩

/-- A call found after a step is new, or the one that moved, or unchanged. -/
theorem step_lookup {S : Service P W} {s s' : Network P W} {l : Label P} (h : Step S s l s')
    {i : Nat} {k : κ} {c' : Call (P k)} (found : s'.calls[i]? = some ⟨k, c'⟩) :
    s.calls[i]? = some ⟨k, c'⟩ ∨
    (∃ e input f, l = .start e k input ∧ (P k).start e input = .ok f ∧ c' = Call.init e input f) ∨
    (∃ e ev c, l = .call e i k ev ∧ s.calls[i]? = some ⟨k, c⟩ ∧ c.Step e ev c') := by
  cases h with
  | start e k input ran =>
    rcases concat_lookup found with old | ⟨_, same⟩
    · exact Or.inl old
    · cases same
      exact Or.inr (Or.inl ⟨e, input, _, rfl, ran, rfl⟩)
  | @call e k c d ev w index before stepped moves =>
    simp only [moved] at found
    by_cases same : index = i
    · subst same
      rw [List.getElem?_set_self (List.getElem?_eq_some_iff.mp before).1] at found
      cases Option.some.inj found
      exact Or.inr (Or.inr ⟨e, ev, c, rfl, before, stepped⟩)
    · rw [List.getElem?_set_ne same] at found
      exact Or.inl found

theorem Run.call_reachable {S : Service P W} {ok : Network P W → Label P → Prop}
    {s₀ s : Network P W} {k : κ} {A : ε → Call (P k) → Call.Event (P k) → Prop}
    (empty : s₀.calls = []) (run : Run S ok s₀ s)
    (allows : ∀ s e i c ev, ok s (.call e i k ev) → s.calls[i]? = some ⟨k, c⟩ → A e c ev)
    {i : Nat} {c : Call (P k)} (found : s.calls[i]? = some ⟨k, c⟩) : c.Reachable A := by
  induction run generalizing c with
  | refl => simp [empty] at found
  | step _ allowed stepped ih =>
    rcases step_lookup stepped found with old | ⟨e, input, f, _, ran, rfl⟩ | ⟨e, ev, c₀, rfl, before, moved⟩
    · exact ih old
    · exact .start ran
    · exact .step (ih before) (allows _ _ _ _ _ allowed before) moved

/-- What every start asks of its input holds of the input of each call. -/
theorem Run.call_input {S : Service P W} {ok : Network P W → Label P → Prop} {s₀ s : Network P W}
    {I : (k : κ) → (P k).Input → Prop} (empty : s₀.calls = []) (run : Run S ok s₀ s)
    (starts : ∀ s e k input, ok s (.start e k input) → I k input) {i : Nat} {k : κ} {c : Call (P k)}
    (found : s.calls[i]? = some ⟨k, c⟩) : I k c.input := by
  induction run generalizing c with
  | refl => simp [empty] at found
  | step _ allowed stepped ih =>
    rcases step_lookup stepped found with old | ⟨e, input, f, rfl, _, rfl⟩ | ⟨_, _, c₀, _, before, moved⟩
    · exact ih old
    · exact starts _ _ _ _ allowed
    · rw [moved.input]
      exact ih before

/-- The number of calls never shrinks, and a call keeps its index and its kind. -/
theorem step_keeps {S : Service P W} {s s' : Network P W} {l : Label P} (h : Step S s l s')
    {i : Nat} {k : κ} {c : Call (P k)} (found : s.calls[i]? = some ⟨k, c⟩) :
    ∃ c' : Call (P k), s'.calls[i]? = some ⟨k, c'⟩ := by
  cases h with
  | start e k' input ran =>
    have bound := (List.getElem?_eq_some_iff.mp found).1
    exact ⟨c, by simpa only [started, List.getElem?_append_left bound] using found⟩
  | @call e k' d d' ev w index before stepped moves =>
    by_cases same : index = i
    · subst same
      rw [before] at found
      cases Option.some.inj found
      exact ⟨d', List.getElem?_set_self (List.getElem?_eq_some_iff.mp before).1⟩
    · exact ⟨c, by simpa only [moved, List.getElem?_set_ne same] using found⟩

/-- A call keeps the answers it was given and the input it was started with. -/
theorem Run.call_keeps {S : Service P W} {ok : Network P W → Label P → Prop} {s₀ s : Network P W}
    (run : Run S ok s₀ s) {i : Nat} {k : κ} {c : Call (P k)} (found : s₀.calls[i]? = some ⟨k, c⟩) :
    ∃ c' : Call (P k), s.calls[i]? = some ⟨k, c'⟩ ∧ c'.input = c.input ∧
      ∀ x ∈ c.answers, x ∈ c'.answers := by
  induction run with
  | refl => exact ⟨c, found, rfl, fun _ given => given⟩
  | step _ _ stepped ih =>
    obtain ⟨c₁, before, same_input, grown⟩ := ih
    obtain ⟨c₂, after⟩ := step_keeps stepped before
    rcases step_lookup stepped after with old | ⟨e, input, f, rfl, ran, _⟩ | ⟨e, ev, c₀, _, old, moved⟩
    · rw [before] at old
      cases old
      exact ⟨c₁, after, same_input, grown⟩
    · cases stepped
      have bound := (List.getElem?_eq_some_iff.mp before).1
      rw [started, List.getElem?_append_left bound, before] at after
      cases after
      exact ⟨c₁, (List.getElem?_append_left bound).trans before, same_input, grown⟩
    · rw [before] at old
      cases old
      exact ⟨c₂, after, moved.input.trans same_input, fun x given => moved.answers_grow (grown x given)⟩

end Network

end Async
