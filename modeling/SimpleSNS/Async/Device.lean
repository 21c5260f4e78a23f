import SimpleSNS.Async.Network

/-!
One device: the calls of a network share the session and one first-in first-out main queue.
The queue is kept as the order of the call indices; the block itself is the next one of that
call. Every run of a device is a run of its network, and a drained main queue leaves no call
with a queued block.
-/

namespace Async

variable {ε κ : Type} {P : κ → Program ε} {W : Type}

structure Device (P : κ → Program ε) (W : Type) where
  network : Network P W
  session : ε
  order : List Nat := []

namespace Device
open Network

/-- A device on which nothing has been called. -/
def boot (w : W) (e : ε) : Device P W where
  network := { world := w }
  session := e

/-- The blocks a step put on the queue of one call. -/
def added {P : Program ε} (c c' : Call P) : Call.Event P → Nat
  | .block _ => c'.queue.length + 1 - c.queue.length
  | _ => c'.queue.length - c.queue.length

inductive Step (S : Service P W) : Device P W → Option (Label P) → Device P W → Prop where
  | session {d : Device P W} (e : ε) : Step S d none { d with session := e }
  | start {d : Device P W} (k : κ) (input : (P k).Input) {f : (P k).Frame}
      (ran : (P k).start d.session input = .ok f) :
      Step S d (some (.start d.session k input))
        { d with
          network := d.network.started d.session k input f
          order := d.order ++ List.replicate f.queued.length d.network.calls.length }
  | callback {d : Device P W} {k : κ} {c c' : Call (P k)} {ev : Call.Event (P k)} {w : W}
      (index : Nat) (found : d.network.calls[index]? = some ⟨k, c⟩)
      (stepped : c.Step d.session ev c') (moves : S.Moves d.network.world ev w)
      (network : ∀ b, ev ≠ .block b) :
      Step S d (some (.call d.session index k ev))
        { d with
          network := d.network.moved w index c c'
          order := d.order ++ List.replicate (added c c' ev) index }
  | block {d : Device P W} {k : κ} {c c' : Call (P k)} {b : (P k).Block}
      (index : Nat) (rest : List Nat) (head : d.order = index :: rest)
      (found : d.network.calls[index]? = some ⟨k, c⟩) (stepped : c.Step d.session (.block b) c') :
      Step S d (some (.call d.session index k (.block b)))
        { d with
          network := d.network.moved d.network.world index c c'
          order := rest ++ List.replicate (added c c' (.block b)) index }

inductive Run (S : Service P W) (ok : Network P W → Label P → Prop) (d₀ : Device P W) :
    Device P W → Prop where
  | refl : Run S ok d₀ d₀
  | step {d d' : Device P W} {l : Option (Label P)} (before : Run S ok d₀ d)
      (allowed : ∀ x, l = some x → ok d.network x) (stepped : Step S d l d') : Run S ok d₀ d'

theorem step_network {S : Service P W} {d d' : Device P W} {l : Label P}
    (h : Step S d (some l) d') : Network.Step S d.network l d'.network := by
  cases h with
  | start k input ran => exact .start _ k input ran
  | callback index found stepped moves _ => exact .call index found stepped moves
  | block index rest head found stepped => exact .call index found stepped rfl

theorem Run.network {S : Service P W} {ok : Network P W → Label P → Prop} {d₀ d : Device P W}
    (run : Run S ok d₀ d) : Network.Run S ok d₀.network d.network := by
  induction run with
  | refl => exact .refl
  | @step d d' l _ allowed stepped ih =>
    cases l with
    | none => cases stepped; exact ih
    | some l => exact .step ih (allowed l rfl) (step_network stepped)

/-- The main queue holds, for each call, as many places as the call has blocks. -/
def Counted (d : Device P W) : Prop :=
  ∀ i k (c : Call (P k)), d.network.calls[i]? = some ⟨k, c⟩ → d.order.count i = c.queue.length

def InRange (d : Device P W) : Prop := ∀ i ∈ d.order, i < d.network.calls.length

theorem inside_append_replicate {l : List Nat} {n i bound : Nat} (range : ∀ j ∈ l, j < bound)
    (inside : i < bound) : ∀ j ∈ l ++ List.replicate n i, j < bound := by
  intro j member
  rcases List.mem_append.mp member with old | new
  · exact range j old
  · rw [List.eq_of_mem_replicate new]
    exact inside

theorem count_append_replicate {l : List Nat} {n i j : Nat} :
    (l ++ List.replicate n i).count j = l.count j + if i = j then n else 0 := by
  simp [List.count_append, List.count_replicate]

theorem step_queue {P : Program ε} {e : ε} {c c' : Call P} {ev : Call.Event P}
    (h : c.Step e ev c') :
    c'.queue.length = c.queue.length + added c c' ev - (match ev with | .block _ => 1 | _ => 0) ∧
      (∀ b, ev = .block b → 0 < c.queue.length) := by
  cases h with
  | serve a sent => simp [added, Call.served]
  | deliver arrived ran => simp [added, Call.took]
  | block next ran => simp [added, Call.popped, next]

theorem step_counted {S : Service P W} {d d' : Device P W} {l : Option (Label P)}
    (h : Step S d l d') (range : InRange d) (counted : Counted d) : InRange d' ∧ Counted d' := by
  cases h with
  | session e => exact ⟨range, counted⟩
  | @start k input f ran =>
    have total : (d.network.started d.session k input f).calls.length = d.network.calls.length + 1 := by
      simp [started]
    refine ⟨?_, ?_⟩
    · unfold InRange
      rw [total]
      exact inside_append_replicate (fun i member => Nat.lt_succ_of_lt (range i member)) (Nat.lt_succ_self _)
    · intro i k' c found
      rcases concat_lookup found with old | ⟨rfl, same⟩
      · have bound := (List.getElem?_eq_some_iff.mp old).1
        rw [count_append_replicate, if_neg (by omega), Nat.add_zero]
        exact counted i k' c old
      · cases same
        have absent : d.order.count d.network.calls.length = 0 :=
          List.count_eq_zero.mpr fun member => Nat.lt_irrefl _ (range _ member)
        rw [count_append_replicate, if_pos rfl, absent, Nat.zero_add]
        rfl
  | @callback k c c' ev w index found stepped moves network =>
    have total : (d.network.moved w index c c').calls.length = d.network.calls.length := by
      simp [moved]
    have grown := (step_queue stepped).1
    refine ⟨?_, ?_⟩
    · unfold InRange
      rw [total]
      exact inside_append_replicate range (List.getElem?_eq_some_iff.mp found).1
    · intro i k' x look
      rw [count_append_replicate]
      by_cases same : index = i
      · subst same
        simp only [moved, List.getElem?_set_self (List.getElem?_eq_some_iff.mp found).1] at look
        cases Option.some.inj look
        rw [if_pos rfl, counted index k c found]
        cases ev with
        | block b => exact absurd rfl (network b)
        | serve r a => simpa using grown.symm
        | deliver r a => simpa using grown.symm
      · simp only [moved, List.getElem?_set_ne same] at look
        rw [if_neg same, Nat.add_zero]
        exact counted i k' x look
  | @block k c c' b index rest head found stepped =>
    have total : (d.network.moved d.network.world index c c').calls.length = d.network.calls.length := by
      simp [moved]
    obtain ⟨grown, positive⟩ := step_queue stepped
    have nonempty := positive b rfl
    refine ⟨?_, ?_⟩
    · unfold InRange
      rw [total]
      have left : ∀ i ∈ rest, i < d.network.calls.length := by
        intro i member
        apply range
        rw [head]
        exact List.mem_cons_of_mem _ member
      exact inside_append_replicate left (List.getElem?_eq_some_iff.mp found).1
    · intro i k' x look
      rw [count_append_replicate]
      by_cases same : index = i
      · subst same
        simp only [moved, List.getElem?_set_self (List.getElem?_eq_some_iff.mp found).1] at look
        cases Option.some.inj look
        have places := counted index k c found
        rw [head, List.count_cons_self] at places
        rw [if_pos rfl, grown]
        simp only
        omega
      · simp only [moved, List.getElem?_set_ne same] at look
        have places := counted i k' x look
        rw [head, List.count_cons_of_ne same] at places
        rw [if_neg same, Nat.add_zero, places]

/-- Once the main queue of a device has drained, no call has a block left to run. -/
theorem Run.drained {S : Service P W} {ok : Network P W → Label P → Prop} {d : Device P W}
    {w : W} {e : ε} (run : Run S ok (boot w e) d) (done : d.order = []) {i : Nat} {k : κ} {c : Call (P k)}
    (found : d.network.calls[i]? = some ⟨k, c⟩) : c.queue = [] := by
  have kept : InRange d ∧ Counted d := by
    clear done found
    induction run with
    | refl => exact ⟨by simp [InRange, boot], by intro i k c found; simp [boot] at found⟩
    | step _ _ stepped ih => exact step_counted stepped ih.1 ih.2
  have places := kept.2 i k c found
  rw [done] at places
  exact List.length_eq_zero_iff.mp places.symm

theorem Run.call_reachable {S : Service P W} {ok : Network P W → Label P → Prop} {d : Device P W}
    {w : W} {e : ε} {k : κ} {A : ε → Call (P k) → Call.Event (P k) → Prop}
    (run : Run S ok (boot w e) d)
    (allows : ∀ s e i c ev, ok s (.call e i k ev) → s.calls[i]? = some ⟨k, c⟩ → A e c ev)
    {i : Nat} {c : Call (P k)} (found : d.network.calls[i]? = some ⟨k, c⟩) : c.Reachable A :=
  Network.Run.call_reachable rfl run.network allows found

end Device

end Async
