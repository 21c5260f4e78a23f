import SimpleSNS.Async.Device

/-!
Running a device by hand. A schedule picks requests and replies by their position and names
the behaviour of the service at each serving; what it computes is a run of the device.
-/

namespace Async

variable {ε κ : Type} {P : κ → Program ε} {W : Type}

/-- One behaviour among those that a service permits. -/
structure Policy (S : Service P W) where
  answer : W → (k : κ) → (r : (P k).Request) → (P k).Answer r × W
  permitted : ∀ w k r, S.serve w k r (answer w k r).1 (answer w k r).2

namespace Call

variable {P : Program ε}

def serveAt (c : Call P) (n : Nat) (answer : ∀ r, P.Answer r) :
    Option ((_ : P.Request) × Call P) :=
  match c.waiting[n]? with
  | some r => some ⟨r, c.served (c.waiting.eraseIdx n) r (answer r)⟩
  | none => none

def deliverAt (e : ε) (c : Call P) (n : Nat) : Option (Event P × Call P) :=
  match c.replies[n]? with
  | some ⟨r, a⟩ =>
    match P.reply e c.vars r a with
    | .ok f => some (.deliver r a, (c.took (c.replies.eraseIdx n) r a).absorb f)
    | .error _ => none
  | none => none

def runBlock (e : ε) (c : Call P) : Option (P.Block × Call P) :=
  match c.queue with
  | b :: rest =>
    match P.block e c.vars b with
    | .ok f => some (b, (c.popped rest).absorb f)
    | .error _ => none
  | [] => none

theorem getElem?_perm {α : Type} {l : List α} {n : Nat} {x : α} (found : l[n]? = some x) :
    l.Perm (x :: l.eraseIdx n) := by
  obtain ⟨bound, rfl⟩ := List.getElem?_eq_some_iff.mp found
  exact (List.getElem_cons_eraseIdx_perm bound).symm

theorem serveAt_step {e : ε} {c c' : Call P} {n : Nat} {answer : ∀ r, P.Answer r}
    {r : P.Request} (h : c.serveAt n answer = some ⟨r, c'⟩) :
    c.Step e (.serve r (answer r)) c' := by
  unfold serveAt at h
  split at h
  · rename_i r' found
    cases h
    exact .serve _ (getElem?_perm found)
  · cases h

theorem deliverAt_step {e : ε} {c c' : Call P} {n : Nat} {ev : Event P}
    (h : c.deliverAt e n = some (ev, c')) :
    c.Step e ev c' ∧ ∃ r a, ev = .deliver r a := by
  unfold deliverAt at h
  split at h
  · rename_i r a found
    split at h
    · rename_i f ran
      cases h
      exact ⟨.deliver (getElem?_perm found) ran, r, a, rfl⟩
    · cases h
  · cases h

theorem runBlock_step {e : ε} {c c' : Call P} {b : P.Block}
    (h : c.runBlock e = some (b, c')) : c.Step e (.block b) c' := by
  unfold runBlock at h
  split at h
  · rename_i first rest next
    split at h
    · rename_i f ran
      cases h
      exact .block next ran
    · cases h
  · cases h

end Call

namespace Device
open Network

inductive Choice (S : Service P W) where
  | session (e : ε)
  | start (k : κ) (input : (P k).Input)
  | serve (index n : Nat) (policy : Policy S)
  | deliver (index n : Nat)
  | block

/-- What a choice does, with the label of its step; nothing when it is not possible. -/
def next? {S : Service P W} (d : Device P W) : Choice S → Option (Option (Label P) × Device P W)
  | .session e => some (none, { d with session := e })
  | .start k input =>
    match (P k).start d.session input with
    | .ok f => some (some (.start d.session k input), { d with
        network := d.network.started d.session k input f
        order := d.order ++ List.replicate f.queued.length d.network.calls.length })
    | .error _ => none
  | .serve index n policy =>
    match d.network.calls[index]? with
    | some ⟨k, c⟩ =>
      match c.serveAt n (fun r => (policy.answer d.network.world k r).1) with
      | some ⟨r, c'⟩ =>
        let served := policy.answer d.network.world k r
        some (some (.call d.session index k (.serve r served.1)), { d with
          network := d.network.moved served.2 index c c'
          order := d.order ++ List.replicate (added c c' (.serve r served.1)) index })
      | none => none
    | none => none
  | .deliver index n =>
    match d.network.calls[index]? with
    | some ⟨k, c⟩ =>
      match c.deliverAt d.session n with
      | some (ev, c') => some (some (.call d.session index k ev), { d with
          network := d.network.moved d.network.world index c c'
          order := d.order ++ List.replicate (added c c' ev) index })
      | none => none
    | none => none
  | .block =>
    match d.order with
    | index :: rest =>
      match d.network.calls[index]? with
      | some ⟨k, c⟩ =>
        match c.runBlock d.session with
        | some (b, c') => some (some (.call d.session index k (.block b)), { d with
            network := d.network.moved d.network.world index c c'
            order := rest ++ List.replicate (added c c' (.block b)) index })
        | none => none
      | none => none
    | [] => none

theorem next?_step {S : Service P W} {d d' : Device P W} {choice : Choice S}
    {l : Option (Label P)} (h : d.next? choice = some (l, d')) : Step S d l d' := by
  cases choice with
  | session e =>
    cases h
    exact .session e
  | start k input =>
    simp only [next?] at h
    split at h
    · rename_i f ran
      cases h
      exact .start k input ran
    · cases h
  | serve index n policy =>
    simp only [next?] at h
    split at h
    · rename_i k c found
      split at h
      · rename_i r c' taken
        cases h
        exact .callback index found (Call.serveAt_step taken) (policy.permitted _ _ _) (fun _ => nofun)
      · cases h
    · cases h
  | deliver index n =>
    simp only [next?] at h
    split at h
    · rename_i k c found
      split at h
      · rename_i ev c' taken
        cases h
        obtain ⟨stepped, r, a, rfl⟩ := Call.deliverAt_step taken
        exact .callback index found stepped rfl (fun _ => nofun)
      · cases h
    · cases h
  | block =>
    simp only [next?] at h
    split at h
    · rename_i index rest head
      split at h
      · rename_i k c found
        split at h
        · rename_i b c' taken
          cases h
          exact .block index rest head found (Call.runBlock_step taken)
        · cases h
      · cases h
    · cases h

/-- Runs a schedule whose every step satisfies `ok`. -/
def exec {S : Service P W} (ok : Network P W → Label P → Prop) [∀ s l, Decidable (ok s l)]
    (d : Device P W) : List (Choice S) → Option (Device P W)
  | [] => some d
  | choice :: rest =>
    match d.next? choice with
    | some (none, d') => exec ok d' rest
    | some (some l, d') => if ok d.network l then exec ok d' rest else none
    | none => none

theorem exec_run_from {S : Service P W} {ok : Network P W → Label P → Prop}
    [∀ s l, Decidable (ok s l)] {d₀ d d' : Device P W} {choices : List (Choice S)}
    (before : Run S ok d₀ d) (h : d.exec ok choices = some d') : Run S ok d₀ d' := by
  induction choices generalizing d with
  | nil =>
    cases h
    exact before
  | cons choice rest ih =>
    simp only [exec] at h
    split at h
    · rename_i d₁ taken
      refine ih (before.step ?_ (next?_step taken)) h
      intro x same
      cases same
    · rename_i l d₁ taken
      split at h
      · rename_i allowed
        refine ih (before.step ?_ (next?_step taken)) h
        intro x same
        cases same
        exact allowed
      · cases h
    · cases h

theorem exec_run {S : Service P W} {ok : Network P W → Label P → Prop}
    [∀ s l, Decidable (ok s l)] {d d' : Device P W} {choices : List (Choice S)}
    (h : d.exec ok choices = some d') : Run S ok d d' := exec_run_from .refl h

/-- The job is a finished call of `k` whose reports pass a test. -/
def ended [DecidableEq κ] (k : κ) (test : List (P k).Report → Bool) (job : Job P) : Bool :=
  if same : job.kind = k then
    let c : Call (P k) := same ▸ job.call
    c.outstanding.isEmpty && c.queue.isEmpty && test c.reports
  else false

end Device

end Async
