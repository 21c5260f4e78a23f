import Mathlib.Data.List.Induction
import SimpleSNS.Async.Network

/-!
Looking back over a run. Every answer of a call was given at one moment of the run, by the service
as it stood then. A service whose states represent abstract ones performs a command of the abstract
system with each request that it serves, or leaves the abstract state alone.
-/

namespace Async

variable {ε κ : Type} {P : κ → Program ε} {W : Type} {S : Service P W}

/-! ### The moment of an answer -/

theorem Call.Step.answers_new {P : Program ε} {e : ε} {c c' : Call P} {ev : Call.Event P}
    (h : c.Step e ev c') {r : P.Request} {a : P.Answer r} (given : ⟨r, a⟩ ∈ c'.answers) :
    ⟨r, a⟩ ∈ c.answers ∨ ev = .serve r a := by
  cases h with
  | serve b sent =>
    rcases List.mem_cons.mp given with same | old
    · cases same
      exact Or.inr rfl
    · exact Or.inl old
  | deliver arrived ran => exact Or.inl ((Call.answers_took arrived).mem_iff.mp given)
  | block next ran => exact Or.inl given

/-- What holds of the one session a call started in was asked of the session of the start. -/
theorem Call.Reachable.of_start {P : Program ε} {B : ε → ε → Call.Event P → Prop} {c : Call P}
    (h : c.Reachable fun e _ ev => B c.startedIn e ev) :
    c.Reachable fun e c ev => B c.startedIn e ev := by
  have from_session : ∀ {e₀ : ε} {c : Call P}, c.Reachable (fun e _ ev => B e₀ e ev) →
      c.startedIn = e₀ → c.Reachable fun e c ev => B c.startedIn e ev := by
    intro e₀ c reached
    induction reached with
    | start ran => exact fun _ => .start ran
    | step _ allowed stepped ih =>
      intro same
      have same_before := stepped.startedIn.symm.trans same
      rw [← same_before] at allowed
      exact .step (ih same_before) allowed stepped
  exact from_session h rfl

/-- Where a request of `c` came from, when its steps all satisfied `A`. -/
inductive Call.Sent {P : Program ε} (A : ε → Call.Event P → Prop) (c : Call P) (r : P.Request) : Prop where
  | start {f : P.Frame} (ran : P.start c.startedIn c.input = .ok f) (sent : r ∈ f.sent) : Call.Sent A c r
  | reply {e : ε} {v : P.Vars} {q : P.Request} {a : P.Answer q} {f : P.Frame} (took : A e (.deliver q a))
      (given : ⟨q, a⟩ ∈ c.answers) (ran : P.reply e v q a = .ok f) (sent : r ∈ f.sent) : Call.Sent A c r
  | block {e : ε} {v : P.Vars} {b : P.Block} {f : P.Frame} (took : A e (.block b))
      (ran : P.block e v b = .ok f) (sent : r ∈ f.sent) : Call.Sent A c r

theorem Call.Sent.later {P : Program ε} {A : ε → Call.Event P → Prop} {c c' : Call P} {r : P.Request}
    (sent : c.Sent A r) {e : ε} {ev : Call.Event P} (stepped : c.Step e ev c') : c'.Sent A r := by
  cases sent with
  | start ran sent => exact .start (by rwa [stepped.startedIn, stepped.input]) sent
  | reply took given ran sent => exact .reply took (stepped.answers_grow given) ran sent
  | block took ran sent => exact .block took ran sent

theorem Call.Reachable.sent {P : Program ε} {A : ε → Call.Event P → Prop} {c : Call P}
    (reached : c.Reachable fun e _ ev => A e ev) {r : P.Request} (asked : r ∈ c.requests) :
    c.Sent A r := by
  induction reached with
  | @start e input f ran =>
    refine .start ran ?_
    rcases List.mem_append.mp asked with outstanding | impossible
    · exact (List.mem_append.mp outstanding).resolve_right List.not_mem_nil
    · cases impossible
  | @step c c' e ev _ took stepped ih =>
    cases stepped with
    | serve a sent => exact (ih ((Call.requests_served a sent).mem_iff.mp asked)).later (.serve (e := e) a sent)
    | @deliver q a rest f arrived ran =>
      rcases List.mem_append.mp ((Call.deliver_requests arrived f).mem_iff.mp asked) with old | new
      · exact (ih old).later (.deliver arrived ran)
      · have given : ⟨q, a⟩ ∈ ((c.took rest q a).absorb f).answers :=
          List.mem_append_right _ (List.mem_append_right _ List.mem_cons_self)
        exact .reply took given ran new
    | @block b rest f next ran =>
      rcases List.mem_append.mp ((Call.requests_absorb (c.popped rest) f).mem_iff.mp asked) with old | new
      · exact (ih old).later (.block next ran)
      · exact .block took ran new

namespace Network

/-- The steps of one call, as the run took them. -/
theorem Trace.call_reachable_where {s₀ s : Network P W} {labels : List (Label P)}
    (trace : Trace S s₀ labels s) (empty : s₀.calls = []) {i : Nat} {k : κ}
    {A : ε → Call (P k) → Call.Event (P k) → Prop}
    (allows : ∀ e ev c, .call e i k ev ∈ labels → A e c ev) {c : Call (P k)}
    (found : s.calls[i]? = some ⟨k, c⟩) : c.Reachable A := by
  induction trace generalizing c with
  | refl => simp [empty] at found
  | @step s s' labels l earlier stepped ih =>
    have before := @ih fun e ev c member => allows e ev c (List.mem_append_left _ member)
    rcases step_lookup stepped found with old | ⟨e, input, f, _, ran, rfl⟩ | ⟨e, ev, c₀, rfl, at_i, moved⟩
    · exact before old
    · exact .start ran
    · exact .step (before at_i) (allows e ev c₀ (List.mem_append_right _ List.mem_cons_self)) moved

theorem Trace.call_reachable {s₀ s : Network P W} {labels : List (Label P)}
    (trace : Trace S s₀ labels s) (empty : s₀.calls = []) {i : Nat} {k : κ} {c : Call (P k)}
    (found : s.calls[i]? = some ⟨k, c⟩) : c.Reachable Call.AnyStep :=
  trace.call_reachable_where empty (fun _ _ _ _ => trivial) found

/-- What each step of a call keeps, the call keeps along a run. -/
theorem Run.call_stays {ok : Network P W → Label P → Prop} {s₀ s : Network P W} (run : Run S ok s₀ s)
    {i : Nat} {k : κ} {c : Call (P k)} (found : s₀.calls[i]? = some ⟨k, c⟩) {Q : Call (P k) → Prop}
    (holds : Q c) (kept : ∀ (c c' : Call (P k)) e ev, Q c → c.Step e ev c' → Q c') :
    ∃ c' : Call (P k), s.calls[i]? = some ⟨k, c'⟩ ∧ Q c' := by
  induction run with
  | refl => exact ⟨c, found, holds⟩
  | step _ _ stepped ih =>
    obtain ⟨c₁, at_i, holds₁⟩ := ih
    cases stepped with
    | start e k' input ran =>
      have bound := (List.getElem?_eq_some_iff.mp at_i).1
      exact ⟨c₁, (List.getElem?_append_left bound).trans at_i, holds₁⟩
    | @call e k' d d' ev w index before moved moves =>
      by_cases same : index = i
      · subst same
        rw [before] at at_i
        cases at_i
        exact ⟨d', List.getElem?_set_self (List.getElem?_eq_some_iff.mp before).1, kept _ _ _ _ holds₁ moved⟩
      · exact ⟨c₁, (List.getElem?_set_ne same).trans at_i, holds₁⟩

/-- After the steps `before` the run stood at `mid`, and the next step answered `r` with `a`. -/
structure Moment (S : Service P W) (s₀ : Network P W) (labels : List (Label P)) (s : Network P W)
    (i : Nat) {k : κ} (r : (P k).Request) (a : (P k).Answer r) (before : List (Label P))
    (mid : Network P W) : Prop where
  next : ∃ e rest, labels = before ++ .call e i k (.serve r a) :: rest
  stood : Trace S s₀ before mid
  waiting : ∃ c : Call (P k), mid.calls[i]? = some ⟨k, c⟩ ∧ r ∈ c.waiting
  served : ∃ w, S.serve mid.world k r a w
  later : Run S AnyLabel mid s

theorem Moment.part {s₀ s mid : Network P W} {labels before : List (Label P)} {i : Nat} {k : κ}
    {r : (P k).Request} {a : (P k).Answer r} (moment : Moment S s₀ labels s i r a before mid) :
    before <+: labels := by
  obtain ⟨e, rest, split⟩ := moment.next
  exact ⟨_, split.symm⟩

/-- No answer comes from nowhere. -/
theorem Trace.moment {s₀ s : Network P W} {labels : List (Label P)} (trace : Trace S s₀ labels s)
    (empty : s₀.calls = []) {i : Nat} {k : κ} {c : Call (P k)} (found : s.calls[i]? = some ⟨k, c⟩)
    {r : (P k).Request} {a : (P k).Answer r} (given : ⟨r, a⟩ ∈ c.answers) :
    ∃ before mid, Moment S s₀ labels s i r a before mid := by
  induction trace generalizing c with
  | refl => simp [empty] at found
  | @step s s' labels l earlier stepped ih =>
    have kept : ∀ {c₀ : Call (P k)}, s.calls[i]? = some ⟨k, c₀⟩ → ⟨r, a⟩ ∈ c₀.answers →
        ∃ before mid, Moment S s₀ (labels ++ [l]) s' i r a before mid := by
      intro c₀ old given_before
      obtain ⟨before, mid, moment⟩ := ih old given_before
      obtain ⟨e, rest, split⟩ := moment.next
      refine ⟨before, mid, ⟨e, rest ++ [l], ?_⟩, moment.stood, moment.waiting, moment.served,
        moment.later.step trivial stepped⟩
      rw [split, List.append_assoc, List.cons_append]
    cases stepped with
    | start e k' input ran =>
      rcases concat_lookup found with old | ⟨_, same⟩
      · exact kept old given
      · cases same
        cases given
    | @call e k' d d' ev w index at_index moved moves =>
      rcases moved_lookup at_index found with ⟨rfl, same⟩ | ⟨_, old⟩
      · cases same
        rcases moved.answers_new given with before | rfl
        · exact kept at_index before
        · have waiting : r ∈ d.waiting := by
            cases moved with
            | serve a sent => exact sent.mem_iff.mpr List.mem_cons_self
          exact ⟨labels, s, ⟨e, [], rfl⟩, earlier, ⟨d, at_index, waiting⟩, ⟨w, moves⟩,
            .step .refl trivial (.call index at_index moved moves)⟩
      · exact kept old given

/-- An answer that was given stays with its call. -/
theorem Trace.served_answer {s₀ s : Network P W} {labels : List (Label P)} (trace : Trace S s₀ labels s)
    {e : ε} {i : Nat} {k : κ} {r : (P k).Request} {a : (P k).Answer r}
    (served : .call e i k (.serve r a) ∈ labels) :
    ∃ c : Call (P k), s.calls[i]? = some ⟨k, c⟩ ∧ ⟨r, a⟩ ∈ c.answers := by
  induction trace with
  | refl => cases served
  | @step s s' labels l earlier stepped ih =>
    rcases List.mem_append.mp served with old | new
    · obtain ⟨c, found, given⟩ := ih old
      have last : Run S AnyLabel s s' := Run.refl.step trivial stepped
      exact last.call_stays found given
        fun _ _ _ _ given moved => moved.answers_grow given
    · obtain rfl := List.mem_singleton.mp new
      cases stepped with
      | call index found moved moves =>
        cases moved with
        | serve a sent =>
          exact ⟨_, List.getElem?_set_self (List.getElem?_eq_some_iff.mp found).1, List.mem_cons_self⟩

/-- What a run has served was served to a call that is still there, at one moment of the run. -/
theorem Trace.served_moment {s₀ s : Network P W} {labels : List (Label P)} (trace : Trace S s₀ labels s)
    (empty : s₀.calls = []) {e : ε} {i : Nat} {k : κ} {r : (P k).Request} {a : (P k).Answer r}
    (served : .call e i k (.serve r a) ∈ labels) :
    ∃ (c : Call (P k)) (before : List (Label P)) (mid : Network P W), s.calls[i]? = some ⟨k, c⟩ ∧
      ⟨r, a⟩ ∈ c.answers ∧ Moment S s₀ labels s i r a before mid := by
  obtain ⟨c, found, given⟩ := trace.served_answer served
  obtain ⟨before, mid, moment⟩ := trace.moment empty found given
  exact ⟨c, before, mid, found, given, moment⟩

theorem Moment.not_before {s₀ s mid mid' : Network P W} {labels before before' : List (Label P)}
    {i : Nat} {k : κ} {r : (P k).Request} {a a' : (P k).Answer r}
    (moment : Moment S s₀ labels s i r a before mid) (other : Moment S s₀ labels s i r a' before' mid')
    (empty : s₀.calls = []) (unique : ∀ c : Call (P k), c.Reachable Call.AnyStep → c.requests.Nodup)
    (extends_it : before <+: before') : before = before' := by
  obtain ⟨rest, rfl⟩ := extends_it
  obtain ⟨e, tail, split⟩ := moment.next
  obtain ⟨e', tail', split'⟩ := other.next
  cases rest with
  | nil => exact (List.append_nil _).symm
  | cons l rest =>
    rw [split, List.append_assoc] at split'
    obtain ⟨rfl, _⟩ := List.cons.inj (List.append_cancel_left split')
    obtain ⟨c, found, given⟩ := other.stood.served_answer
      (List.mem_append_right before (List.mem_cons_self (l := rest)))
    obtain ⟨c', found', waiting⟩ := other.waiting
    rw [found] at found'
    cases found'
    have once := unique c (other.stood.call_reachable empty found)
    rcases List.mem_append.mp given with arrived | delivered
    · have twice := (List.nodup_append.mp (List.nodup_append.mp once).1).2.2
      exact absurd rfl (twice r waiting r (List.mem_map_of_mem arrived))
    · have twice := (List.nodup_append.mp once).2.2
      exact absurd rfl (twice r (List.mem_append_left _ waiting) r (List.mem_map_of_mem delivered))

/-- A request that is sent once is answered at one moment. -/
theorem Moment.eq {s₀ s mid mid' : Network P W} {labels before before' : List (Label P)}
    {i : Nat} {k : κ} {r : (P k).Request} {a a' : (P k).Answer r}
    (moment : Moment S s₀ labels s i r a before mid) (other : Moment S s₀ labels s i r a' before' mid')
    (empty : s₀.calls = []) (unique : ∀ c : Call (P k), c.Reachable Call.AnyStep → c.requests.Nodup) :
    before = before' := by
  rcases List.prefix_or_prefix_of_prefix moment.part other.part with first | second
  · exact moment.not_before other empty unique first
  · exact (other.not_before moment empty unique second).symm

/-- A request that is only made once another was answered is answered later. -/
theorem Moment.after {s₀ s mid mid' : Network P W} {labels before earlier : List (Label P)} {i : Nat}
    {k : κ} {r q : (P k).Request} {a : (P k).Answer r} {b : (P k).Answer q}
    (moment : Moment S s₀ labels s i r a before mid) (first : Moment S s₀ labels s i q b earlier mid')
    (empty : s₀.calls = []) (unique : ∀ c : Call (P k), c.Reachable Call.AnyStep → c.requests.Nodup)
    {c : Call (P k)} (found : s.calls[i]? = some ⟨k, c⟩)
    (follows : ∀ c' : Call (P k), c'.Reachable Call.AnyStep → c'.startedIn = c.startedIn →
      r ∈ c'.requests → ∃ b, ⟨q, b⟩ ∈ c'.answers) : earlier <+: before := by
  obtain ⟨c', standing, waiting⟩ := moment.waiting
  obtain ⟨_, at_end, same_session⟩ := moment.later.call_stays standing (Q := fun d => d.startedIn = c'.startedIn)
    rfl fun _ _ _ _ same moved => moved.startedIn.trans same
  rw [found] at at_end
  cases at_end
  have asked : r ∈ c'.requests := List.mem_append_left _ (List.mem_append_left _ waiting)
  obtain ⟨b', given⟩ := follows c' (moment.stood.call_reachable empty standing) same_session.symm asked
  obtain ⟨before', mid'', previous⟩ := moment.stood.moment empty standing given
  obtain ⟨e, rest, split⟩ := previous.next
  obtain ⟨after, split_labels⟩ := moment.part
  have in_whole : Moment S s₀ labels s i q b' before' mid'' := by
    refine ⟨⟨e, rest ++ after, ?_⟩, previous.stood, previous.waiting, previous.served,
      previous.later.trans moment.later⟩
    rw [← split_labels, split, List.append_assoc, List.cons_append]
  rw [first.eq in_whole empty unique]
  exact previous.part

/-- A step under another service that may give the same answer. -/
theorem Step.under {S' : Service P W} {s s' : Network P W} {l : Label P} (stepped : Step S s l s')
    (serves : ∀ {e i k r a w}, l = .call e i k (.serve r a) → S.serve s.world k r a w → S'.serve s.world k r a w) :
    Step S' s l s' := by
  cases stepped with
  | start e k input ran => exact .start e k input ran
  | @call e k c c' ev w index found moved moves =>
    refine .call index found moved ?_
    cases ev with
    | serve r a => exact serves rfl moves
    | deliver r a => exact moves
    | block b => exact moves

/-- A trace under another service that may take the same steps, as far as an invariant goes. -/
theorem Tracked.trace {S' : Service P W} {ok : Network P W → Label P → Prop} {I : Network P W → Prop}
    {s₀ s : Network P W} {labels : List (Label P)} (tracked : Tracked S ok s₀ labels s) (initial : I s₀)
    (follows : ∀ {s l s'}, I s → ok s l → Step S s l s' → Step S' s l s' ∧ I s') :
    Trace S' s₀ labels s ∧ I s := by
  induction tracked with
  | refl => exact ⟨.refl, initial⟩
  | step _ allowed stepped ih =>
    obtain ⟨trace, holds⟩ := ih
    obtain ⟨stepped', holds'⟩ := follows holds allowed stepped
    exact ⟨trace.step stepped', holds'⟩

theorem Run.tracked {S' : Service P W} {ok ok' : Network P W → Label P → Prop} {s₀ s : Network P W}
    (run : Run S ok s₀ s) (follows : ∀ {s l s'}, ok s l → Step S s l s' → ok' s l ∧ Step S' s l s') :
    ∃ labels, Tracked S' ok' s₀ labels s ∧ ∀ l ∈ labels, ∃ s', ok s' l := by
  induction run with
  | refl => exact ⟨[], .refl, fun _ member => absurd member List.not_mem_nil⟩
  | @step s s' l _ allowed stepped ih =>
    obtain ⟨labels, tracked, all⟩ := ih
    obtain ⟨allowed', stepped'⟩ := follows allowed stepped
    refine ⟨labels ++ [l], tracked.step allowed' stepped', ?_⟩
    intro x member
    rcases List.mem_append.mp member with old | new
    · exact all x old
    · obtain rfl := List.mem_singleton.mp new
      exact ⟨s, allowed⟩

theorem Run.trace {ok : Network P W → Label P → Prop} {s₀ s : Network P W} (run : Run S ok s₀ s) :
    ∃ labels, Trace S s₀ labels s ∧ ∀ l ∈ labels, ∃ s', ok s' l := by
  induction run with
  | refl => exact ⟨[], .refl, fun _ member => absurd member List.not_mem_nil⟩
  | @step s s' l _ allowed stepped ih =>
    obtain ⟨labels, trace, all⟩ := ih
    refine ⟨labels ++ [l], trace.step stepped, ?_⟩
    intro x member
    rcases List.mem_append.mp member with old | new
    · exact all x old
    · obtain rfl := List.mem_singleton.mp new
      exact ⟨s, allowed⟩

end Network

/-! ### Abstract states -/

/-- What holds after some commands and did not hold before them was brought about by one of them. -/
theorem foldl_cause {A C : Type} {perform : A → C → A} {Q : A → Prop} {cause : C → Prop}
    (steps : ∀ s c, Q (perform s c) → Q s ∨ cause c) {s : A} (initial : ¬ Q s) {cs : List C}
    (holds : Q (cs.foldl perform s)) : ∃ c ∈ cs, cause c := by
  induction cs generalizing s with
  | nil => exact absurd holds initial
  | cons c rest ih =>
    by_cases now : Q (perform s c)
    · exact ⟨c, List.mem_cons_self, (steps s c now).resolve_left initial⟩
    · obtain ⟨c', member, caused⟩ := ih now holds
      exact ⟨c', List.mem_cons_of_mem _ member, caused⟩

/-- What a command brings about and no command takes back holds ever after. -/
theorem foldl_stays {A C : Type} {perform : A → C → A} {Q : A → Prop}
    (stays : ∀ s c, Q s → Q (perform s c)) {cs : List C} {c : C} (member : c ∈ cs)
    (starts : ∀ s, Q (perform s c)) (s : A) : Q (cs.foldl perform s) := by
  obtain ⟨before, later, rfl⟩ := List.append_of_mem member
  rw [List.foldl_append, List.foldl_cons]
  have kept : ∀ (rest : List C) s, Q s → Q (rest.foldl perform s) := by
    intro rest
    induction rest with
    | nil => exact fun _ holds => holds
    | cons c rest ih => exact fun s holds => ih _ (stays s c holds)
  exact kept later _ (starts _)

/-- The states of a service represent those of an abstract system, and serving a request performs
its command. -/
structure Refinement (S : Service P W) (A C : Type) where
  Represents : W → A → Prop
  perform : A → C → A
  command : (k : κ) → (r : (P k).Request) → (P k).Answer r → Option C
  serves : ∀ {w w' : W} {s : A} {k : κ} {r : (P k).Request} {a : (P k).Answer r}, Represents w s →
    S.serve w k r a w' → Represents w' ((command k r a).elim s (perform s))

namespace Refinement

variable {A C : Type} (R : Refinement S A C)

/-- The command that a step of the network performs. -/
def performed : Network.Label P → Option C
  | .call _ _ k (.serve r a) => R.command k r a
  | _ => none

/-- The abstract state after a run: its commands, one after the other. -/
def replay (s : A) (labels : List (Network.Label P)) : A := (labels.filterMap R.performed).foldl R.perform s

theorem replay_append (s : A) (labels : List (Network.Label P)) (l : Network.Label P) :
    R.replay s (labels ++ [l]) = (R.performed l).elim (R.replay s labels) (R.perform (R.replay s labels)) := by
  unfold replay
  rw [List.filterMap_append, List.foldl_append]
  cases step : R.performed l with
  | none => simp [step]
  | some c => simp [step]

theorem step {s s' : Network P W} {l : Network.Label P} {x : A} (related : R.Represents s.world x)
    (stepped : Network.Step S s l s') :
    R.Represents s'.world ((R.performed l).elim x (R.perform x)) := by
  cases stepped with
  | start e k input ran => exact related
  | @call e k c c' ev w index found moved moves =>
    cases ev with
    | serve r a => exact R.serves related moves
    | deliver r a => exact (show w = s.world from moves) ▸ related
    | block b => exact (show w = s.world from moves) ▸ related

/-- Every run of the network is a run of the abstract system. -/
theorem trace {s₀ s : Network P W} {labels : List (Network.Label P)} {x : A}
    (run : Network.Trace S s₀ labels s) (related : R.Represents s₀.world x) :
    R.Represents s.world (R.replay x labels) := by
  induction run with
  | refl => exact related
  | step _ stepped ih =>
    rw [replay_append]
    exact R.step ih stepped

/-- What one observer sees of the abstract states is left by the steps that perform the commands it can
see: any others can be taken out of the run. -/
theorem replay_view {V : Type} (view : A → V) {labels : List (Network.Label P)}
    (same : ∀ s s' c, view s = view s' → view (R.perform s c) = view (R.perform s' c))
    {keep : Network.Label P → Bool}
    (unseen : ∀ l ∈ labels, keep l = false → ∀ c ∈ R.performed l, ∀ s, view (R.perform s c) = view s)
    (s : A) : view (R.replay s (labels.filter keep)) = view (R.replay s labels) := by
  induction labels using List.reverseRecOn with
  | nil => rfl
  | append_singleton labels l ih =>
    have before := ih fun l member => unseen l (List.mem_append_left _ member)
    rw [List.filter_append, replay_append]
    cases kept : keep l with
    | true =>
      rw [List.filter_cons_of_pos kept, List.filter_nil, replay_append]
      cases R.performed l with
      | none => exact before
      | some c => exact same _ _ c before
    | false =>
      rw [List.filter_cons_of_neg (by simp [kept]), List.filter_nil, List.append_nil, before]
      have last := unseen l (List.mem_append_right _ List.mem_cons_self) kept
      cases performed : R.performed l with
      | none => rfl
      | some c => exact (last c performed _).symm

end Refinement

end Async
