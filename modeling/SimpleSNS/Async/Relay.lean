import SimpleSNS.Async.Program

/-!
Programs that pass every answer on: the callback of a request sends another one or reports, so a call
with nothing outstanding has reported. Two programs that are started together are one program.
-/

namespace Async

variable {ε : Type}

namespace Call

/-- The answers that callbacks are run with satisfy `G`. -/
def Answered {P : Program ε} (G : (r : P.Request) → P.Answer r → Prop) :
    ε → Call P → Call.Event P → Prop
  | _, _, .deliver r a => G r a
  | _, _, _ => True

theorem Reachable.answered {P : Program ε} {G : (r : P.Request) → P.Answer r → Prop} {c : Call P}
    (reachable : c.Reachable (Answered G)) : ∀ x ∈ c.delivered, G x.1 x.2 := by
  induction reachable with
  | start => nofun
  | step _ answered stepped ih =>
    cases stepped with
    | serve => exact ih
    | block => exact ih
    | deliver =>
      intro x member
      rcases List.mem_append.mp member with old | new
      · exact ih x old
      · cases List.mem_singleton.mp new
        exact answered

theorem Step.delivered_grow {P : Program ε} {e : ε} {c c' : Call P} {ev : Event P} (h : c.Step e ev c')
    {x : (r : P.Request) × P.Answer r} (member : x ∈ c.delivered) : x ∈ c'.delivered := by
  cases h with
  | serve a sent => exact member
  | deliver arrived ran => exact List.mem_append_left _ member
  | block next ran => exact member

theorem absorb_reported {P : Program ε} (c : Call P) {f : P.Frame} (reported : f.reported ≠ []) :
    (c.absorb f).reports ≠ [] :=
  List.append_ne_nil_of_right_ne_nil _ reported

/-- Which answers callbacks were run with is seen at the end. -/
theorem Reachable.of_delivered {P : Program ε} {G : (r : P.Request) → P.Answer r → Prop} {c : Call P}
    (reachable : c.Reachable AnyStep) (good : ∀ x ∈ c.delivered, G x.1 x.2) : c.Reachable (Answered G) := by
  induction reachable with
  | start ran => exact .start ran
  | @step c c' e ev _ _ stepped ih =>
    have before := ih fun x member => good x (stepped.delivered_grow member)
    refine .step before ?_ stepped
    cases stepped with
    | serve => trivial
    | block => trivial
    | @deliver r a => exact good ⟨r, a⟩ (List.mem_append_right _ (List.mem_singleton_self _))

end Call

/-- A closure sends a request of the kind `Q` or reports something of the kind `R`. -/
def Program.Onward {P : Program ε} (Q : P.Request → Prop) (R : P.Report → Prop) (f : P.Frame) : Prop :=
  (∃ r ∈ f.sent, Q r) ∨ ∃ x ∈ f.reported, R x

structure Relays (P : Program ε) (G : (r : P.Request) → P.Answer r → Prop) (Q : P.Request → Prop)
    (R : P.Report → Prop) : Prop where
  start : ∀ e i f, P.start e i = .ok f → P.Onward Q R f
  reply : ∀ e v r a f, Q r → G r a → P.reply e v r a = .ok f → P.Onward Q R f

namespace Relays

variable {P : Program ε} {G : (r : P.Request) → P.Answer r → Prop} {Q : P.Request → Prop}
  {R : P.Report → Prop} {c c' : Call P} {e : ε}

/-- A request of the kind `Q` has no answer yet, or something of the kind `R` has been reported. -/
def Underway (Q : P.Request → Prop) (R : P.Report → Prop) (c : Call P) : Prop :=
  (∃ r ∈ c.outstanding, Q r) ∨ ∃ x ∈ c.reports, R x

theorem onward_underway {f : P.Frame} (onward : P.Onward Q R f) : Underway Q R (c.absorb f) := by
  rcases onward with ⟨r, sent, kind⟩ | ⟨x, reported, kind⟩
  · exact Or.inl ⟨r, (Call.outstanding_absorb c f).mem_iff.mpr (List.mem_append_right _ sent), kind⟩
  · exact Or.inr ⟨x, List.mem_append_right _ reported, kind⟩

theorem Underway.absorb {f : P.Frame} (underway : Underway Q R c) : Underway Q R (c.absorb f) := by
  rcases underway with ⟨r, pending, kind⟩ | ⟨x, reported, kind⟩
  · exact Or.inl ⟨r, (Call.outstanding_absorb c f).mem_iff.mpr (List.mem_append_left _ pending), kind⟩
  · exact Or.inr ⟨x, List.mem_append_left _ reported, kind⟩

theorem step_underway {ev : Call.Event P} (relays : Relays P G Q R) (underway : Underway Q R c)
    (answered : Call.Answered G e c ev) (stepped : c.Step e ev c') : Underway Q R c' := by
  cases stepped with
  | serve a sent =>
    rcases underway with ⟨r, pending, kind⟩ | reported
    · exact Or.inl ⟨r, (Call.outstanding_served a sent).mem_iff.mpr pending, kind⟩
    · exact Or.inr reported
  | block next ran => exact Underway.absorb underway
  | @deliver r a rest f arrived ran =>
    rcases underway with ⟨q, pending, kind⟩ | reported
    · rcases List.mem_cons.mp ((Call.outstanding_took arrived).mem_iff.mp pending) with rfl | later
      · exact onward_underway (relays.reply _ _ _ _ _ kind answered ran)
      · exact Underway.absorb (Or.inl ⟨q, later, kind⟩)
    · exact Underway.absorb (Or.inr reported)

theorem reachable_underway (relays : Relays P G Q R) (reachable : c.Reachable (Call.Answered G)) :
    Underway Q R c := by
  induction reachable with
  | start ran =>
    rcases relays.start _ _ _ ran with ⟨r, sent, kind⟩ | reported
    · exact Or.inl ⟨r, List.mem_append_left _ sent, kind⟩
    · exact Or.inr reported
  | step _ answered stepped ih => exact relays.step_underway ih answered stepped

theorem closed_reported (relays : Relays P G Q R) (reachable : c.Reachable (Call.Answered G))
    (closed : c.outstanding = []) : ∃ x ∈ c.reports, R x := by
  rcases relays.reachable_underway reachable with ⟨r, pending, _⟩ | reported
  · rw [closed] at pending
    cases pending
  · exact reported

end Relays

/-! ### Chains -/

/-- A program that sends one request at a time, reports with the last answer, and reports nothing after
an answer outside `G`, which is the last. -/
structure Chains (P : Program ε) (G : (r : P.Request) → P.Answer r → Prop) : Prop where
  start : ∀ e i f, P.start e i = .ok f → f.sent.length ≤ 1 ∧ f.reported = []
  reply : ∀ e v r a f, P.reply e v r a = .ok f → f.sent.length ≤ 1 ∧
    (f.sent ≠ [] → f.reported = [] ∧ G r a) ∧ (¬ G r a → f.reported = [])
  block : IsEmpty P.Block

namespace Chains

variable {P : Program ε} {G : (r : P.Request) → P.Answer r → Prop} {c c' : Call P} {e : ε}

structure Linked (G : (r : P.Request) → P.Answer r → Prop) (c : Call P) : Prop where
  single : c.outstanding.length ≤ 1
  underway : c.outstanding ≠ [] → c.reports = [] ∧ ∀ x ∈ c.delivered, G x.1 x.2
  silent : (∃ x ∈ c.delivered, ¬ G x.1 x.2) → c.reports = []

theorem step_linked {ev : Call.Event P} (chains : Chains P G) (linked : Linked G c)
    (stepped : c.Step e ev c') : Linked G c' := by
  cases stepped with
  | @block b => exact (chains.block.false b).elim
  | @serve r rest a sent =>
    have same := Call.outstanding_served a sent
    refine ⟨Nat.le_trans (Nat.le_of_eq same.length_eq) linked.single, ?_, linked.silent⟩
    intro some_left
    apply linked.underway
    intro none_left
    rw [none_left] at same
    exact some_left same.eq_nil
  | @deliver r a rest f arrived ran =>
    obtain ⟨one, more, last⟩ := chains.reply _ _ _ _ _ ran
    obtain ⟨unreported, good⟩ := linked.underway
      (Call.outstanding_ne_nil (arrived.mem_iff.mpr List.mem_cons_self))
    have single : c.outstanding = [r] := by
      have taken := Call.outstanding_took arrived
      have length := taken.length_eq
      have bound := linked.single
      rw [List.length_cons] at length
      have none_left : (c.took rest r a).outstanding = [] := List.length_eq_zero_iff.mp (by omega)
      rw [none_left] at taken
      exact taken.eq_singleton
    obtain ⟨_, sent⟩ := Call.deliver_single single arrived f
    have reports : ((c.took rest r a).absorb f).reports = f.reported := by
      show c.reports ++ f.reported = _
      rw [unreported, List.nil_append]
    refine ⟨?_, ?_, ?_⟩
    · rw [sent]
      exact one
    · rw [sent, reports]
      intro some_sent
      refine ⟨(more some_sent).1, ?_⟩
      intro x member
      rcases List.mem_append.mp member with old | new
      · exact good x old
      · cases List.mem_singleton.mp new
        exact (more some_sent).2
    · rintro ⟨x, member, bad⟩
      rw [reports]
      rcases List.mem_append.mp member with old | new
      · exact absurd (good x old) bad
      · cases List.mem_singleton.mp new
        exact last bad

theorem reachable_linked {A : ε → Call P → Call.Event P → Prop} (chains : Chains P G)
    (reachable : c.Reachable A) : Linked G c := by
  induction reachable with
  | start ran =>
    obtain ⟨one, unreported⟩ := chains.start _ _ _ ran
    refine ⟨?_, fun _ => ⟨unreported, nofun⟩, fun _ => unreported⟩
    simpa [Call.outstanding, Call.init] using one
  | step _ _ stepped ih => exact chains.step_linked ih stepped

end Chains

/-! ### One report -/

/-- A program whose closures send one request after an answer that goes on, and report what comes of any
other answer. -/
structure Concludes (P : Program ε) (goesOn : (r : P.Request) → P.Answer r → Prop)
    (final : (r : P.Request) → P.Answer r → List P.Report) : Prop where
  start : ∀ e i f, P.start e i = .ok f → f.sent.length = 1 ∧ f.reported = []
  reply : ∀ e v r a f, P.reply e v r a = .ok f →
    goesOn r a ∧ f.sent.length = 1 ∧ f.reported = [] ∨ ¬ goesOn r a ∧ f.sent = [] ∧ f.reported = final r a
  block : IsEmpty P.Block

namespace Concludes

variable {P : Program ε} {goesOn : (r : P.Request) → P.Answer r → Prop}
  {final : (r : P.Request) → P.Answer r → List P.Report} {c c' : Call P} {e : ε}

/-- The call waits for one answer, or its last answer has been reported. -/
inductive Stands (goesOn : (r : P.Request) → P.Answer r → Prop)
    (final : (r : P.Request) → P.Answer r → List P.Report) (c : Call P) : Prop where
  | waiting (one : c.outstanding.length = 1) (reports : c.reports = [])
      (onward : ∀ x ∈ c.delivered, goesOn x.1 x.2)
  | concluded (closed : c.outstanding = []) (earlier : Replies P) (r : P.Request) (a : P.Answer r)
      (delivered : c.delivered = earlier ++ [⟨r, a⟩]) (onward : ∀ x ∈ earlier, goesOn x.1 x.2)
      (last : ¬ goesOn r a) (reports : c.reports = final r a)

theorem step_stands {ev : Call.Event P} (concludes : Concludes P goesOn final)
    (stands : Stands goesOn final c) (stepped : c.Step e ev c') : Stands goesOn final c' := by
  cases stepped with
  | @block b => exact (concludes.block.false b).elim
  | @serve r rest a sent =>
    have same := Call.outstanding_served a sent
    cases stands with
    | waiting one reports onward => exact .waiting (same.length_eq.trans one) reports onward
    | concluded closed earlier q b delivered onward last reports =>
      exact .concluded (closed ▸ same).eq_nil earlier q b delivered onward last reports
  | @deliver r a rest f arrived ran =>
    cases stands with
    | concluded closed =>
      exact absurd closed (Call.outstanding_ne_nil (arrived.mem_iff.mpr List.mem_cons_self))
    | waiting one reports onward =>
      obtain ⟨q, single⟩ := List.length_eq_one_iff.mp one
      obtain ⟨_, sent⟩ := Call.deliver_single single arrived f
      have reported : ((c.took rest r a).absorb f).reports = f.reported := by
        show c.reports ++ f.reported = _
        rw [reports, List.nil_append]
      rcases concludes.reply _ _ _ _ _ ran with ⟨more, next, silent⟩ | ⟨last, nothing, report⟩
      · refine .waiting (sent ▸ next) (reported.trans silent) ?_
        intro x member
        rcases List.mem_append.mp member with old | new
        · exact onward x old
        · cases List.mem_singleton.mp new
          exact more
      · exact .concluded (sent.trans nothing) c.delivered r a rfl onward last (reported.trans report)

/-- A finished call was given answers that went on and then one that did not, and has reported what
comes of it. -/
theorem finished {A : ε → Call P → Call.Event P → Prop} (concludes : Concludes P goesOn final)
    (reachable : c.Reachable A) (closed : c.outstanding = []) :
    ∃ earlier r a, c.delivered = earlier ++ [⟨r, a⟩] ∧ (∀ x ∈ earlier, goesOn x.1 x.2) ∧ ¬ goesOn r a ∧
      c.reports = final r a := by
  have stands : Stands goesOn final c := by
    clear closed
    induction reachable with
    | start ran =>
      obtain ⟨one, silent⟩ := concludes.start _ _ _ ran
      refine .waiting ?_ silent fun _ member => absurd member List.not_mem_nil
      simpa [Call.outstanding, Call.init] using one
    | step _ _ stepped ih => exact concludes.step_stands ih stepped
  cases stands with
  | waiting one =>
    rw [closed] at one
    cases one
  | concluded _ earlier r a delivered onward last reports =>
    exact ⟨earlier, r, a, delivered, onward, last, reports⟩

end Concludes

/-! ### Two programs at once -/

namespace Program

/-- A program that nobody can call. -/
abbrev idle : Program ε where
  Input := Empty
  Vars := Unit
  Request := Empty
  Answer := fun _ => Unit
  Block := Empty
  Report := Empty
  start := fun _ i => nomatch i
  reply := fun _ _ r => nomatch r
  block := fun _ _ b => nomatch b

section Both
variable (P P' : Program ε)

abbrev Both : Type :=
  Async.Frame (P.Vars × P'.Vars) (P.Request ⊕ P'.Request) (P.Block ⊕ P'.Block) (P.Report ⊕ P'.Report)

variable {P P'}

def inLeft (f : P.Frame) (v : P'.Vars) : Both P P' where
  vars := (f.vars, v)
  sent := f.sent.map .inl
  queued := f.queued.map .inl
  reported := f.reported.map .inl

def inRight (v : P.Vars) (f : P'.Frame) : Both P P' where
  vars := (v, f.vars)
  sent := f.sent.map .inr
  queued := f.queued.map .inr
  reported := f.reported.map .inr

/-- The body calls `P` and then `P'`. -/
abbrev both (P P' : Program ε) : Program ε where
  Input := P.Input × P'.Input
  Vars := P.Vars × P'.Vars
  Request := P.Request ⊕ P'.Request
  Answer := Sum.elim P.Answer P'.Answer
  Block := P.Block ⊕ P'.Block
  Report := P.Report ⊕ P'.Report
  start e i := do
    let f ← P.start e i.1
    let g ← P'.start e i.2
    return {
      vars := (f.vars, g.vars)
      sent := f.sent.map .inl ++ g.sent.map .inr
      queued := f.queued.map .inl ++ g.queued.map .inr
      reported := f.reported.map .inl ++ g.reported.map .inr }
  reply e v r a :=
    match r, a with
    | .inl r, a => do
      let f ← P.reply e v.1 r a
      return inLeft f v.2
    | .inr r, a => do
      let f ← P'.reply e v.2 r a
      return inRight v.1 f
  block e v b :=
    match b with
    | .inl b => do
      let f ← P.block e v.1 b
      return inLeft f v.2
    | .inr b => do
      let f ← P'.block e v.2 b
      return inRight v.1 f

end Both

end Program

def OnLeft {α β : Type} (p : α → Prop) (x : α ⊕ β) : Prop := ∃ a, x = .inl a ∧ p a

/-- What the first of two programs passes on, the two pass on. -/
theorem Relays.both {P P' : Program ε} {G : (r : P.Request) → P.Answer r → Prop} {Q : P.Request → Prop}
    {R : P.Report → Prop} {G' : (r : (P.both P').Request) → (P.both P').Answer r → Prop}
    (relays : Relays P G Q R) (sub : ∀ r a, G' (.inl r) a → G r a) :
    Relays (P.both P') G' (OnLeft Q) (OnLeft R) where
  start e i h ran := by
    obtain ⟨f, first, rest⟩ := bind_ok.mp ran
    obtain ⟨g, second, same⟩ := bind_ok.mp rest
    obtain rfl := Except.ok.inj same
    rcases relays.start e i.1 f first with ⟨r, sent, kind⟩ | ⟨x, reported, kind⟩
    · exact Or.inl ⟨.inl r, List.mem_append_left _ (List.mem_map_of_mem sent), r, rfl, kind⟩
    · exact Or.inr ⟨.inl x, List.mem_append_left _ (List.mem_map_of_mem reported), x, rfl, kind⟩
  reply e v r a h kind good ran := by
    obtain ⟨q, rfl, kind⟩ := kind
    obtain ⟨f, replied, same⟩ := bind_ok.mp ran
    obtain rfl := Except.ok.inj same
    rcases relays.reply e v.1 q a f kind (sub q a good) replied with ⟨r, sent, kind⟩ | ⟨x, reported, kind⟩
    · exact Or.inl ⟨.inl r, List.mem_map_of_mem sent, r, rfl, kind⟩
    · exact Or.inr ⟨.inl x, List.mem_map_of_mem reported, x, rfl, kind⟩

end Async
