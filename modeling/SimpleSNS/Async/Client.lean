import SimpleSNS.Async.Relay

/-!
Clients of a program. The action of a client reports, calls the program or not, and meets each of
the program's reports with blocks of its own; the program and its client share one main queue. Seen
from the program, a call of the client is a call of the program.
-/

namespace Async

/-- What the body of an action does. -/
structure Opening (I B O : Type) where
  reported : List O := []
  called : Option I := none
  queued : List B := []

/-- The body runs at once or, where it is `deferred`, as a block of the main queue. -/
structure Client {ε : Type} (P : Program ε) (O : Type) where
  Input : Type
  Block : Type
  deferred : Bool := false
  body : Input → Except Trap (Opening P.Input Block O)
  completion : P.Report → Except Trap (List Block)
  run : Block → List O

namespace Client

variable {ε : Type} {P : Program ε} {O : Type}

inductive Queued (P : Program ε) (I B : Type) where
  | body (input : I)
  | callee (b : P.Block)
  | own (b : B)

abbrev State (C : Client P O) : Type :=
  Frame (Option P.Vars) P.Request (Queued P C.Input C.Block) O

/-- The blocks with which the reports are met. -/
def completions (C : Client P O) : List P.Report → Except Trap (List C.Block)
  | [] => .ok []
  | report :: rest => do
    let blocks ← C.completion report
    let later ← completions C rest
    return blocks ++ later

/-- The program has run a closure. -/
def hear (C : Client P O) (f : P.Frame) : Except Trap C.State := do
  let blocks ← C.completions f.reported
  return { vars := some f.vars, sent := f.sent, queued := f.queued.map .callee ++ blocks.map .own }

def opening (C : Client P O) (e : ε) (input : C.Input) : Except Trap C.State := do
  let o ← C.body input
  match o.called with
  | none => return { vars := none, queued := o.queued.map .own, reported := o.reported }
  | some i => do
    let f ← P.start e i
    let g ← C.hear f
    return { g with queued := o.queued.map .own ++ g.queued, reported := o.reported }

/-- Before the call there are no variables, and then no reply and no block of the program either. -/
abbrev program (C : Client P O) : Program ε where
  Input := C.Input
  Vars := Option P.Vars
  Request := P.Request
  Answer := P.Answer
  Block := Queued P C.Input C.Block
  Report := O
  start e input :=
    if C.deferred then .ok { vars := none, queued := [.body input] } else C.opening e input
  reply e v r a :=
    match v with
    | some v => P.reply e v r a >>= C.hear
    | none => .ok { vars := none }
  block e v b :=
    match b, v with
    | .body input, _ => C.opening e input
    | .callee b, some v => P.block e v b >>= C.hear
    | .callee _, none => .ok { vars := none }
    | .own b, v => .ok { vars := v, reported := C.run b }

variable {C : Client P O}

/-! ### The blocks of both -/

@[simp] def callee? {I B : Type} : Queued P I B → Option P.Block
  | .callee b => some b
  | _ => none

@[simp] def own? {I B : Type} : Queued P I B → Option B
  | .own b => some b
  | _ => none

/-! ### What the closures of a client do -/

theorem completions_append {l m : List P.Report} {blocks later : List C.Block}
    (first : C.completions l = .ok blocks) (second : C.completions m = .ok later) :
    C.completions (l ++ m) = .ok (blocks ++ later) := by
  induction l generalizing blocks with
  | nil =>
    obtain rfl := Except.ok.inj first
    exact second
  | cons report rest ih =>
    obtain ⟨b, met, more⟩ := bind_ok.mp first
    obtain ⟨b', met_rest, same⟩ := bind_ok.mp more
    obtain rfl := Except.ok.inj same
    rw [List.append_assoc]
    exact bind_ok.mpr ⟨b, met, bind_ok.mpr ⟨_, ih met_rest, rfl⟩⟩

theorem completions_mem {reports : List P.Report} {blocks : List C.Block}
    (met : C.completions reports = .ok blocks) {report : P.Report} (member : report ∈ reports) :
    ∃ b, C.completion report = .ok b ∧ b ⊆ blocks := by
  induction reports generalizing blocks with
  | nil => cases member
  | cons first rest ih =>
    obtain ⟨b, met_first, more⟩ := bind_ok.mp met
    obtain ⟨b', met_rest, same⟩ := bind_ok.mp more
    obtain rfl := Except.ok.inj same
    rcases List.mem_cons.mp member with rfl | later
    · exact ⟨b, met_first, List.subset_append_left _ _⟩
    · obtain ⟨b'', met_later, part⟩ := ih met_rest later
      exact ⟨b'', met_later, List.Subset.trans part (List.subset_append_right _ _)⟩

theorem hear_ok {f : P.Frame} {g : C.State} (heard : C.hear f = .ok g) :
    ∃ blocks, C.completions f.reported = .ok blocks ∧ g = {
      vars := some f.vars, sent := f.sent, queued := f.queued.map .callee ++ blocks.map .own } := by
  obtain ⟨blocks, met, same⟩ := bind_ok.mp heard
  exact ⟨blocks, met, (Except.ok.inj same).symm⟩

theorem opening_ok {e : ε} {input : C.Input} {g : C.State} (opened : C.opening e input = .ok g) :
    ∃ o, C.body input = .ok o ∧
      (o.called = none ∧ g = {
        vars := none, queued := o.queued.map .own, reported := o.reported } ∨
      ∃ i f blocks, o.called = some i ∧ P.start e i = .ok f ∧
        C.completions f.reported = .ok blocks ∧ g = {
          vars := some f.vars, sent := f.sent, reported := o.reported
          queued := o.queued.map .own ++ (f.queued.map .callee ++ blocks.map .own) }) := by
  obtain ⟨o, ran, rest⟩ := bind_ok.mp opened
  refine ⟨o, ran, ?_⟩
  cases called : o.called with
  | none =>
    rw [called] at rest
    exact Or.inl ⟨rfl, (Except.ok.inj rest).symm⟩
  | some i =>
    rw [called] at rest
    obtain ⟨f, started, rest⟩ := bind_ok.mp rest
    obtain ⟨g', heard, same⟩ := bind_ok.mp rest
    obtain ⟨blocks, met, rfl⟩ := hear_ok heard
    exact Or.inr ⟨i, f, blocks, rfl, started, met, (Except.ok.inj same).symm⟩

/-! ### The call of the program inside a call of the client -/

/-- What the program sees of a call of its client. -/
def seen (c : Call C.program) (i : P.Input) (e : ε) (v : P.Vars) (reports : List P.Report) :
    Call P where
  input := i
  startedIn := e
  vars := v
  waiting := c.waiting
  replies := c.replies
  delivered := c.delivered
  queue := c.queue.filterMap callee?
  reports := reports

/-- The client has reported what its body and the blocks that ran report; `blocks` are those with
which it has met the reports of the program. -/
structure Shown (c : Call C.program) (o : Opening P.Input C.Block O) (blocks : List C.Block) : Prop where
  bodies : ∀ input, .body input ∉ c.queue
  blocks : ∃ ran, ran ++ c.queue.filterMap own? = o.queued ++ blocks ∧
    c.reports = o.reported ++ ran.flatMap C.run

inductive Stage (G : (r : P.Request) → P.Answer r → Prop) (c : Call C.program) : Prop where
  | deferred (vars : c.vars = none) (requests : c.requests = []) (queue : c.queue = [.body c.input])
      (reports : c.reports = [])
  | opened (o : Opening P.Input C.Block O) (body : C.body c.input = .ok o) (called : o.called = none)
      (vars : c.vars = none) (requests : c.requests = []) (callee : c.queue.filterMap callee? = [])
      (shown : Shown c o [])
  | calling (o : Opening P.Input C.Block O) (body : C.body c.input = .ok o) (i : P.Input) (e : ε)
      (v : P.Vars) (reports : List P.Report) (blocks : List C.Block) (called : o.called = some i)
      (vars : c.vars = some v) (reachable : (seen c i e v reports).Reachable (Call.Answered G))
      (met : C.completions reports = .ok blocks) (shown : Shown c o blocks)

variable {G : (r : P.Request) → P.Answer r → Prop} {c c' : Call C.program} {e : ε}

theorem requests_nil (none_sent : c.requests = []) :
    c.waiting = [] ∧ c.replies = [] ∧ c.delivered = [] := by
  simpa [Call.requests, Call.outstanding, and_assoc] using none_sent

theorem opening_stage {g : C.State} (opened : C.opening e c.input = .ok g)
    (requests : c.requests = []) (queue : c.queue = []) (reports : c.reports = []) :
    Stage G (c.absorb g) := by
  obtain ⟨waiting, replies, delivered⟩ := requests_nil requests
  obtain ⟨o, body, ⟨called, rfl⟩ | ⟨i, f, blocks, called, started, met, rfl⟩⟩ := opening_ok opened
  · refine .opened o body called rfl ?_ ?_ ⟨?_, [], ?_, ?_⟩
    · simp [Call.requests, Call.outstanding, Call.absorb, waiting, replies, delivered]
    · simp [Call.absorb, queue]
    · simp [Call.absorb, queue]
    · simp [Call.absorb, queue, Function.comp_def]
    · simp [Call.absorb, reports]
  · refine .calling o body i e f.vars f.reported blocks called rfl ?_ met ⟨?_, [], ?_, ?_⟩
    · have same : seen (c.absorb { vars := some f.vars, sent := f.sent, reported := o.reported
                                   queued := o.queued.map .own ++ (f.queued.map .callee ++ blocks.map .own) })
          i e f.vars f.reported = Call.init e i f := by
        simp [seen, Call.init, Call.absorb, waiting, replies, delivered, queue, Function.comp_def]
      rw [same]
      exact .start started
    · simp [Call.absorb, queue]
    · simp [Call.absorb, queue, Function.comp_def]
    · simp [Call.absorb, reports]

theorem Shown.popped {o : Opening P.Input C.Block O} {blocks : List C.Block} {b : P.Block}
    {rest : List (Queued P C.Input C.Block)} (shown : Shown c o blocks)
    (next : c.queue = .callee b :: rest) : Shown (c.popped rest) o blocks := by
  obtain ⟨bodies, ran, split, reports⟩ := shown
  rw [next] at split bodies
  exact ⟨fun input member => bodies input (List.mem_cons_of_mem _ member), ran, split, reports⟩

theorem Shown.hears {o : Opening P.Input C.Block O} {blocks later : List C.Block} {f : P.Frame}
    (shown : Shown c o blocks) : Shown (c.absorb {
      vars := some f.vars, sent := f.sent, queued := f.queued.map .callee ++ later.map .own }) o
        (blocks ++ later) := by
  obtain ⟨bodies, ran, split, reports⟩ := shown
  refine ⟨?_, ran, ?_, ?_⟩
  · intro input member
    rcases List.mem_append.mp member with old | new
    · exact bodies input old
    · simp at new
  · show ran ++ (c.queue ++ (f.queued.map Queued.callee ++ later.map Queued.own)).filterMap own? = _
    have added : (f.queued.map (Queued.callee (I := C.Input)) ++ later.map Queued.own).filterMap own? =
        later := by
      simp [Function.comp_def]
    rw [List.filterMap_append, added, ← List.append_assoc, split, List.append_assoc]
  · show c.reports ++ [] = _
    rw [List.append_nil, reports]

theorem seen_hears (c : Call C.program) (i : P.Input) (e : ε) (v : P.Vars) (reports : List P.Report)
    (f : P.Frame) (later : List C.Block) : seen (c.absorb {
      vars := some f.vars, sent := f.sent, queued := f.queued.map .callee ++ later.map .own })
        i e f.vars (reports ++ f.reported) = (seen c i e v reports).absorb f := by
  simp [seen, Call.absorb, Function.comp_def]

theorem Shown.own {o : Opening P.Input C.Block O} {blocks : List C.Block} {b : C.Block}
    {rest : List (Queued P C.Input C.Block)} (shown : Shown c o blocks) (next : c.queue = .own b :: rest) :
    Shown ((c.popped rest).absorb { vars := c.vars, reported := C.run b }) o blocks := by
  obtain ⟨bodies, ran, split, reports⟩ := shown
  rw [next] at split bodies
  refine ⟨?_, ran ++ [b], ?_, ?_⟩
  · intro input member
    simp only [Call.absorb, Call.popped, List.append_nil] at member
    exact bodies input (List.mem_cons_of_mem _ member)
  · simp only [Call.absorb, Call.popped, List.append_nil, List.append_assoc]
    exact split
  · show c.reports ++ C.run b = _
    rw [reports, List.flatMap_append, List.append_assoc]
    simp

theorem step_stage {ev : Call.Event C.program} (stage : Stage G c) (answered : Call.Answered (P := C.program) G e c ev)
    (stepped : c.Step e ev c') : Stage G c' := by
  cases stepped with
  | @serve r rest a sent =>
    cases stage with
    | deferred vars requests =>
      rw [(requests_nil requests).1] at sent
      cases sent.nil_eq
    | opened o body called vars requests =>
      rw [(requests_nil requests).1] at sent
      cases sent.nil_eq
    | calling o body i e₀ v reports blocks called vars reachable met shown =>
      have served : (seen c i e₀ v reports).Step e (.serve r a)
          (seen (c.served rest r a) i e₀ v reports) :=
        .serve (c := seen c i e₀ v reports) a sent
      have allowed : Call.Answered G e (seen c i e₀ v reports) (.serve r a) := trivial
      exact .calling o body i e₀ v reports blocks called vars (reachable.step allowed served) met
        ⟨shown.bodies, shown.blocks⟩
  | @deliver r a rest g arrived ran =>
    cases stage with
    | deferred vars requests =>
      rw [(requests_nil requests).2.1] at arrived
      cases arrived.nil_eq
    | opened o body called vars requests =>
      rw [(requests_nil requests).2.1] at arrived
      cases arrived.nil_eq
    | calling o body i e₀ v reports blocks called vars reachable met shown =>
      rw [vars] at ran
      obtain ⟨f, replied, heard⟩ := bind_ok.mp ran
      obtain ⟨later, met_later, rfl⟩ := hear_ok heard
      have delivered : (seen c i e₀ v reports).Step e (.deliver r a)
          (((seen c i e₀ v reports).took rest r a).absorb f) := .deliver arrived replied
      have after := seen_hears (c.took rest r a) i e₀ v reports f later
      refine .calling o body i e₀ f.vars (reports ++ f.reported) (blocks ++ later) called rfl ?_
        (completions_append met met_later) (Shown.hears ⟨shown.bodies, shown.blocks⟩)
      rw [after]
      exact reachable.step answered delivered
  | @block b rest g next ran =>
    cases b with
    | body input =>
      cases stage with
      | opened o body called vars requests callee shown =>
        exact absurd (next ▸ List.mem_cons_self) (shown.bodies input)
      | calling o body i e₀ v reports blocks called vars reachable met shown =>
        exact absurd (next ▸ List.mem_cons_self) (shown.bodies input)
      | deferred vars requests queue reports =>
        rw [next] at queue
        obtain ⟨same, rfl⟩ := List.cons.inj queue
        cases same
        exact opening_stage (c := c.popped []) ran requests rfl reports
    | own b =>
      obtain rfl := Except.ok.inj ran
      cases stage with
      | deferred vars requests queue =>
        rw [next] at queue
        cases queue
      | opened o body called vars requests callee shown =>
        refine .opened o body called vars ?_ ?_ (shown.own next)
        · simpa [Call.requests, Call.outstanding, Call.absorb, Call.popped] using requests
        · rw [next] at callee
          simpa [Call.absorb, Call.popped] using callee
      | calling o body i e₀ v reports blocks called vars reachable met shown =>
        refine .calling o body i e₀ v reports blocks called vars ?_ met (shown.own next)
        have same : seen ((c.popped rest).absorb { vars := c.vars, reported := C.run b }) i e₀ v reports =
            seen c i e₀ v reports := by
          simp only [seen, Call.absorb, Call.popped, next, List.append_nil]
          rfl
        rw [same]
        exact reachable
    | callee b =>
      cases stage with
      | deferred vars requests queue =>
        rw [next] at queue
        cases queue
      | opened o body called vars requests callee =>
        rw [next] at callee
        cases callee
      | calling o body i e₀ v reports blocks called vars reachable met shown =>
        rw [vars] at ran
        obtain ⟨f, blocked, heard⟩ := bind_ok.mp ran
        obtain ⟨later, met_later, rfl⟩ := hear_ok heard
        have first : (seen c i e₀ v reports).queue = b :: rest.filterMap callee? := by
          simp [seen, next]
        have stepped : (seen c i e₀ v reports).Step e (.block b)
            (((seen c i e₀ v reports).popped (rest.filterMap callee?)).absorb f) := .block first blocked
        have after := seen_hears (c.popped rest) i e₀ v reports f later
        refine .calling o body i e₀ f.vars (reports ++ f.reported) (blocks ++ later) called rfl ?_
          (completions_append met met_later) (shown.popped next).hears
        have allowed : Call.Answered G e (seen c i e₀ v reports) (.block b) := trivial
        rw [after]
        exact reachable.step allowed stepped

theorem reachable_stage (reachable : c.Reachable (Call.Answered (P := C.program) G)) : Stage G c := by
  induction reachable with
  | @start e input f ran =>
    change (if C.deferred then _ else _) = Except.ok f at ran
    split at ran
    · obtain rfl := Except.ok.inj ran
      exact .deferred rfl rfl rfl rfl
    · let c₀ : Call C.program := ⟨input, e, none, [], [], [], [], []⟩
      exact opening_stage (c := c₀) ran rfl rfl rfl
  | step _ answered stepped ih => exact step_stage ih answered stepped

/-- What a finished call has reported: what its body reports, and what the blocks of the body and of
its completions do. A call of the program that was made has finished as well. -/
theorem finished_reports (reachable : c.Reachable (Call.Answered (P := C.program) G)) (finished : c.Finished) :
    ∃ o, C.body c.input = .ok o ∧
      (o.called = none ∧ c.delivered = [] ∧ c.reports = o.reported ++ o.queued.flatMap C.run ∨
      ∃ i, o.called = some i ∧ ∃ (c₀ : Call P) (blocks : List C.Block),
        c₀.Reachable (Call.Answered G) ∧ c₀.Finished ∧ c₀.delivered = c.delivered ∧
        C.completions c₀.reports = .ok blocks ∧
        c.reports = o.reported ++ (o.queued ++ blocks).flatMap C.run) := by
  cases reachable_stage reachable with
  | deferred _ _ queue =>
    rw [finished.2] at queue
    cases queue
  | opened o body called vars requests callee shown =>
    obtain ⟨ran, split, reports⟩ := shown.blocks
    rw [finished.2, List.filterMap_nil, List.append_nil, List.append_nil] at split
    exact ⟨o, body, Or.inl ⟨called, (requests_nil requests).2.2, split ▸ reports⟩⟩
  | calling o body i e v heard blocks called vars reachable met shown =>
    obtain ⟨ran, split, reports⟩ := shown.blocks
    rw [finished.2, List.filterMap_nil, List.append_nil] at split
    have drained : (seen c i e v heard).queue = [] := by
      simp [seen, finished.2]
    exact ⟨o, body, Or.inr ⟨i, called, seen c i e v heard, blocks, reachable, ⟨finished.1, drained⟩,
      rfl, met, split ▸ reports⟩⟩

end Client

end Async
