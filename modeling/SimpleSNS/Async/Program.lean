import Mathlib.Data.List.Perm.Basic
import SimpleSNS.Async.DispatchGroup

/-!
A function that answers through callbacks, with its closures named. Running a closure reads
and writes the captured variables, sends requests, queues blocks on the main queue and calls
the caller's completion. A call of the function is then a state: the captured variables, the
requests nobody has served, the replies not yet delivered, the blocks in the queue.
-/

namespace Async

/-- What running one closure leaves behind. -/
structure Frame (V R B O : Type) where
  vars : V
  sent : List R := []
  queued : List B := []
  reported : List O := []

/-- `start` is the body of the function, `reply` the callbacks of its requests and `block` its
main-queue blocks. All three may read the environment `ε` of the moment they run in. -/
structure Program (ε : Type) where
  Input : Type
  Vars : Type
  Request : Type
  Answer : Request → Type
  Block : Type
  Report : Type
  start : ε → Input → Except Trap (Frame Vars Request Block Report)
  reply : ε → Vars → (r : Request) → Answer r → Except Trap (Frame Vars Request Block Report)
  block : ε → Vars → Block → Except Trap (Frame Vars Request Block Report)

variable {ε : Type}

abbrev Program.Frame (P : Program ε) : Type := Async.Frame P.Vars P.Request P.Block P.Report

/-- Replies that were given, each with the request it answers. -/
abbrev Replies (P : Program ε) : Type := List ((r : P.Request) × P.Answer r)

/-! ### The answer to a request -/

section Answers
variable {R : Type} {A : R → Type} [DecidableEq R]

/-- The first answer to `r` among the replies. -/
def answerTo : List ((r : R) × A r) → (r : R) → Option (A r)
  | [], _ => none
  | ⟨r', a⟩ :: rest, r => if h : r' = r then some (h ▸ a) else answerTo rest r

theorem answerTo_mem {l : List ((r : R) × A r)} {r : R} {a : A r}
    (h : answerTo l r = some a) : ⟨r, a⟩ ∈ l := by
  induction l with
  | nil => simp [answerTo] at h
  | cons x rest ih =>
    obtain ⟨r', b⟩ := x
    simp only [answerTo] at h
    split at h
    · rename_i same
      subst same
      obtain rfl := Option.some.inj h
      exact List.mem_cons_self
    · exact List.mem_cons_of_mem _ (ih h)

theorem answerTo_eq_none {l : List ((r : R) × A r)} {r : R} :
    answerTo l r = none ↔ r ∉ l.map Sigma.fst := by
  induction l with
  | nil => simp [answerTo]
  | cons x rest ih =>
    obtain ⟨r', b⟩ := x
    simp only [answerTo, List.map_cons, List.mem_cons, not_or]
    by_cases same : r' = r
    · subst same
      simp
    · simp [same, ih, Ne.symm same]

theorem mem_answerTo {l : List ((r : R) × A r)} (unique : (l.map Sigma.fst).Nodup) {r : R}
    {a : A r} (member : ⟨r, a⟩ ∈ l) : answerTo l r = some a := by
  induction l with
  | nil => simp at member
  | cons x rest ih =>
    obtain ⟨r', b⟩ := x
    obtain ⟨fresh, unique⟩ := List.nodup_cons.mp unique
    rcases List.mem_cons.mp member with same | later
    · cases same
      simp [answerTo]
    · have different : r' ≠ r := by
        rintro rfl
        exact fresh (List.mem_map.mpr ⟨_, later, rfl⟩)
      simpa [answerTo, different] using ih unique later

theorem answerTo_append_self {l : List ((r : R) × A r)} {r : R} (fresh : r ∉ l.map Sigma.fst)
    (a : A r) : answerTo (l ++ [⟨r, a⟩]) r = some a := by
  induction l with
  | nil => simp [answerTo]
  | cons x rest ih =>
    obtain ⟨r', b⟩ := x
    simp only [List.map_cons, List.mem_cons, not_or] at fresh
    simp [answerTo, Ne.symm fresh.1, ih fresh.2]

theorem answerTo_append_other {l : List ((r : R) × A r)} {r r' : R} (different : r' ≠ r)
    (a : A r') : answerTo (l ++ [⟨r', a⟩]) r = answerTo l r := by
  induction l with
  | nil => simp [answerTo, different]
  | cons x rest ih =>
    obtain ⟨r'', b⟩ := x
    simp only [List.cons_append, answerTo, ih]

/-- Without repeated requests, reading the replies is reading the answer to each request. -/
theorem filterMap_replies {l : List ((r : R) × A r)} (unique : (l.map Sigma.fst).Nodup) {γ : Type}
    (g : (r : R) → A r → Option γ) :
    l.filterMap (fun x => g x.1 x.2) =
      (l.map Sigma.fst).filterMap (fun r => (answerTo l r).bind (g r)) := by
  rw [List.filterMap_map]
  apply List.filterMap_congr
  intro x member
  obtain ⟨r, a⟩ := x
  simp [Function.comp, mem_answerTo unique member]

end Answers

/-! ### Calls -/

structure Call (P : Program ε) where
  input : P.Input
  startedIn : ε
  vars : P.Vars
  waiting : List P.Request
  replies : Replies P
  delivered : Replies P
  queue : List P.Block
  reports : List P.Report

namespace Call

variable {P : Program ε}

def absorb (c : Call P) (f : P.Frame) : Call P :=
  { c with
    vars := f.vars
    waiting := c.waiting ++ f.sent
    queue := c.queue ++ f.queued
    reports := c.reports ++ f.reported }

def init (e : ε) (input : P.Input) (f : P.Frame) : Call P where
  input := input
  startedIn := e
  vars := f.vars
  waiting := f.sent
  replies := []
  delivered := []
  queue := f.queued
  reports := f.reported

/-- The service has decided the answer to one request. -/
def served (c : Call P) (rest : List P.Request) (r : P.Request) (a : P.Answer r) : Call P :=
  { c with waiting := rest, replies := ⟨r, a⟩ :: c.replies }

/-- One reply leaves the network and its callback is about to run. -/
def took (c : Call P) (rest : Replies P) (r : P.Request) (a : P.Answer r) : Call P :=
  { c with replies := rest, delivered := c.delivered ++ [⟨r, a⟩] }

/-- The main queue hands out the first block. -/
def popped (c : Call P) (rest : List P.Block) : Call P := { c with queue := rest }

/-- Requests whose callback has not run. -/
def outstanding (c : Call P) : List P.Request := c.waiting ++ c.replies.map Sigma.fst

/-- Every request the call has sent. -/
def requests (c : Call P) : List P.Request := c.outstanding ++ c.delivered.map Sigma.fst

/-- Every answer the service has decided, delivered or not. -/
def answers (c : Call P) : Replies P := c.replies ++ c.delivered

/-- All callbacks delivered and the queue drained. -/
def Finished (c : Call P) : Prop := c.outstanding = [] ∧ c.queue = []

inductive Event (P : Program ε) where
  | serve (r : P.Request) (a : P.Answer r)
  | deliver (r : P.Request) (a : P.Answer r)
  | block (b : P.Block)

/-- Requests are served and replies delivered in any order, blocks first in first out. -/
inductive Step (e : ε) : Call P → Event P → Call P → Prop where
  | serve {c : Call P} {r : P.Request} {rest : List P.Request} (a : P.Answer r)
      (sent : c.waiting.Perm (r :: rest)) : Step e c (.serve r a) (c.served rest r a)
  | deliver {c : Call P} {r : P.Request} {a : P.Answer r} {rest : Replies P}
      {f : P.Frame} (arrived : c.replies.Perm (⟨r, a⟩ :: rest))
      (ran : P.reply e c.vars r a = .ok f) : Step e c (.deliver r a) ((c.took rest r a).absorb f)
  | block {c : Call P} {b : P.Block} {rest : List P.Block}
      {f : P.Frame} (next : c.queue = b :: rest)
      (ran : P.block e c.vars b = .ok f) : Step e c (.block b) ((c.popped rest).absorb f)

/-- Some callback or block the call is about to run stops the program. -/
inductive Traps (e : ε) (c : Call P) (t : Trap) : Prop where
  | deliver {r : P.Request} {a : P.Answer r} (arrived : ⟨r, a⟩ ∈ c.replies)
      (ran : P.reply e c.vars r a = .error t) : Traps e c t
  | block {b : P.Block} {rest : List P.Block} (next : c.queue = b :: rest)
      (ran : P.block e c.vars b = .error t) : Traps e c t

/-- Calls reached by steps that each satisfy `A`. -/
inductive Reachable (A : ε → Call P → Event P → Prop) : Call P → Prop where
  | start {e : ε} {input : P.Input} {f : P.Frame}
      (ran : P.start e input = .ok f) : Reachable A (init e input f)
  | step {c c' : Call P} {e : ε} {ev : Event P} (before : Reachable A c) (allowed : A e c ev)
      (stepped : c.Step e ev c') : Reachable A c'

/-- Every step is allowed. -/
abbrev AnyStep : ε → Call P → Event P → Prop := fun _ _ _ => True

theorem Reachable.weaken {A B : ε → Call P → Event P → Prop} {c : Call P}
    (sub : ∀ e c ev, A e c ev → B e c ev) (h : Reachable A c) : Reachable B c := by
  induction h with
  | start ran => exact .start ran
  | step _ allowed stepped ih => exact .step ih (sub _ _ _ allowed) stepped

/-- What every closure keeps of the captured variables. -/
theorem Reachable.vars {A : ε → Call P → Event P → Prop} {Q : P.Input → P.Vars → Prop} {c : Call P}
    (h : Reachable A c) (starts : ∀ e input f, P.start e input = .ok f → Q input f.vars)
    (replies : ∀ e input v r a f, Q input v → P.reply e v r a = .ok f → Q input f.vars)
    (blocks : ∀ e input v b f, Q input v → P.block e v b = .ok f → Q input f.vars) : Q c.input c.vars := by
  induction h with
  | start ran => exact starts _ _ _ ran
  | step _ _ stepped ih =>
    cases stepped with
    | serve a sent => exact ih
    | deliver arrived ran => exact replies _ _ _ _ _ _ ih ran
    | block next ran => exact blocks _ _ _ _ _ ih ran

theorem Step.startedIn {e : ε} {c c' : Call P} {ev : Event P} (h : c.Step e ev c') :
    c'.startedIn = c.startedIn := by
  cases h <;> rfl

theorem Step.input {e : ε} {c c' : Call P} {ev : Event P} (h : c.Step e ev c') :
    c'.input = c.input := by
  cases h <;> rfl

/-- What was asked of the session of the start holds of the one session the call started in. -/
theorem Reachable.settle {B : ε → ε → Event P → Prop} {c : Call P}
    (h : Reachable (fun e c ev => B c.startedIn e ev) c) :
    Reachable (fun e _ ev => B c.startedIn e ev) c := by
  induction h with
  | start ran => exact .start ran
  | step _ allowed stepped ih =>
    rw [stepped.startedIn]
    exact .step ih allowed stepped

/-! ### What a step does to the requests -/

theorem outstanding_served {c : Call P} {r : P.Request} {rest : List P.Request} (a : P.Answer r)
    (sent : c.waiting.Perm (r :: rest)) : (c.served rest r a).outstanding.Perm c.outstanding := by
  have moved : (rest ++ r :: c.replies.map Sigma.fst).Perm (r :: rest ++ c.replies.map Sigma.fst) :=
    List.perm_middle
  exact moved.trans (sent.symm.append_right _)

theorem outstanding_took {c : Call P} {r : P.Request} {a : P.Answer r} {rest : Replies P}
    (arrived : c.replies.Perm (⟨r, a⟩ :: rest)) :
    c.outstanding.Perm (r :: (c.took rest r a).outstanding) :=
  ((arrived.map Sigma.fst).append_left c.waiting).trans List.perm_middle

theorem outstanding_absorb (c : Call P) (f : P.Frame) :
    (c.absorb f).outstanding.Perm (c.outstanding ++ f.sent) := by
  simp only [outstanding, absorb, List.append_assoc]
  exact List.perm_append_comm.append_left _

theorem requests_served {c : Call P} {r : P.Request} {rest : List P.Request} (a : P.Answer r)
    (sent : c.waiting.Perm (r :: rest)) : (c.served rest r a).requests.Perm c.requests :=
  (outstanding_served a sent).append_right _

theorem requests_took {c : Call P} {r : P.Request} {a : P.Answer r} {rest : Replies P}
    (arrived : c.replies.Perm (⟨r, a⟩ :: rest)) : (c.took rest r a).requests.Perm c.requests := by
  have taken := (outstanding_took arrived).append_right (c.delivered.map Sigma.fst)
  have moved : ((c.took rest r a).outstanding ++ (c.delivered.map Sigma.fst ++ [r])).Perm
      (r :: (c.took rest r a).outstanding ++ c.delivered.map Sigma.fst) := by
    rw [← List.append_assoc]
    exact List.perm_append_singleton _ _
  simpa [requests, took] using moved.trans taken.symm

theorem requests_absorb (c : Call P) (f : P.Frame) :
    (c.absorb f).requests.Perm (c.requests ++ f.sent) := by
  have grown := (outstanding_absorb c f).append_right (c.delivered.map Sigma.fst)
  refine grown.trans ?_
  simp only [requests, List.append_assoc]
  exact List.perm_append_comm.append_left _

theorem delivered_mem_requests {c : Call P} {r : P.Request}
    (member : r ∈ c.delivered.map Sigma.fst) : r ∈ c.requests :=
  List.mem_append_right _ member

theorem reply_mem_requests {c : Call P} {r : P.Request} {a : P.Answer r}
    (member : ⟨r, a⟩ ∈ c.replies) : r ∈ c.requests :=
  List.mem_append_left _ (List.mem_append_right _ (List.mem_map_of_mem member))

theorem answered_requested {c : Call P} {r : P.Request} {a : P.Answer r}
    (answered : ⟨r, a⟩ ∈ c.answers) : r ∈ c.requests := by
  rcases List.mem_append.mp answered with arrived | delivered
  · exact reply_mem_requests arrived
  · exact delivered_mem_requests (List.mem_map_of_mem delivered)

theorem deliver_requests {c : Call P} {r : P.Request} {a : P.Answer r} {rest : Replies P}
    (arrived : c.replies.Perm (⟨r, a⟩ :: rest)) (f : P.Frame) :
    ((c.took rest r a).absorb f).requests.Perm (c.requests ++ f.sent) :=
  (requests_absorb _ f).trans ((requests_took arrived).append_right _)

theorem deliver_length {c : Call P} {r : P.Request} {a : P.Answer r} {rest : Replies P}
    (arrived : c.replies.Perm (⟨r, a⟩ :: rest)) (f : P.Frame) :
    ((c.took rest r a).absorb f).outstanding.length + 1 = c.outstanding.length + f.sent.length := by
  have taken := (outstanding_took arrived).length_eq
  have grown := (outstanding_absorb (c.took rest r a) f).length_eq
  rw [List.length_append] at grown
  rw [List.length_cons] at taken
  omega

/-- The only request of a call is answered: what its callback sends is outstanding now. -/
theorem deliver_first {c : Call P} {q : P.Request} {a : P.Answer q} {rest : Replies P}
    (requests : c.requests.Perm [q]) (delivered : c.delivered = [])
    (arrived : c.replies.Perm (⟨q, a⟩ :: rest)) (f : P.Frame) :
    ((c.took rest q a).absorb f).delivered = [⟨q, a⟩] ∧
      ((c.took rest q a).absorb f).requests.Perm (q :: f.sent) ∧
      ((c.took rest q a).absorb f).outstanding.length = f.sent.length := by
  have sole : c.outstanding.length = 1 := by
    have total := requests.length_eq
    rwa [Call.requests, delivered, List.map_nil, List.append_nil] at total
  have counted := deliver_length arrived f
  refine ⟨?_, (deliver_requests arrived f).trans (requests.append_right _), by omega⟩
  show c.delivered ++ [⟨q, a⟩] = [⟨q, a⟩]
  rw [delivered, List.nil_append]

/-- A request found after a step was there before or has just been sent. -/
theorem Step.new_request {e : ε} {c c' : Call P} {ev : Event P} (h : c.Step e ev c')
    {r : P.Request} (member : r ∈ c'.requests) :
    r ∈ c.requests ∨
      (∃ q a f, ev = .deliver q a ∧ q ∈ c.requests ∧ P.reply e c.vars q a = .ok f ∧ r ∈ f.sent) ∨
      (∃ b f, ev = .block b ∧ P.block e c.vars b = .ok f ∧ r ∈ f.sent) := by
  cases h with
  | serve a sent => exact Or.inl ((requests_served a sent).mem_iff.mp member)
  | @deliver q a rest f arrived ran =>
    rcases List.mem_append.mp ((deliver_requests arrived f).mem_iff.mp member) with old | new
    · exact Or.inl old
    · have asked : q ∈ c.requests := reply_mem_requests (arrived.mem_iff.mpr List.mem_cons_self)
      exact Or.inr (Or.inl ⟨q, a, f, rfl, asked, ran, new⟩)
  | @block b rest f next ran =>
    rcases List.mem_append.mp ((requests_absorb _ f).mem_iff.mp member) with old | new
    · exact Or.inl old
    · exact Or.inr (Or.inr ⟨b, f, rfl, ran, new⟩)

/-- When one request is outstanding, its callback leaves what it sends itself. -/
theorem deliver_single {c : Call P} {q r : P.Request} {a : P.Answer r} {rest : Replies P}
    (single : c.outstanding = [q]) (arrived : c.replies.Perm (⟨r, a⟩ :: rest)) (f : P.Frame) :
    r = q ∧ ((c.took rest r a).absorb f).outstanding = f.sent := by
  have taken := outstanding_took arrived
  rw [single] at taken
  have empty : (c.took rest r a).outstanding = [] :=
    List.length_eq_zero_iff.mp (Nat.succ.inj taken.length_eq).symm
  rw [empty] at taken
  refine ⟨(List.cons.inj taken.singleton_eq).1.symm, ?_⟩
  simp only [outstanding, List.append_eq_nil_iff, List.map_eq_nil_iff] at empty
  simp [outstanding, absorb, empty.1, empty.2]

theorem deliver_outstanding {c : Call P} {r : P.Request} {a : P.Answer r} {rest : Replies P}
    (arrived : c.replies.Perm (⟨r, a⟩ :: rest)) {f : P.Frame} (quiet : f.sent = []) :
    c.outstanding.Perm (r :: ((c.took rest r a).absorb f).outstanding) := by
  have same : ((c.took rest r a).absorb f).outstanding = (c.took rest r a).outstanding := by
    simp [outstanding, absorb, quiet]
  rw [same]
  exact outstanding_took arrived

theorem block_requests (c : Call P) (rest : List P.Block) (f : P.Frame) (quiet : f.sent = []) :
    ((c.popped rest).absorb f).outstanding = c.outstanding ∧
      ((c.popped rest).absorb f).requests = c.requests := by
  simp [requests, outstanding, absorb, popped, quiet]

/-- When no request is sent twice, a reply that arrives was not delivered before. -/
theorem reply_fresh {c : Call P} {r : P.Request} {a : P.Answer r} (unique : c.requests.Nodup)
    (arrived : ⟨r, a⟩ ∈ c.replies) : r ∉ c.delivered.map Sigma.fst := by
  have pending : r ∈ c.outstanding :=
    List.mem_append_right _ (List.mem_map.mpr ⟨_, arrived, rfl⟩)
  exact fun again => (List.nodup_append.mp unique).2.2 r pending r again rfl

/-- When no request is sent twice, a request has one answer. -/
theorem answers_unique {c : Call P} (unique : c.requests.Nodup) :
    (c.answers.map Sigma.fst).Nodup := by
  have tail : (c.answers.map Sigma.fst).Sublist c.requests := by
    simp only [answers, requests, outstanding, List.map_append, List.append_assoc]
    exact List.sublist_append_right _ _
  exact tail.nodup unique

theorem answer_eq {c : Call P} [DecidableEq P.Request] (unique : c.requests.Nodup) {r : P.Request}
    {a b : P.Answer r} (first : ⟨r, a⟩ ∈ c.answers) (second : ⟨r, b⟩ ∈ c.answers) : a = b :=
  Option.some.inj ((mem_answerTo (answers_unique unique) first).symm.trans
    (mem_answerTo (answers_unique unique) second))

theorem outstanding_ne_nil {c : Call P} {r : P.Request} {a : P.Answer r}
    (arrived : ⟨r, a⟩ ∈ c.replies) : c.outstanding ≠ [] :=
  List.ne_nil_of_mem (List.mem_append_right _ (List.mem_map.mpr ⟨_, arrived, rfl⟩) :
    r ∈ c.outstanding)

/-- The one request of a call that has heard nothing is still to be answered. -/
theorem unanswered {c : Call P} {r : P.Request} (requests : c.requests.Perm [r]) (delivered : c.delivered = []) :
    c.outstanding ≠ [] := by
  intro closed
  have pending := requests.length_eq
  rw [Call.requests, closed, delivered] at pending
  cases pending

@[simp] theorem absorb_queue (c : Call P) (f) : (c.absorb f).queue = c.queue ++ f.queued := rfl

theorem answers_took {c : Call P} {r : P.Request} {a : P.Answer r} {rest : Replies P}
    (arrived : c.replies.Perm (⟨r, a⟩ :: rest)) : (c.took rest r a).answers.Perm c.answers := by
  have moved : (c.took rest r a).answers.Perm (⟨r, a⟩ :: rest ++ c.delivered) := by
    simp only [answers, took, ← List.append_assoc]
    exact List.perm_append_singleton _ _
  exact moved.trans (arrived.symm.append_right _)

theorem Step.answers_grow {e : ε} {c c' : Call P} {ev : Event P} (h : c.Step e ev c')
    {x : (r : P.Request) × P.Answer r} (given : x ∈ c.answers) : x ∈ c'.answers := by
  cases h with
  | serve a sent => exact List.mem_cons_of_mem _ given
  | deliver arrived ran => exact (answers_took arrived).mem_iff.mpr given
  | block next ran => exact given

end Call

end Async
