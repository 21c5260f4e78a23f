import Mathlib.Algebra.GroupWithZero.Nat
import SimpleSNS.APIHandler.Handler

/-!
What a call of `addNewPost` goes through when its second reading of the uid agrees with the
first. The post is written first; then the two halves of the join are outstanding, a half that
succeeds leaves the group and a half that fails reports its error.
-/

namespace SimpleSNS.AddNewPost
open Async

/-- The write of the post, as the session of the start words it. -/
def postWrite (e : Session) (input : Input) : Request :=
  .setValue input.postKey input.postString input.time (getCurrentUid e)

def fileWrite (input : Input) : Request := .addPostStorage input.postKey input.postImg

def refWrite (e : Session) (input : Input) : Request :=
  .addPostRefCurrentUser (getCurrentUid e) input.postKey

/-- The three writes of a call. -/
def writes (e : Session) (input : Input) : List Request :=
  [postWrite e input, fileWrite input, refWrite e input]

theorem writes_nodup (e : Session) (input : Input) : (writes e input).Nodup := by
  simp [writes, postWrite, fileWrite, refWrite]

/-- The uid is read again when the post has been written; it is then the same. -/
def Steady (e : Session) (c : Call addNewPost) : Call.Event addNewPost → Prop
  | .deliver (.setValue _ _ _ _) none => getCurrentUid e = getCurrentUid c.startedIn
  | _ => True

/-! ### The two halves -/

def isHalf : Request → Bool
  | .setValue _ _ _ _ => false
  | .addPostStorage _ _ => true
  | .addPostRefCurrentUser _ _ => true

def left (r : Request) (error : Option Error) : Nat :=
  if isHalf r ∧ error = none then 1 else 0

def failure (r : Request) (error : Option Error) : List (Option Error) :=
  if isHalf r ∧ error ≠ none then [error] else []

/-- How often the group has been left. -/
def successes (delivered : Replies addNewPost) : Nat :=
  (delivered.map fun answered => left answered.1 answered.2).sum

/-- The errors the halves have reported. -/
def failures (delivered : Replies addNewPost) : List (Option Error) :=
  delivered.flatMap fun answered => failure answered.1 answered.2

theorem successes_append (delivered : Replies addNewPost) (r : Request) (error : Option Error) :
    successes (delivered ++ [⟨r, error⟩]) = successes delivered + left r error := by
  simp [successes]

theorem failures_append (delivered : Replies addNewPost) (r : Request) (error : Option Error) :
    failures (delivered ++ [⟨r, error⟩]) = failures delivered ++ failure r error := by
  simp [failures]

theorem left_failure (r : Request) (error : Option Error) :
    left r error + (failure r error).length = [r].countP isHalf := by
  unfold left failure
  rw [List.countP_cons, List.countP_nil]
  cases isHalf r with
  | false => simp
  | true => cases error <;> simp

/-- Every half that has been answered has either left the group or reported. -/
theorem halves_answered (delivered : Replies addNewPost) :
    successes delivered + (failures delivered).length =
      (delivered.map Sigma.fst).countP isHalf := by
  induction delivered with
  | nil => rfl
  | cons answered rest ih =>
    have one := left_failure answered.1 answered.2
    have counted : successes (answered :: rest) = left answered.1 answered.2 + successes rest := by
      simp [successes]
    have reported : failures (answered :: rest) = failure answered.1 answered.2 ++ failures rest := rfl
    rw [List.countP_cons, List.countP_nil] at one
    rw [counted, reported, List.length_append, List.map_cons, List.countP_cons]
    omega

theorem failures_errors (delivered : Replies addNewPost) : none ∉ failures delivered := by
  intro member
  obtain ⟨answered, _, reported⟩ := List.mem_flatMap.mp member
  unfold failure at reported
  split at reported
  · rename_i failed
    exact failed.2 (List.mem_singleton.mp reported).symm
  · cases reported

theorem successes_pos {delivered : Replies addNewPost} {r : Request} (half : isHalf r)
    (answered : ⟨r, none⟩ ∈ delivered) : 0 < successes delivered := by
  obtain ⟨before, after, rfl⟩ := List.append_of_mem answered
  have one : left r none = 1 := if_pos ⟨half, rfl⟩
  simp only [successes, List.map_append, List.map_cons, List.sum_append, List.sum_cons, one]
  omega

theorem mem_failures {delivered : Replies addNewPost} {r : Request} {error : Error}
    (half : isHalf r) (answered : ⟨r, some error⟩ ∈ delivered) : some error ∈ failures delivered := by
  refine List.mem_flatMap.mpr ⟨_, answered, ?_⟩
  unfold failure
  rw [if_pos ⟨half, by simp⟩]
  exact List.mem_singleton_self _

theorem failures_none {delivered : Replies addNewPost}
    (succeeded : ∀ r a, ⟨r, a⟩ ∈ delivered → a = none) : failures delivered = [] := by
  apply List.eq_nil_iff_forall_not_mem.mpr
  intro error reported
  obtain ⟨⟨r, a⟩, member, failed⟩ := List.mem_flatMap.mp reported
  unfold failure at failed
  split at failed
  · rename_i wrong
    exact wrong.2 (succeeded r a member)
  · cases failed

/-! ### The phases of a call -/

inductive Join (c : Call addNewPost) : Prop where
  | waiting (more : successes c.delivered < 2)
      (count : c.vars.postDispatchGroup.count + successes c.delivered = 2)
      (pending : c.vars.postDispatchGroup.pending = [.complete])
      (queue : c.queue = []) (reports : c.reports = failures c.delivered)
  | joined (all : successes c.delivered = 2) (queue : c.queue = [.complete])
      (reports : c.reports = failures c.delivered)
  | completed (all : successes c.delivered = 2) (queue : c.queue = [])
      (reports : c.reports = failures c.delivered ++ [none])

inductive Phase (c : Call addNewPost) : Prop where
  | writing (requests : c.requests.Perm [postWrite c.startedIn c.input])
      (delivered : c.delivered = []) (group : c.vars.postDispatchGroup = .new)
      (queue : c.queue = []) (reports : c.reports = [])
  | refused (error : Error) (requests : c.requests.Perm [postWrite c.startedIn c.input])
      (delivered : c.delivered = [⟨postWrite c.startedIn c.input, some error⟩])
      (queue : c.queue = []) (reports : c.reports = [some error])
  | joining (requests : c.requests.Perm (writes c.startedIn c.input))
      (posted : ⟨postWrite c.startedIn c.input, none⟩ ∈ c.delivered) (join : Join c)

structure Progress (c : Call addNewPost) : Prop where
  input : c.vars.input = c.input
  phase : Phase c

variable {c : Call addNewPost}

theorem Phase.sent_subset (phase : Phase c) : c.requests ⊆ writes c.startedIn c.input := by
  cases phase with
  | writing requests =>
    intro r sent
    obtain rfl := List.mem_singleton.mp (requests.mem_iff.mp sent)
    exact List.mem_cons_self
  | refused error requests =>
    intro r sent
    obtain rfl := List.mem_singleton.mp (requests.mem_iff.mp sent)
    exact List.mem_cons_self
  | joining requests => exact requests.subset

theorem Phase.unique (phase : Phase c) : c.requests.Nodup := by
  cases phase with
  | writing requests => exact requests.nodup_iff.mpr (List.nodup_singleton _)
  | refused error requests => exact requests.nodup_iff.mpr (List.nodup_singleton _)
  | joining requests => exact requests.nodup_iff.mpr (writes_nodup _ _)

/-- A half that is still outstanding leaves room for another success. -/
theorem room {r : Request} {a : Option Error} (requests : c.requests.Perm (writes c.startedIn c.input))
    (arrived : ⟨r, a⟩ ∈ c.replies) (half : isHalf r) :
    successes c.delivered + (failures c.delivered).length < 2 := by
  have answered := halves_answered c.delivered
  have pending : 0 < c.outstanding.countP isHalf := by
    apply List.countP_pos_iff.mpr
    exact ⟨r, List.mem_append_right _ (List.mem_map_of_mem arrived), half⟩
  have all := requests.countP_eq isHalf
  rw [Call.requests, List.countP_append] at all
  have two : (writes c.startedIn c.input).countP isHalf = 2 := rfl
  omega

theorem Phase.served {r : Request} {rest : List Request} (a : Option Error)
    (sent : c.waiting.Perm (r :: rest)) (phase : Phase c) : Phase (c.served rest r a) := by
  have same := Call.requests_served a sent
  cases phase with
  | writing requests delivered group queue reports =>
    exact .writing (same.trans requests) delivered group queue reports
  | refused error requests delivered queue reports =>
    exact .refused error (same.trans requests) delivered queue reports
  | joining requests posted join =>
    refine .joining (same.trans requests) posted ?_
    cases join with
    | waiting more count pending queue reports => exact .waiting more count pending queue reports
    | joined all queue reports => exact .joined all queue reports
    | completed all queue reports => exact .completed all queue reports

theorem Progress.posted {e : Session} {error : Option Error} {rest : Replies addNewPost}
    {f : addNewPost.Frame} (progress : Progress c) (arrived : c.replies.Perm (⟨postWrite c.startedIn c.input, error⟩ :: rest))
    (same : error = none → getCurrentUid e = getCurrentUid c.startedIn)
    (ran : onSetValue e c.vars error = .ok f) :
    Progress ((c.took rest (postWrite c.startedIn c.input) error).absorb f) := by
  have member : ⟨postWrite c.startedIn c.input, error⟩ ∈ c.replies :=
    arrived.mem_iff.mpr List.mem_cons_self
  have fresh := Call.reply_fresh progress.phase.unique member
  cases progress.phase with
  | refused error' requests delivered =>
    rw [delivered] at fresh
    exact absurd List.mem_cons_self fresh
  | joining requests posted =>
    exact absurd (List.mem_map_of_mem posted) fresh
  | writing requests delivered group queue reports =>
    obtain ⟨delivered_after, requests_after, _⟩ :=
      Call.deliver_first requests delivered arrived f
    change c.delivered ++ _ = _ at delivered_after
    cases error with
    | some error =>
      obtain rfl := Except.ok.inj ran
      refine ⟨progress.input, .refused error requests_after delivered_after ?_ ?_⟩
      · show c.queue ++ [] = []
        rw [queue, List.nil_append]
      · show c.reports ++ [some error] = [some error]
        rw [reports, List.nil_append]
    | none =>
      have positive : 0 < c.vars.postDispatchGroup.enter.enter.count := Nat.succ_pos _
      obtain rfl := onSetValue_ok ran
      have sent : (joining e c.vars).sent = [fileWrite c.input, refWrite c.startedIn c.input] := by
        simp only [joining, fileWrite, refWrite, progress.input, same rfl]
      rw [sent] at requests_after
      refine ⟨progress.input, .joining requests_after
        (List.mem_append_right _ List.mem_cons_self) ?_⟩
      have none_left : successes (c.delivered ++ [⟨postWrite c.startedIn c.input, none⟩]) = 0 := by
        rw [delivered_after]
        rfl
      refine .waiting ?_ ?_ ?_ ?_ ?_
      · show successes (c.delivered ++ [⟨postWrite c.startedIn c.input, none⟩]) < 2
        omega
      · show (c.vars.postDispatchGroup.enter.enter.notify .complete).1.count +
          successes (c.delivered ++ [⟨postWrite c.startedIn c.input, none⟩]) = 2
        rw [none_left, DispatchGroup.notify_count, group]
        rfl
      · show (c.vars.postDispatchGroup.enter.enter.notify .complete).1.pending = [.complete]
        rw [DispatchGroup.notify_pending positive, group]
        rfl
      · show c.queue ++ (c.vars.postDispatchGroup.enter.enter.notify .complete).2 = []
        rw [queue, DispatchGroup.notify_released positive]
        rfl
      · show c.reports ++ [] = failures (c.delivered ++ [⟨postWrite c.startedIn c.input, none⟩])
        rw [reports, delivered_after]
        rfl

theorem Join.half {r : Request} {error : Option Error} {rest : Replies addNewPost}
    {f : addNewPost.Frame} (join : Join c)
    (requests : c.requests.Perm (writes c.startedIn c.input))
    (arrived : c.replies.Perm (⟨r, error⟩ :: rest)) (half : isHalf r)
    (ran : onHalf c.vars error = .ok f) :
    f.sent = [] ∧ f.vars.input = c.vars.input ∧ Join ((c.took rest r error).absorb f) := by
  have open_half := room requests (arrived.mem_iff.mpr List.mem_cons_self) half
  cases join with
  | joined all => omega
  | completed all => omega
  | waiting more count pending queue reports =>
    cases error with
    | some error =>
      obtain rfl := Except.ok.inj ran
      have same : successes (c.delivered ++ [⟨r, some error⟩]) = successes c.delivered := by
        rw [successes_append, left, if_neg (by simp), Nat.add_zero]
      have reported : failures (c.delivered ++ [⟨r, some error⟩]) =
          failures c.delivered ++ [some error] := by
        rw [failures_append, failure, if_pos ⟨half, by simp⟩]
      refine ⟨rfl, rfl, .waiting ?_ ?_ pending ?_ ?_⟩
      · show successes (c.delivered ++ [⟨r, some error⟩]) < 2
        rw [same]
        exact more
      · show _ + successes (c.delivered ++ [⟨r, some error⟩]) = 2
        rw [same]
        exact count
      · show c.queue ++ [] = []
        rw [queue, List.nil_append]
      · show c.reports ++ [some error] = failures (c.delivered ++ [⟨r, some error⟩])
        rw [reported, reports]
    | none =>
      have one_more : successes (c.delivered ++ [⟨r, none⟩]) = successes c.delivered + 1 := by
        rw [successes_append, left, if_pos ⟨half, rfl⟩]
      have unreported : failures (c.delivered ++ [⟨r, none⟩]) = failures c.delivered := by
        rw [failures_append, failure, if_neg (by simp), List.append_nil]
      have positive : 0 < c.vars.postDispatchGroup.count := by omega
      obtain ⟨group, released, leaves, shape⟩ := DispatchGroup.leave_cases positive
      unfold onHalf at ran
      rw [leaves] at ran
      obtain rfl := Except.ok.inj ran
      have reports_after : c.reports ++ [] = failures (c.delivered ++ [⟨r, none⟩]) := by
        rw [List.append_nil, unreported, reports]
      refine ⟨rfl, rfl, ?_⟩
      rcases shape with ⟨last, rfl⟩ | ⟨rfl, lower, some_left, kept⟩
      · refine .joined ?_ ?_ reports_after
        · show successes (c.delivered ++ [⟨r, none⟩]) = 2
          omega
        · show c.queue ++ c.vars.postDispatchGroup.pending = _
          rw [queue, pending, List.nil_append]
      · refine .waiting ?_ ?_ (kept.trans pending) ?_ reports_after
        · show successes (c.delivered ++ [⟨r, none⟩]) < 2
          omega
        · show group.count + successes (c.delivered ++ [⟨r, none⟩]) = 2
          omega
        · show c.queue ++ [] = []
          rw [queue, List.nil_append]

theorem Progress.deliver {e : Session} {r : Request} {a : Option Error} {rest : Replies addNewPost}
    {f : addNewPost.Frame} (progress : Progress c) (steady : Steady e c (.deliver r a))
    (arrived : c.replies.Perm (⟨r, a⟩ :: rest)) (ran : reply e c.vars r a = .ok f) :
    Progress ((c.took rest r a).absorb f) := by
  have member : ⟨r, a⟩ ∈ c.replies := arrived.mem_iff.mpr List.mem_cons_self
  have sent := progress.phase.sent_subset (Call.reply_mem_requests member)
  by_cases half : isHalf r
  · have onHalf : reply e c.vars r a = onHalf c.vars a := by cases r <;> trivial
    cases progress.phase with
    | writing requests =>
      obtain rfl := List.mem_singleton.mp (requests.mem_iff.mp (Call.reply_mem_requests member))
      cases half
    | refused error requests =>
      obtain rfl := List.mem_singleton.mp (requests.mem_iff.mp (Call.reply_mem_requests member))
      cases half
    | joining requests posted join =>
      obtain ⟨quiet, kept, join'⟩ := join.half requests arrived half (onHalf.symm.trans ran)
      refine ⟨kept.trans progress.input, .joining ?_ (List.mem_append_left _ posted) join'⟩
      refine (Call.deliver_requests arrived f).trans ?_
      rw [quiet, List.append_nil]
      exact requests
  · obtain rfl : r = postWrite c.startedIn c.input := by
      rcases List.mem_cons.mp sent with same | later
      · exact same
      · rcases List.mem_cons.mp later with rfl | last
        · exact absurd rfl half
        · obtain rfl := List.mem_singleton.mp last
          exact absurd rfl half
    refine progress.posted arrived ?_ ran
    rintro rfl
    exact steady

theorem Progress.block (e : Session) {b : Block} {rest : List Block} {f : addNewPost.Frame}
    (progress : Progress c) (first : c.queue = b :: rest)
    (ran : AddNewPost.block e c.vars b = .ok f) : Progress ((c.popped rest).absorb f) := by
  obtain rfl : f = { vars := c.vars, reported := [none] } := by
    cases b
    exact (Except.ok.inj ran).symm
  have kept := Call.block_requests c rest { vars := c.vars, reported := [none] } rfl
  cases progress.phase with
  | writing _ _ _ queue => rw [queue] at first; cases first
  | refused _ _ _ queue => rw [queue] at first; cases first
  | joining requests posted join =>
    refine ⟨progress.input, .joining (.trans (.of_eq kept.2) requests) posted ?_⟩
    cases join with
    | waiting _ _ _ queue => rw [queue] at first; cases first
    | completed _ queue => rw [queue] at first; cases first
    | joined all queue reports =>
      rw [queue] at first
      obtain ⟨rfl, rfl⟩ := List.cons.inj first
      refine .completed all rfl ?_
      show c.reports ++ [none] = failures c.delivered ++ [none]
      rw [reports]

theorem step_progress {c' : Call addNewPost} {e : Session} {ev : Call.Event addNewPost}
    (progress : Progress c) (steady : Steady e c ev) (stepped : c.Step e ev c') : Progress c' := by
  cases stepped with
  | @serve r rest a sent => exact ⟨progress.input, progress.phase.served a sent⟩
  | @deliver r a rest f arrived ran => exact progress.deliver steady arrived ran
  | @block b rest f first ran => exact progress.block e first ran

theorem reachable_progress (reachable : c.Reachable Steady) : Progress c := by
  induction reachable with
  | @start e input f ran =>
    obtain rfl := Except.ok.inj ran
    exact ⟨rfl, .writing (.refl _) rfl rfl rfl rfl⟩
  | step _ steady stepped ih => exact step_progress ih steady stepped

/-! ### Reports of a finished call -/

/-- A finished call whose post was refused has reported that error, once. -/
theorem Progress.refused_report (progress : Progress c) (finished : c.Finished)
    (unposted : ⟨postWrite c.startedIn c.input, none⟩ ∉ c.delivered) :
    ∃ error, c.reports = [some error] ∧
      ∀ r ∈ c.requests, r = postWrite c.startedIn c.input := by
  cases progress.phase with
  | joining _ posted => exact absurd posted unposted
  | writing requests delivered =>
    exact absurd finished.1 (Call.unanswered requests delivered)
  | refused error requests _ _ reports =>
    refine ⟨error, reports, fun r sent => ?_⟩
    exact List.mem_singleton.mp (requests.mem_iff.mp sent)

/-- A finished call whose post was written has an answer from both halves. It reports success
when both succeeded, and the errors of the halves otherwise. -/
theorem Progress.joined_report (progress : Progress c) (finished : c.Finished)
    (posted : ⟨postWrite c.startedIn c.input, none⟩ ∈ c.delivered) :
    ∃ file ref, ⟨fileWrite c.input, file⟩ ∈ c.delivered ∧
      ⟨refWrite c.startedIn c.input, ref⟩ ∈ c.delivered ∧
      (file = none ∧ ref = none ∧ c.reports = [none] ∨
        (file ≠ none ∨ ref ≠ none) ∧ none ∉ c.reports ∧ c.reports ≠ [] ∧
          ((file = none ∨ ref = none) → c.reports.length = 1)) := by
  cases progress.phase with
  | writing _ delivered => rw [delivered] at posted; cases posted
  | refused error _ delivered =>
    rw [delivered] at posted
    cases List.mem_singleton.mp posted
  | joining requests _ join =>
    have unique := progress.phase.unique
    have total := halves_answered c.delivered
    have all := requests
    rw [Call.requests, finished.1, List.nil_append] at all
    rw [all.countP_eq isHalf, show (writes c.startedIn c.input).countP isHalf = 2 from rfl] at total
    have answered : ∀ r ∈ writes c.startedIn c.input, ∃ a, ⟨r, a⟩ ∈ c.delivered := by
      intro r asked
      obtain ⟨⟨r', a⟩, delivered, rfl⟩ := List.mem_map.mp (all.mem_iff.mpr asked)
      exact ⟨a, delivered⟩
    obtain ⟨file, file_answer⟩ := answered (fileWrite c.input) (by simp [writes])
    obtain ⟨ref, ref_answer⟩ := answered (refWrite c.startedIn c.input) (by simp [writes])
    refine ⟨file, ref, file_answer, ref_answer, ?_⟩
    by_cases both : file = none ∧ ref = none
    · obtain ⟨rfl, rfl⟩ := both
      have no_failure : failures c.delivered = [] := by
        apply failures_none
        intro r a delivered
        have asked := progress.phase.sent_subset
          (Call.delivered_mem_requests (List.mem_map_of_mem delivered))
        have known := List.mem_append_right c.replies delivered
        simp only [writes, List.mem_cons, List.not_mem_nil, or_false] at asked
        rcases asked with rfl | rfl | rfl
        · exact Call.answer_eq unique known (List.mem_append_right _ posted)
        · exact Call.answer_eq unique known (List.mem_append_right _ file_answer)
        · exact Call.answer_eq unique known (List.mem_append_right _ ref_answer)
      rw [no_failure] at total
      cases join with
      | waiting more => exact absurd total (Nat.ne_of_lt more)
      | joined _ queue => rw [finished.2] at queue; cases queue
      | completed _ _ reports =>
        refine Or.inl ⟨rfl, rfl, ?_⟩
        rw [reports, no_failure]
        rfl
    · have some_failure : 0 < (failures c.delivered).length := by
        apply List.length_pos_iff.mpr
        cases file with
        | some error => exact List.ne_nil_of_mem (mem_failures rfl file_answer)
        | none =>
          cases ref with
          | some error => exact List.ne_nil_of_mem (mem_failures rfl ref_answer)
          | none => exact absurd ⟨rfl, rfl⟩ both
      have reports : c.reports = failures c.delivered := by
        cases join with
        | waiting _ _ _ _ reports => exact reports
        | joined all_left => omega
        | completed all_left => omega
      refine Or.inr ⟨by rwa [← not_and_or], ?_, ?_, ?_⟩
      · rw [reports]
        exact failures_errors _
      · rw [reports]
        exact List.length_pos_iff.mp some_failure
      · intro one_succeeded
        have some_success : 0 < successes c.delivered := by
          rcases one_succeeded with rfl | rfl
          · exact successes_pos rfl file_answer
          · exact successes_pos rfl ref_answer
        rw [reports]
        omega

end SimpleSNS.AddNewPost
