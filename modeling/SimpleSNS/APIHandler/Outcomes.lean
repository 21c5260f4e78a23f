import SimpleSNS.APIHandler.Answers

/-!
What a finished call has reported, by the answers it was given. Most functions report once, with the
last answer; a new post reports each error and, without any, that it is there.
-/

namespace SimpleSNS
open Async

/-! ### One report -/

namespace SignIn

def GoesOn (_ : Request) (_ : Option String × Option Error) : Prop := False

def outcome (_ : Request) (answer : Option String × Option Error) : List (String × Option Error) :=
  (onResult answer.1 answer.2).reported

theorem concludes : Concludes signIn GoesOn outcome where
  start e input f ran := by
    obtain rfl := Except.ok.inj ran
    exact ⟨rfl, rfl⟩
  reply e v r answer f ran := by
    obtain rfl := Except.ok.inj ran
    refine Or.inr ⟨id, ?_, rfl⟩
    obtain ⟨_ | user, _ | error⟩ := answer <;> rfl
  block := inferInstanceAs (IsEmpty Empty)

end SignIn

namespace ForgotPassword

theorem concludes : Concludes forgotPassword (fun _ _ => False) (fun _ error => [error]) where
  start e input f ran := by
    obtain rfl := Except.ok.inj ran
    exact ⟨rfl, rfl⟩
  reply e v r error f ran := by
    obtain rfl := Except.ok.inj ran
    refine Or.inr ⟨id, ?_⟩
    cases error <;> exact ⟨rfl, rfl⟩
  block := inferInstanceAs (IsEmpty Empty)

end ForgotPassword

namespace SignUpNewUser

def GoesOn : (r : Request) → Answer r → Prop
  | .createUser _ _, (result, error) => result.isSome ∧ error = none
  | .setValue _ _, error => error = none
  | .uploadImage _ _, _ => False

def outcome : (r : Request) → Answer r → List Uploaded
  | .createUser _ _, (_, error) => error.toList.map fun error => (none, some error)
  | .setValue _ _, error => error.toList.map fun error => (none, some error)
  | .uploadImage userId _, error => [SimpleSNS.uploadImage userId error]

theorem concludes : Concludes signUpNewUser GoesOn outcome where
  start e input f ran := by
    obtain ⟨emailId, _, rest⟩ := bind_ok.mp ran
    obtain ⟨password, _, same⟩ := bind_ok.mp rest
    obtain rfl := Except.ok.inj same
    exact ⟨rfl, rfl⟩
  reply e v r answer f ran := by
    cases r with
    | createUser email password =>
      obtain ⟨_ | uid, _ | error⟩ := answer <;> obtain rfl := Except.ok.inj ran
      · exact Or.inr ⟨fun more => (nomatch more.1), rfl, rfl⟩
      · exact Or.inr ⟨fun more => (nomatch more.2), rfl, rfl⟩
      · exact Or.inl ⟨⟨rfl, rfl⟩, rfl, rfl⟩
      · exact Or.inr ⟨fun more => (nomatch more.2), rfl, rfl⟩
    | setValue uid userInfo =>
      obtain _ | error := answer
      · obtain rfl := reply_uploads (e := e) uid userInfo ran
        exact Or.inl ⟨rfl, rfl, rfl⟩
      · obtain rfl := Except.ok.inj ran
        exact Or.inr ⟨fun more => (nomatch more), rfl, rfl⟩
    | uploadImage userId img =>
      obtain rfl := Except.ok.inj ran
      exact Or.inr ⟨id, rfl, rfl⟩
  block := inferInstanceAs (IsEmpty Empty)

end SignUpNewUser

namespace UpdateUserInformation

def GoesOn : Request → Option Error → Prop
  | .updateChildValues _ _, error => error = none
  | .uploadImage _ _, _ => False

def outcome : Request → Option Error → List Uploaded
  | .updateChildValues _ _, error => error.toList.map fun error => (none, some error)
  | .uploadImage userId _, error => [SimpleSNS.uploadImage userId error]

theorem concludes : Concludes updateUserInformation GoesOn outcome where
  start e input f ran := by
    obtain rfl := Except.ok.inj ran
    exact ⟨rfl, rfl⟩
  reply e v r error f ran := by
    cases r with
    | updateChildValues uid userInfo =>
      obtain _ | error := error
      · obtain rfl := reply_uploads uid userInfo ran
        exact Or.inl ⟨rfl, rfl, rfl⟩
      · obtain rfl := Except.ok.inj ran
        exact Or.inr ⟨fun more => (nomatch more), rfl, rfl⟩
    | uploadImage userId img =>
      obtain rfl := Except.ok.inj ran
      exact Or.inr ⟨id, rfl, rfl⟩
  block := inferInstanceAs (IsEmpty Empty)

end UpdateUserInformation

/-! ### A new post -/

namespace AddNewPost

/-- The errors among the answers. -/
def errors (delivered : Replies addNewPost) : List (Option Error) :=
  (delivered.map fun answered => answered.2).filter Option.isSome

inductive Posting (c : Call addNewPost) : Prop where
  | writing (q : Request) (outstanding : c.outstanding = [q]) (post : ¬ isHalf q) (delivered : c.delivered = [])
      (group : c.vars.postDispatchGroup.count = 0) (queue : c.queue = []) (reports : c.reports = [])
  | refused (closed : c.outstanding = []) (failed : errors c.delivered ≠ []) (queue : c.queue = [])
      (reports : c.reports = errors c.delivered)
  | joining (halves : ∀ r ∈ c.outstanding, isHalf r)
      (count : c.vars.postDispatchGroup.count = c.outstanding.length + (errors c.delivered).length)
      (positive : 0 < c.vars.postDispatchGroup.count)
      (pending : c.vars.postDispatchGroup.pending = [.complete]) (queue : c.queue = [])
      (reports : c.reports = errors c.delivered)
  | joined (closed : c.outstanding = []) (answered : c.delivered ≠ []) (none_failed : errors c.delivered = [])
      (queue : c.queue = [.complete]) (reports : c.reports = [])
  | completed (closed : c.outstanding = []) (answered : c.delivered ≠ [])
      (none_failed : errors c.delivered = []) (queue : c.queue = []) (reports : c.reports = [none])

variable {c c' : Call addNewPost} {e : Session}

theorem errors_append (delivered : Replies addNewPost) (r : Request) (error : Option Error) :
    errors (delivered ++ [⟨r, error⟩]) = errors delivered ++ (error.toList.map some) := by
  cases error <;> simp [errors]

theorem onSetValue_posting {q : Request} {a : Option Error} {rest : Replies addNewPost}
    {f : addNewPost.Frame} (outstanding : c.outstanding = [q]) (group : c.vars.postDispatchGroup.count = 0)
    (delivered : c.delivered = []) (queue : c.queue = []) (reports : c.reports = [])
    (arrived : c.replies.Perm (⟨q, a⟩ :: rest)) (ran : onSetValue e c.vars a = .ok f) :
    Posting ((c.took rest q a).absorb f) := by
  obtain ⟨_, sent⟩ := Call.deliver_single outstanding arrived f
  have answered : ((c.took rest q a).absorb f).delivered = [⟨q, a⟩] := by
    show c.delivered ++ [_] = _
    rw [delivered, List.nil_append]
  cases a with
  | some error =>
    obtain rfl := Except.ok.inj ran
    refine .refused sent ?_ ?_ ?_
    · rw [answered]
      exact List.cons_ne_nil _ _
    · show c.queue ++ [] = []
      rw [queue, List.nil_append]
    · rw [answered]
      show c.reports ++ [some error] = [some error]
      rw [reports, List.nil_append]
  | none =>
    obtain rfl := onSetValue_ok ran
    have positive : 0 < c.vars.postDispatchGroup.enter.enter.count := Nat.succ_pos _
    have two : (c.vars.postDispatchGroup.enter.enter.notify .complete).1.count = 2 := by
      rw [DispatchGroup.notify_count, DispatchGroup.enter_count, DispatchGroup.enter_count, group]
    refine .joining ?_ ?_ ?_ ?_ ?_ ?_
    · rw [sent]
      simp [joining, isHalf]
    · rw [sent, answered]
      exact two
    · exact lt_of_lt_of_eq Nat.two_pos two.symm
    · show (c.vars.postDispatchGroup.enter.enter.notify .complete).1.pending = [.complete]
      rw [DispatchGroup.notify_pending positive, DispatchGroup.enter_pending,
        DispatchGroup.enter_pending, c.vars.postDispatchGroup.drained group, List.nil_append]
    · show c.queue ++ (c.vars.postDispatchGroup.enter.enter.notify .complete).2 = []
      rw [queue, DispatchGroup.notify_released positive]
      rfl
    · rw [answered]
      show c.reports ++ [] = []
      rw [reports, List.nil_append]

section Half
variable {r : Request} {rest : Replies addNewPost} {f : addNewPost.Frame} (halves : ∀ r ∈ c.outstanding, isHalf r)
  (count : c.vars.postDispatchGroup.count = c.outstanding.length + (errors c.delivered).length)
  (positive : 0 < c.vars.postDispatchGroup.count)
  (pending : c.vars.postDispatchGroup.pending = [.complete]) (queue : c.queue = [])
  (reports : c.reports = errors c.delivered)
include halves count positive pending queue reports

/-- A half that fails is reported and leaves the group open, for good. -/
theorem onHalf_failed {error : Error} (arrived : c.replies.Perm (⟨r, some error⟩ :: rest))
    (ran : onHalf c.vars (some error) = .ok f) : Posting ((c.took rest r (some error)).absorb f) := by
  have answered := errors_append c.delivered r (some error)
  obtain rfl := Except.ok.inj ran
  have fewer := Call.deliver_outstanding arrived (f := { vars := c.vars, reported := [some error] }) rfl
  refine .joining ?_ ?_ positive pending ?_ ?_
  · intro q member
    exact halves q (fewer.mem_iff.mpr (List.mem_cons_of_mem _ member))
  · show c.vars.postDispatchGroup.count = _ + (errors (c.delivered ++ [_])).length
    rw [count, fewer.length_eq, answered]
    simp
    omega
  · show c.queue ++ [] = []
    rw [queue, List.nil_append]
  · show c.reports ++ [some error] = errors (c.delivered ++ [_])
    rw [reports, answered]
    rfl

/-- A half that is done leaves the group; the last one to do so, if none failed, releases the completion. -/
theorem onHalf_done (arrived : c.replies.Perm (⟨r, none⟩ :: rest)) (ran : onHalf c.vars none = .ok f) :
    Posting ((c.took rest r none).absorb f) := by
  obtain ⟨⟨group, released⟩, left, same⟩ := bind_ok.mp ran
  have made : f = { vars := { c.vars with postDispatchGroup := group }, queued := released } :=
    (Except.ok.inj same).symm
  have grouped : f.vars.postDispatchGroup = group := by rw [made]
  have queued : f.queued = released := by rw [made]
  have silent : f.reported = [] := by rw [made]
  obtain ⟨lower, kept⟩ := DispatchGroup.leave_ok left
  change group.count + 1 = c.vars.postDispatchGroup.count at lower
  change released ++ group.pending = c.vars.postDispatchGroup.pending at kept
  have fewer := Call.deliver_outstanding arrived (show f.sent = [] by rw [made])
  have lengths := fewer.length_eq
  rw [List.length_cons] at lengths
  have errors_same : errors (c.delivered ++ [⟨r, none⟩]) = errors c.delivered := by
    rw [errors_append]
    exact List.append_nil _
  by_cases last : group.count = 0
  · rw [group.drained last, List.append_nil, pending] at kept
    have failed : errors c.delivered = [] := List.length_eq_zero_iff.mp (by omega)
    refine .joined (List.length_eq_zero_iff.mp (by omega)) (List.append_ne_nil_of_right_ne_nil _ nofun)
      (errors_same.trans failed) ?_ ?_
    · show c.queue ++ f.queued = _
      rw [queue, queued, kept, List.nil_append]
    · show c.reports ++ f.reported = []
      rw [reports, failed, silent, List.nil_append]
  · obtain ⟨group', left', lower', kept'⟩ :=
      DispatchGroup.leave_more (g := c.vars.postDispatchGroup) (by omega)
    obtain ⟨rfl, rfl⟩ := Prod.mk.inj (Except.ok.inj (left.symm.trans left'))
    refine .joining ?_ ?_ (grouped ▸ Nat.pos_of_ne_zero last) (grouped ▸ kept'.trans pending) ?_ ?_
    · intro q member
      exact halves q (fewer.mem_iff.mpr (List.mem_cons_of_mem _ member))
    · show f.vars.postDispatchGroup.count = _ + (errors (c.delivered ++ [_])).length
      rw [grouped, errors_same]
      omega
    · show c.queue ++ f.queued = []
      rw [queue, queued, List.nil_append]
    · show c.reports ++ f.reported = errors (c.delivered ++ [_])
      rw [reports, silent, errors_same, List.append_nil]

theorem onHalf_posting {a : Option Error} (arrived : c.replies.Perm (⟨r, a⟩ :: rest))
    (ran : onHalf c.vars a = .ok f) : Posting ((c.took rest r a).absorb f) := by
  cases a with
  | some error => exact onHalf_failed halves count positive pending queue reports arrived ran
  | none => exact onHalf_done halves count positive pending queue reports arrived ran

end Half

theorem step_posting {ev : Call.Event addNewPost} (posting : Posting c) (stepped : c.Step e ev c') :
    Posting c' := by
  cases stepped with
  | @serve r rest a sent =>
    have same := Call.outstanding_served a sent
    cases posting with
    | writing q outstanding post delivered group queue reports =>
      rw [outstanding] at same
      exact .writing q (List.perm_singleton.mp same) post delivered group queue reports
    | refused closed failed queue reports =>
      exact .refused (closed ▸ same).eq_nil failed queue reports
    | joining halves count positive pending queue reports =>
      refine .joining ?_ (count.trans (congrArg (· + _) same.length_eq.symm)) positive pending queue reports
      intro q member
      exact halves q (same.mem_iff.mp member)
    | joined closed answered none_failed queue reports =>
      exact .joined (closed ▸ same).eq_nil answered none_failed queue reports
    | completed closed answered none_failed queue reports =>
      exact .completed (closed ▸ same).eq_nil answered none_failed queue reports
  | @deliver r a rest f arrived ran =>
    have asked : r ∈ c.outstanding :=
      List.mem_append_right _ (List.mem_map_of_mem (arrived.mem_iff.mpr List.mem_cons_self))
    cases posting with
    | writing q outstanding post delivered group queue reports =>
      rw [outstanding] at asked
      obtain rfl := List.mem_singleton.mp asked
      cases r with
      | setValue =>
        exact onSetValue_posting outstanding group delivered queue reports arrived ran
      | addPostStorage => exact absurd rfl post
      | addPostRefCurrentUser => exact absurd rfl post
    | joining halves count positive pending queue reports =>
      have half := halves r asked
      cases r with
      | setValue => cases half
      | addPostStorage => exact onHalf_posting halves count positive pending queue reports arrived ran
      | addPostRefCurrentUser => exact onHalf_posting halves count positive pending queue reports arrived ran
    | refused closed => rw [closed] at asked; cases asked
    | joined closed => rw [closed] at asked; cases asked
    | completed closed => rw [closed] at asked; cases asked
  | @block b rest f next ran =>
    cases b
    obtain rfl := Except.ok.inj ran
    have same := (Call.block_requests c rest { vars := c.vars, reported := [none] } rfl).1
    cases posting with
    | writing _ _ _ _ _ queue => rw [queue] at next; cases next
    | refused _ _ queue => rw [queue] at next; cases next
    | joining _ _ _ _ queue => rw [queue] at next; cases next
    | completed _ _ _ queue => rw [queue] at next; cases next
    | joined closed answered none_failed queue reports =>
      rw [next] at queue
      obtain ⟨_, rfl⟩ := List.cons.inj queue
      refine .completed (same.trans closed) answered none_failed rfl ?_
      show c.reports ++ [none] = [none]
      rw [reports, List.nil_append]

/-- A finished call has reported each error it was given, as they came in, or else that it is done. -/
theorem finished_outcome (reachable : c.Reachable Call.AnyStep) (finished : c.Finished) :
    c.delivered ≠ [] ∧
      (errors c.delivered ≠ [] ∧ c.reports = errors c.delivered ∨
        errors c.delivered = [] ∧ c.reports = [none]) := by
  have posting : Posting c := by
    clear finished
    induction reachable with
    | start ran =>
      obtain rfl := Except.ok.inj ran
      exact .writing _ rfl (fun half => nomatch half) rfl rfl rfl rfl
    | step _ _ stepped ih => exact step_posting ih stepped
  have failed_answered : errors c.delivered ≠ [] → c.delivered ≠ [] := by
    intro failed nothing
    rw [nothing] at failed
    exact failed rfl
  cases posting with
  | writing q outstanding =>
    rw [finished.1] at outstanding
    cases outstanding
  | refused _ failed _ reports => exact ⟨failed_answered failed, Or.inl ⟨failed, reports⟩⟩
  | joining _ count positive _ _ reports =>
    rw [finished.1, List.length_nil, Nat.zero_add] at count
    have failed : errors c.delivered ≠ [] := List.length_pos_iff.mp (count ▸ positive)
    exact ⟨failed_answered failed, Or.inl ⟨failed, reports⟩⟩
  | joined _ _ _ queue =>
    rw [finished.2] at queue
    cases queue
  | completed _ answered none_failed _ reports => exact ⟨answered, Or.inr ⟨none_failed, reports⟩⟩

end AddNewPost

end SimpleSNS
