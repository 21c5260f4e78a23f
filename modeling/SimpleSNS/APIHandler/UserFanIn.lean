import SimpleSNS.APIHandler.Handler

/-!
What a call of `fetchAllUsers` goes through once `USER` has been read. One group counts the
pictures that are still outstanding; the block it releases leaves the outer group, entered
before the read, and only that releases the completion.
-/

namespace SimpleSNS.FetchAllUsers
open Async

/-- The request for the picture of one user. -/
def picture (user : String × Dict Json) : Request := .userImage (UserModel.decode user.1 user.2)

theorem picture_inj {x y : String × Dict Json} (same : picture x = picture y) : x.1 = y.1 := by
  have models : UserModel.decode x.1 x.2 = UserModel.decode y.1 y.2 := Request.userImage.inj same
  have ids := congrArg UserModel.userId models
  exact Option.some.inj ids

theorem pictures_nodup {users : List (String × Dict Json)} (unique : (users.map Prod.fst).Nodup) :
    (Request.users :: users.map picture).Nodup := by
  rw [List.nodup_cons]
  refine ⟨by simp [picture], ?_⟩
  apply List.Nodup.map_on _ (List.Nodup.of_map Prod.fst unique)
  intro x listed_x y listed_y same
  exact List.inj_on_of_nodup_map unique listed_x listed_y (picture_inj same)

/-- What one answer adds to the array when `uid` is signed in. -/
def entry (uid : String) : (r : Request) → Answer r → Option UserModel
  | .users, _ => none
  | .userImage userModel, img =>
    if userModel.userId = some uid then none
    else some { userModel with image := Download.image? img }

theorem entry_picture (uid : String) (user : String × Dict Json) (img : Download) :
    entry uid (picture user) img = if user.1 = uid then none
      else some { UserModel.decode user.1 user.2 with image := img.image? } := by
  by_cases same : user.1 = uid
  · rw [if_pos same]
    exact if_pos (congrArg some same)
  · rw [if_neg same]
    exact if_neg fun h => same (Option.some.inj h)

/-- The signed-in user is told apart from the others as `uid` would be. -/
def Steady (uid : String) (e : Session) : Call.Event fetchAllUsers → Prop
  | .deliver (.userImage userModel) _ =>
    userModel.userId = some (getCurrentUid e) ↔ userModel.userId = some uid
  | _ => True

theorem entry_steady {uid : String} {e : Session} {user : String × Dict Json} {img : Download}
    (steady : Steady uid e (.deliver (picture user) img)) :
    entry (getCurrentUid e) (picture user) img = entry uid (picture user) img := by
  have decided : user.1 = getCurrentUid e ↔ user.1 = uid := by
    have models : (UserModel.decode user.1 user.2).userId = some (getCurrentUid e) ↔
        (UserModel.decode user.1 user.2).userId = some uid := steady
    simpa using models
  simp only [entry_picture, decided]

/-- The array that the answers delivered so far have built. -/
def listed (uid : String) (delivered : Replies fetchAllUsers) : List UserModel :=
  delivered.filterMap fun answered => entry uid answered.1 answered.2

/-- A user's model with the picture of its own download. -/
def withPicture (delivered : Replies fetchAllUsers) (user : String × Dict Json) : UserModel :=
  { UserModel.decode user.1 user.2 with
    image := (answerTo delivered (picture user)).bind Download.image? }

/-! ### The loop over the users -/

structure Entered (s : State) (users : List (String × Dict Json)) (s' : State) : Prop where
  count : s'.vars.fetchUserComponentsGroup.count =
    s.vars.fetchUserComponentsGroup.count + users.length
  pending : s'.vars.fetchUserComponentsGroup.pending = s.vars.fetchUserComponentsGroup.pending
  outer : s'.vars.fetchUserGroup = s.vars.fetchUserGroup
  array : s'.vars.userInfoArray = s.vars.userInfoArray
  sent : s'.sent = s.sent ++ users.map picture
  queued : s'.queued = s.queued
  reported : s'.reported = s.reported

theorem forUsers_entered (s : State) (users : List (String × Dict Json)) :
    Entered s users (users.foldl forUser s) := by
  induction users generalizing s with
  | nil => exact ⟨rfl, rfl, rfl, rfl, by simp, rfl, rfl⟩
  | cons user rest ih =>
    have later := ih (forUser s user)
    rw [List.foldl_cons]
    refine ⟨?_, later.pending, later.outer, later.array, ?_, later.queued, later.reported⟩
    · rw [later.count]
      simp only [forUser, DispatchGroup.enter_count, List.length_cons]
      omega
    · rw [later.sent]
      simp [forUser, picture]

/-! ### The phases of a call -/

inductive Phase (c : Call fetchAllUsers) : Prop where
  | gathering (lookingUp : c.outstanding ≠ [])
      (count : c.vars.fetchUserComponentsGroup.count = c.outstanding.length)
      (pending : c.vars.fetchUserComponentsGroup.pending = [.leaveUserGroup])
      (outerCount : c.vars.fetchUserGroup.count = 1)
      (outerPending : c.vars.fetchUserGroup.pending = [.complete])
      (queue : c.queue = []) (reports : c.reports = [])
  | leaving (closed : c.outstanding = []) (outerCount : c.vars.fetchUserGroup.count = 1)
      (outerPending : c.vars.fetchUserGroup.pending = [.complete])
      (queue : c.queue = [.leaveUserGroup]) (reports : c.reports = [])
  | completing (closed : c.outstanding = []) (queue : c.queue = [.complete])
      (reports : c.reports = [])
  | completed (closed : c.outstanding = []) (queue : c.queue = [])
      (reports : c.reports = [some c.vars.userInfoArray])

/-- `USER` has been read as `users`, always with `uid` signed in. -/
structure Gathered (uid : String) (c : Call fetchAllUsers) (users : Dict (Dict Json)) : Prop where
  requests : c.requests.Perm (.users :: users.entries.map picture)
  array : c.vars.userInfoArray = listed uid c.delivered
  phase : Phase c

inductive Progress (uid : String) (c : Call fetchAllUsers) : Prop where
  | reading (vars : c.vars = { fetchUserGroup := DispatchGroup.new.enter })
      (requests : c.requests.Perm [.users]) (delivered : c.delivered = [])
      (queue : c.queue = []) (reports : c.reports = [])
  | refused (value : Json) (delivered : c.delivered = [⟨.users, value⟩])
      (cast : value.dictDict? = none) (requests : c.requests.Perm [.users])
      (queue : c.queue = []) (reports : c.reports = [none])
  | gathered (value : Json) (users : Dict (Dict Json)) (delivered : ⟨.users, value⟩ ∈ c.delivered)
      (cast : value.dictDict? = some users) (gathered : Gathered uid c users)

variable {uid : String} {c : Call fetchAllUsers} {users : Dict (Dict Json)}

theorem Gathered.unique (gathered : Gathered uid c users) : c.requests.Nodup :=
  gathered.requests.nodup_iff.mpr (pictures_nodup users.unique)

theorem Phase.served {r : Request} {rest : List Request} (a : Answer r)
    (sent : c.waiting.Perm (r :: rest)) (phase : Phase c) : Phase (c.served rest r a) := by
  have same := Call.outstanding_served a sent
  cases phase with
  | gathering lookingUp count pending outerCount outerPending queue reports =>
    refine .gathering ?_ (count.trans same.length_eq.symm) pending outerCount outerPending queue reports
    intro closed
    rw [closed] at same
    exact lookingUp same.symm.eq_nil
  | leaving closed outerCount outerPending queue reports =>
    exact .leaving (same.trans (closed ▸ .refl _)).eq_nil outerCount outerPending queue reports
  | completing closed queue reports =>
    exact .completing (same.trans (closed ▸ .refl _)).eq_nil queue reports
  | completed closed queue reports =>
    exact .completed (same.trans (closed ▸ .refl _)).eq_nil queue reports

theorem Gathered.pending_picture {value : Json} (gathered : Gathered uid c users)
    (read : ⟨.users, value⟩ ∈ c.delivered) {r : Request} {a : Answer r}
    (arrived : ⟨r, a⟩ ∈ c.replies) : ∃ user ∈ users.entries, r = picture user := by
  have sent := gathered.requests.mem_iff.mp (Call.reply_mem_requests arrived)
  have fresh := Call.reply_fresh gathered.unique arrived
  rcases List.mem_cons.mp sent with rfl | asked
  · exact absurd (List.mem_map.mpr ⟨_, read, rfl⟩) fresh
  · obtain ⟨user, member, rfl⟩ := List.mem_map.mp asked
    exact ⟨user, member, rfl⟩

/-- While a reply is outstanding the call is gathering. -/
theorem Phase.balanced (phase : Phase c) {r : Request} {a : Answer r}
    (arrived : ⟨r, a⟩ ∈ c.replies) : 0 < c.vars.fetchUserComponentsGroup.count := by
  have pending := Call.outstanding_ne_nil arrived
  cases phase with
  | gathering lookingUp count => exact count ▸ List.length_pos_iff.mpr lookingUp
  | leaving closed => exact absurd closed pending
  | completing closed => exact absurd closed pending
  | completed closed => exact absurd closed pending

theorem onUserImage_left {e : Session} {v : Vars} {user : String × Dict Json} {img : Download}
    {group : DispatchGroup Block} {released : List Block}
    (left : v.fetchUserComponentsGroup.leave = .ok (group, released)) :
    reply e v (picture user) img = .ok {
      vars := { v with
        userInfoArray :=
          v.userInfoArray ++ (entry (getCurrentUid e) (picture user) img).toList
        fetchUserComponentsGroup := group }
      queued := released } := by
  have appended : (if (UserModel.decode user.1 user.2).userId ≠ some (getCurrentUid e)
      then v.userInfoArray ++ [{ UserModel.decode user.1 user.2 with image := img.image? }]
      else v.userInfoArray) =
      v.userInfoArray ++ (entry (getCurrentUid e) (picture user) img).toList := by
    rw [entry_picture, UserModel.decode_userId]
    by_cases same : user.1 = getCurrentUid e
    · simp [same]
    · simp [same]
  rw [← appended]
  simp only [reply, picture, onUserImage]
  cases img with
  | image img => simp only [left]; rfl
  | undecodable => simp only [left]; rfl
  | failed error => simp only [left]; rfl

theorem Gathered.deliver {e : Session} {value : Json} {r : Request} {a : Answer r}
    {rest : Replies fetchAllUsers} {f : fetchAllUsers.Frame} (gathered : Gathered uid c users)
    (steady : Steady uid e (.deliver r a)) (read : ⟨.users, value⟩ ∈ c.delivered)
    (arrived : c.replies.Perm (⟨r, a⟩ :: rest)) (ran : reply e c.vars r a = .ok f) :
    Gathered uid ((c.took rest r a).absorb f) users := by
  have member : ⟨r, a⟩ ∈ c.replies := arrived.mem_iff.mpr List.mem_cons_self
  obtain ⟨user, asked, rfl⟩ := gathered.pending_picture read member
  have positive := gathered.phase.balanced member
  obtain ⟨group, released, left, shape⟩ := DispatchGroup.leave_cases positive
  have frame := Except.ok.inj ((onUserImage_left left).symm.trans ran)
  have quiet : f.sent = [] := by rw [← frame]
  have fewer := (Call.deliver_outstanding arrived quiet).length_eq
  rw [List.length_cons] at fewer
  subst frame
  refine ⟨?_, ?_, ?_⟩
  · refine (Call.deliver_requests arrived _).trans ?_
    simpa using gathered.requests
  · show c.vars.userInfoArray ++ _ = listed uid (c.delivered ++ [⟨picture user, a⟩])
    rw [gathered.array, listed, listed, List.filterMap_append, entry_steady steady]
    cases known : entry uid (picture user) a <;> simp [known]
  · cases gathered.phase with
    | leaving closed => exact absurd closed (Call.outstanding_ne_nil member)
    | completing closed => exact absurd closed (Call.outstanding_ne_nil member)
    | completed closed => exact absurd closed (Call.outstanding_ne_nil member)
    | gathering lookingUp count pending outerCount outerPending queue reports =>
      have reports_after : c.reports ++ [] = [] := by rw [reports, List.nil_append]
      rcases shape with ⟨one, rfl⟩ | ⟨rfl, lower, more, kept⟩
      · refine .leaving (List.length_eq_zero_iff.mp (by omega)) outerCount outerPending ?_ reports_after
        show c.queue ++ _ = _
        rw [queue, pending]
        rfl
      · refine .gathering ?_ ?_ (kept.trans pending) outerCount outerPending ?_ reports_after
        · intro closed
          rw [closed, List.length_nil] at fewer
          omega
        · show group.count = _
          omega
        · show c.queue ++ [] = []
          rw [queue, List.nil_append]

theorem Gathered.block (e : Session) {b : Block} {rest : List Block} {f : fetchAllUsers.Frame}
    (gathered : Gathered uid c users) (first : c.queue = b :: rest)
    (ran : FetchAllUsers.block e c.vars b = .ok f) :
    Gathered uid ((c.popped rest).absorb f) users := by
  cases gathered.phase with
  | gathering _ _ _ _ _ queue => rw [queue] at first; cases first
  | completed _ queue => rw [queue] at first; cases first
  | leaving closed outerCount outerPending queue reports =>
    rw [queue] at first
    obtain ⟨rfl, rfl⟩ := List.cons.inj first
    simp only [FetchAllUsers.block, DispatchGroup.leave_last outerCount] at ran
    have frame := Except.ok.inj ran
    have kept := Call.block_requests c [] f (by rw [← frame])
    subst frame
    refine ⟨.trans (.of_eq kept.2) gathered.requests, gathered.array, ?_⟩
    refine .completing (kept.1.trans closed) ?_ ?_
    · show [] ++ _ = _
      rw [outerPending]
      rfl
    · show c.reports ++ [] = []
      rw [reports, List.nil_append]
  | completing closed queue reports =>
    rw [queue] at first
    obtain ⟨rfl, rfl⟩ := List.cons.inj first
    have frame := Except.ok.inj ran
    have kept := Call.block_requests c [] f (by rw [← frame])
    subst frame
    refine ⟨.trans (.of_eq kept.2) gathered.requests, gathered.array, ?_⟩
    refine .completed (kept.1.trans closed) rfl ?_
    show c.reports ++ _ = _
    rw [reports]
    rfl

/-- A dictionary of users is looped over; then each group is given its block. -/
theorem onUsers_some {v : Vars} {value : Json} (cast : value.dictDict? = some users) :
    ∃ s, Entered { vars := v } users.entries s ∧ onUsers v value = { s with
      vars := { s.vars with
        fetchUserComponentsGroup := (s.vars.fetchUserComponentsGroup.notify .leaveUserGroup).1
        fetchUserGroup := (s.vars.fetchUserGroup.notify .complete).1 }
      queued := s.queued ++ (s.vars.fetchUserComponentsGroup.notify .leaveUserGroup).2 ++
        (s.vars.fetchUserGroup.notify .complete).2 } := by
  refine ⟨_, forUsers_entered { vars := v } users.entries, ?_⟩
  unfold onUsers
  rw [cast]

theorem onUsers_progress {value : Json} {rest : Replies fetchAllUsers}
    (vars : c.vars = { fetchUserGroup := DispatchGroup.new.enter })
    (requests : c.requests.Perm [.users]) (delivered : c.delivered = []) (queue : c.queue = [])
    (reports : c.reports = []) (arrived : c.replies.Perm (⟨.users, value⟩ :: rest)) :
    Progress uid ((c.took rest .users value).absorb (onUsers c.vars value)) := by
  obtain ⟨delivered_after, requests_after, outstanding_after⟩ :=
    Call.deliver_first requests delivered arrived (onUsers c.vars value)
  change c.delivered ++ _ = _ at delivered_after
  cases cast : value.dictDict? with
  | none =>
    have refused : onUsers c.vars value = { vars := c.vars, reported := [none] } := by
      unfold onUsers
      rw [cast]
    rw [refused] at requests_after ⊢
    refine .refused value delivered_after cast requests_after ?_ ?_
    · show c.queue ++ [] = []
      rw [queue, List.nil_append]
    · show c.reports ++ [none] = [none]
      rw [reports, List.nil_append]
  | some users =>
    obtain ⟨s, entered, ran⟩ := onUsers_some (v := c.vars) cast
    rw [ran] at requests_after outstanding_after ⊢
    change _ = s.sent.length at outstanding_after
    have sent : s.sent = users.entries.map picture := entered.sent
    have queued : s.queued = [] := entered.queued
    have reported : s.reported = [] := entered.reported
    have count : s.vars.fetchUserComponentsGroup.count = users.entries.length := by
      rw [entered.count, vars]
      exact Nat.zero_add _
    have pending : s.vars.fetchUserComponentsGroup.pending = [] := by
      rw [entered.pending, vars]
      rfl
    have outer : s.vars.fetchUserGroup = DispatchGroup.new.enter := by rw [entered.outer, vars]
    have array : s.vars.userInfoArray = [] := by rw [entered.array, vars]
    have outer_positive : 0 < s.vars.fetchUserGroup.count := by rw [outer]; decide
    have outer_count : (s.vars.fetchUserGroup.notify .complete).1.count = 1 := by
      rw [DispatchGroup.notify_count, outer]
      rfl
    have outer_pending : (s.vars.fetchUserGroup.notify .complete).1.pending = [.complete] := by
      rw [DispatchGroup.notify_pending outer_positive, outer]
      rfl
    have reports_after : c.reports ++ s.reported = [] := by rw [reports, reported, List.nil_append]
    have asked : s.sent.length = users.entries.length := by rw [sent, List.length_map]
    refine .gathered value users (List.mem_append_right _ List.mem_cons_self) cast
      ⟨requests_after.trans (.of_eq (by rw [sent])), ?_, ?_⟩
    · show s.vars.userInfoArray = listed uid (c.delivered ++ [⟨.users, value⟩])
      rw [array, delivered_after]
      rfl
    · by_cases none_listed : users.entries = []
      · have zero : s.vars.fetchUserComponentsGroup.count = 0 := by rw [count, none_listed]; rfl
        refine .leaving ?_ outer_count outer_pending ?_ reports_after
        · apply List.length_eq_zero_iff.mp
          rw [none_listed, List.length_nil] at asked
          omega
        · show c.queue ++ (s.queued ++ _ ++ _) = _
          rw [queue, queued, DispatchGroup.notify_zero zero,
            DispatchGroup.notify_released outer_positive]
          rfl
      · have some_listed := List.length_pos_iff.mpr none_listed
        have positive : 0 < s.vars.fetchUserComponentsGroup.count := by omega
        refine .gathering ?_ ?_ ?_ outer_count outer_pending ?_ reports_after
        · intro closed
          rw [closed, List.length_nil] at outstanding_after
          omega
        · show (s.vars.fetchUserComponentsGroup.notify .leaveUserGroup).1.count = _
          rw [DispatchGroup.notify_count, count]
          omega
        · show (s.vars.fetchUserComponentsGroup.notify .leaveUserGroup).1.pending = _
          rw [DispatchGroup.notify_pending positive, pending]
          rfl
        · show c.queue ++ (s.queued ++ _ ++ _) = _
          rw [queue, queued, DispatchGroup.notify_released positive,
            DispatchGroup.notify_released outer_positive]
          rfl

theorem step_progress {c' : Call fetchAllUsers} {e : Session} {ev : Call.Event fetchAllUsers}
    (progress : Progress uid c) (steady : Steady uid e ev) (stepped : c.Step e ev c') :
    Progress uid c' := by
  cases stepped with
  | @serve r rest a sent =>
    cases progress with
    | reading vars requests delivered queue reports =>
      exact .reading vars ((Call.requests_served a sent).trans requests) delivered queue reports
    | refused value delivered cast requests queue reports =>
      exact .refused value delivered cast ((Call.requests_served a sent).trans requests) queue reports
    | gathered value users read cast gathered =>
      exact .gathered value users read cast ⟨(Call.requests_served a sent).trans gathered.requests,
        gathered.array, gathered.phase.served a sent⟩
  | @deliver r a rest f arrived ran =>
    have member : ⟨r, a⟩ ∈ c.replies := arrived.mem_iff.mpr List.mem_cons_self
    have sent : r ∈ c.requests := Call.reply_mem_requests member
    cases progress with
    | reading vars requests delivered queue reports =>
      obtain rfl := List.mem_singleton.mp (requests.mem_iff.mp sent)
      obtain rfl := Except.ok.inj ran
      exact onUsers_progress vars requests delivered queue reports arrived
    | refused value delivered cast requests queue reports =>
      have fresh := Call.reply_fresh (requests.nodup_iff.mpr (by simp)) member
      obtain rfl := List.mem_singleton.mp (requests.mem_iff.mp sent)
      rw [delivered] at fresh
      exact absurd (by simp) fresh
    | gathered value users read cast gathered =>
      exact .gathered value users (List.mem_append_left _ read) cast
        (gathered.deliver steady read arrived ran)
  | @block b rest f first ran =>
    cases progress with
    | reading vars requests delivered queue reports => rw [queue] at first; cases first
    | refused value delivered cast requests queue reports => rw [queue] at first; cases first
    | gathered value users read cast gathered =>
      exact .gathered value users read cast (gathered.block e first ran)

theorem reachable_progress (reachable : c.Reachable fun e _ ev => Steady uid e ev) :
    Progress uid c := by
  induction reachable with
  | start ran =>
    obtain rfl := Except.ok.inj ran
    exact .reading rfl (.refl _) rfl rfl rfl
  | step _ steady stepped ih => exact step_progress ih steady stepped

/-! ### The result -/

theorem never_traps (progress : Progress uid c) (e : Session) (t : Trap) : ¬ c.Traps e t := by
  intro trapped
  cases trapped with
  | @deliver r a arrived ran =>
    have sent : r ∈ c.requests := Call.reply_mem_requests arrived
    cases progress with
    | reading vars requests =>
      obtain rfl := List.mem_singleton.mp (requests.mem_iff.mp sent)
      cases ran
    | refused value delivered cast requests =>
      obtain rfl := List.mem_singleton.mp (requests.mem_iff.mp sent)
      cases ran
    | gathered value users read cast gathered =>
      obtain ⟨user, _, rfl⟩ := gathered.pending_picture read arrived
      obtain ⟨group, released, left, _⟩ := DispatchGroup.leave_cases (gathered.phase.balanced arrived)
      cases (onUserImage_left left).symm.trans ran
  | @block b rest first ran =>
    cases progress with
    | reading vars requests delivered queue => rw [queue] at first; cases first
    | refused value delivered cast requests queue => rw [queue] at first; cases first
    | gathered value users read cast gathered =>
      cases gathered.phase with
      | gathering _ _ _ _ _ queue => rw [queue] at first; cases first
      | completed _ queue => rw [queue] at first; cases first
      | completing closed queue =>
        rw [queue] at first
        obtain ⟨rfl, rfl⟩ := List.cons.inj first
        cases ran
      | leaving closed outerCount outerPending queue =>
        rw [queue] at first
        obtain ⟨rfl, rfl⟩ := List.cons.inj first
        have stopped : FetchAllUsers.block e c.vars .leaveUserGroup = .error t := ran
        simp only [FetchAllUsers.block, DispatchGroup.leave_last outerCount] at stopped
        cases stopped

theorem Gathered.reports_once (gathered : Gathered uid c users) :
    c.reports = [] ∨ c.reports.length = 1 ∧ c.outstanding = [] := by
  cases gathered.phase with
  | gathering _ _ _ _ _ _ reports => exact Or.inl reports
  | leaving _ _ _ _ reports => exact Or.inl reports
  | completing _ _ reports => exact Or.inl reports
  | completed closed _ reports => exact Or.inr ⟨by rw [reports]; rfl, closed⟩

theorem Gathered.answered (gathered : Gathered uid c users) (closed : c.outstanding = [])
    {user : String × Dict Json} (member : user ∈ users.entries) :
    ∃ img, answerTo c.delivered (picture user) = some img := by
  have sent : picture user ∈ c.requests := gathered.requests.mem_iff.mpr
    (List.mem_cons_of_mem _ (List.mem_map_of_mem member))
  rw [Call.requests, closed, List.nil_append] at sent
  cases known : answerTo c.delivered (picture user) with
  | some img => exact ⟨img, rfl⟩
  | none => exact absurd sent (answerTo_eq_none.mp known)

/-- Once every picture is answered, the array holds the users other than `uid`. -/
theorem Gathered.array_perm (gathered : Gathered uid c users) (closed : c.outstanding = []) :
    c.vars.userInfoArray.Perm
      ((users.entries.filter fun user => user.1 ≠ uid).map (withPicture c.delivered)) := by
  have all : (c.delivered.map Sigma.fst).Perm (.users :: users.entries.map picture) := by
    have requests := gathered.requests
    rwa [Call.requests, closed, List.nil_append] at requests
  have unique : (c.delivered.map Sigma.fst).Nodup := all.nodup_iff.mpr (pictures_nodup users.unique)
  have by_request : c.vars.userInfoArray.Perm ((Request.users :: users.entries.map picture).filterMap
      fun r => (answerTo c.delivered r).bind (entry uid r)) := by
    rw [gathered.array, listed, filterMap_replies unique (entry uid)]
    exact all.filterMap _
  have by_user : (users.entries.map picture).filterMap
      (fun r => (answerTo c.delivered r).bind (entry uid r)) =
      users.entries.filterMap fun user =>
        if user.1 ≠ uid then some (withPicture c.delivered user) else none := by
    rw [List.filterMap_map]
    apply List.filterMap_congr
    intro user member
    obtain ⟨img, known⟩ := gathered.answered closed member
    simp only [Function.comp, known, Option.bind_some, withPicture]
    refine (entry_picture uid user img).trans ?_
    by_cases same : user.1 = uid
    · rw [if_pos same, if_neg (not_not.mpr same)]
    · rw [if_neg same, if_pos same]
      rfl
  have read_adds_nothing : (answerTo c.delivered .users).bind (entry uid .users) = none := by
    cases answerTo c.delivered .users <;> rfl
  rw [List.filterMap_cons, read_adds_nothing, by_user] at by_request
  refine by_request.trans (.of_eq ?_)
  induction users.entries with
  | nil => rfl
  | cons user rest ih =>
    by_cases same : user.1 = uid
    · simpa [same] using ih
    · simpa [same] using ih

theorem Gathered.array_ids (gathered : Gathered uid c users) (closed : c.outstanding = []) :
    (c.vars.userInfoArray.map UserModel.userId).Nodup := by
  rw [((gathered.array_perm closed).map UserModel.userId).nodup_iff, List.map_map]
  have keys : (users.entries.filter fun user => user.1 ≠ uid).map
      (UserModel.userId ∘ withPicture c.delivered) =
      ((users.entries.filter fun user => user.1 ≠ uid).map Prod.fst).map some := by
    rw [List.map_map]
    rfl
  rw [keys]
  apply List.Nodup.map (Option.some_injective _)
  exact (List.filter_sublist.map Prod.fst).nodup users.unique

/-- All users but one, each with the fields of its own record and the picture of its own download. -/
structure Others (uid : String) (delivered : Replies fetchAllUsers) (users : Dict (Dict Json))
    (list : List UserModel) : Prop where
  ids : (list.map UserModel.userId).Perm ((users.keys.filter (· ≠ uid)).map some)
  models : ∀ userModel ∈ list, ∃ user ∈ users.entries, user.1 ≠ uid ∧
    UserModel.Reads user.1 user.2 userModel ∧
    userModel.image = (answerTo delivered (picture user)).bind Download.image?

theorem Gathered.others (gathered : Gathered uid c users) (closed : c.outstanding = []) :
    Others uid c.delivered users c.vars.userInfoArray := by
  have all := gathered.array_perm closed
  refine ⟨?_, ?_⟩
  · have ids := all.map UserModel.userId
    rw [List.map_map] at ids
    refine ids.trans (.of_eq ?_)
    rw [Dict.keys, List.filter_map, List.map_map]
    rfl
  · intro userModel member
    obtain ⟨user, other, rfl⟩ := List.mem_map.mp (all.mem_iff.mp member)
    obtain ⟨listed, apart⟩ := List.mem_filter.mp other
    exact ⟨user, listed, of_decide_eq_true apart, UserModel.decode_reads user.1 user.2 _, rfl⟩

/-- With nothing left to answer or to run, the completion has been called with the array. -/
theorem Gathered.finished (gathered : Gathered uid c users) (closed : c.outstanding = [])
    (drained : c.queue = []) : c.reports = [some c.vars.userInfoArray] := by
  cases gathered.phase with
  | gathering lookingUp => exact absurd closed lookingUp
  | leaving _ _ _ queue => rw [queue] at drained; cases drained
  | completing _ queue => rw [queue] at drained; cases drained
  | completed _ _ reports => exact reports

/-- The signed-in uid stays the same. -/
abbrev SameUid {W : Type} (uid : String) : Network api W → Network.Label api → Prop :=
  fun _ l => getCurrentUid l.session = uid

theorem SameUid.steady {e : Session} (same : getCurrentUid e = uid)
    (ev : Call.Event fetchAllUsers) : Steady uid e ev := by
  unfold Steady
  split
  · rw [same]
  · trivial

/-- For any services and any other calls on the device, while the signed-in uid stays the
same: a call that reads a dictionary of users never stops, and completes once, after the last
picture, with every other user once. -/
theorem fetchAllUsers_fan_in {W : Type} {S : Service api W} {w : W} {session : Session}
    {d : Device api W}
    (run : Device.Run S (SameUid uid) (.boot w session) d) {i : Nat}
    (found : d.network.calls[i]? = some ⟨.fetchAllUsers, c⟩) {value : Json}
    (read : ⟨.users, value⟩ ∈ c.answers) (cast : value.dictDict? = some users) :
    (∀ e t, ¬ c.Traps e t) ∧
    c.reports.length ≤ 1 ∧
    (c.reports ≠ [] → c.outstanding = [] ∧
      ∀ user ∈ users.entries, picture user ∈ c.delivered.map Sigma.fst) ∧
    (c.outstanding = [] → d.order = [] →
      ∃ list, c.reports = [some list] ∧
        Others uid c.delivered users list ∧ (list.map UserModel.userId).Nodup ∧
        ∀ user ∈ users.entries, ∃ img, answerTo c.delivered (picture user) = some img) := by
  have reachable : c.Reachable fun e _ ev => Steady uid e ev := by
    refine Device.Run.call_reachable (k := .fetchAllUsers) run ?_ found
    intro s e i c ev same _
    exact SameUid.steady same ev
  have progress := reachable_progress reachable
  refine ⟨never_traps progress, ?_⟩
  cases progress with
  | reading vars requests delivered queue reports =>
    refine ⟨by simp [reports], fun reported => absurd reports reported, ?_⟩
    intro closed
    exact absurd closed (Call.unanswered requests delivered)
  | refused value' delivered cast' requests queue reports =>
    obtain rfl := Call.answer_eq (requests.nodup_iff.mpr (by simp)) read
      (List.mem_append_right _ (delivered ▸ List.mem_cons_self))
    rw [cast'] at cast
    cases cast
  | gathered value' users' read' cast' gathered =>
    obtain rfl := Call.answer_eq gathered.unique read (List.mem_append_right _ read')
    obtain rfl := Option.some.inj (cast.symm.trans cast')
    refine ⟨?_, ?_, ?_⟩
    · rcases gathered.reports_once with none_yet | ⟨one, _⟩
      · simp [none_yet]
      · exact one.le
    · intro reported
      rcases gathered.reports_once with none_yet | ⟨_, closed⟩
      · exact absurd none_yet reported
      · refine ⟨closed, fun user member => ?_⟩
        obtain ⟨img, known⟩ := gathered.answered closed member
        exact List.mem_map_of_mem (answerTo_mem known)
    · intro closed drained
      have reports := gathered.finished closed (run.drained drained found)
      exact ⟨_, reports, gathered.others closed, gathered.array_ids closed, fun user member => gathered.answered closed member⟩

/-- Three users, one of them signed in; only one of the others has a picture. -/
def sampleStore : Backend where
  database := .obj [("USER", .obj [("a", .obj [("First Name", .str "Ann")]),
    ("b", .obj [("First Name", .str "Bob")]), ("c", .obj [("First Name", .str "Cyd")])])]
  storage := fun name => if name = "UserImages/c.png" then some ⟨[1]⟩ else none

def viewer : Account := ⟨"a", by decide⟩

def sampleSchedule : List (Device.Choice backend) :=
  let respond := policy true viewer
  [.start .fetchAllUsers (), .serve 0 0 respond, .deliver 0 0, .serve 0 2 respond, .deliver 0 0,
    .serve 0 0 respond, .serve 0 0 respond, .deliver 0 1, .deliver 0 0, .block, .block]

theorem fetchAllUsers_fan_in_sample :
    ∃ (d : Device api Backend) (c : Call fetchAllUsers) (list : List UserModel),
      Device.Run backend (SameUid "a") (.boot sampleStore (some viewer)) d ∧
      d.network.calls[0]? = some ⟨.fetchAllUsers, c⟩ ∧ c.outstanding = [] ∧ d.order = [] ∧
      c.reports = [some list] ∧ list.length = 2 := by
  have ran : ((Device.boot sampleStore (some viewer)).exec (SameUid "a")
    sampleSchedule).isSome := rfl
  have run := Device.exec_run (Option.some_get ran).symm
  have found : (Option.get _ ran).network.calls[0]? = some ⟨.fetchAllUsers, _⟩ := rfl
  have fan_in := fetchAllUsers_fan_in run found (List.mem_append_right _ List.mem_cons_self) rfl
  obtain ⟨list, reports, others, _⟩ := fan_in.2.2.2 rfl rfl
  have count := others.ids.length_eq
  rw [List.length_map] at count
  exact ⟨_, _, list, run, found, rfl, rfl, reports, count⟩

end SimpleSNS.FetchAllUsers
