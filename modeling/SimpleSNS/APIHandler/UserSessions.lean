import SimpleSNS.APIHandler.UserFanIn

/-!
`fetchAllUsers` whatever the session does in between. The session decides who is left out of the
array and nothing else: a call goes through the same phases as the call that runs signed out.
-/

namespace SimpleSNS.FetchAllUsers
open Async

structure SameGroups (v v₀ : Vars) : Prop where
  user : v.fetchUserGroup = v₀.fetchUserGroup
  components : v.fetchUserComponentsGroup = v₀.fetchUserComponentsGroup

/-- Two frames that differ in the array at most, and so in the lists they report. -/
structure SameFrame (f f₀ : State) : Prop where
  vars : SameGroups f.vars f₀.vars
  sent : f.sent = f₀.sent
  queued : f.queued = f₀.queued
  reported : f.reported.map Option.isSome = f₀.reported.map Option.isSome

theorem onUsers_same {v v₀ : Vars} (same : SameGroups v v₀) (value : Json) :
    SameFrame (onUsers v value) (onUsers v₀ value) := by
  cases cast : value.dictDict? with
  | none =>
    unfold onUsers
    rw [cast]
    exact ⟨same, rfl, rfl, rfl⟩
  | some users =>
    obtain ⟨s, entered, ran⟩ := onUsers_some (v := v) cast
    obtain ⟨s₀, entered₀, ran₀⟩ := onUsers_some (v := v₀) cast
    have components : s.vars.fetchUserComponentsGroup = s₀.vars.fetchUserComponentsGroup := by
      apply DispatchGroup.ext
      · rw [entered.count, entered₀.count, same.components]
      · rw [entered.pending, entered₀.pending, same.components]
    have user : s.vars.fetchUserGroup = s₀.vars.fetchUserGroup := by
      rw [entered.outer, entered₀.outer, same.user]
    rw [ran, ran₀]
    refine ⟨⟨?_, ?_⟩, ?_, ?_, ?_⟩
    · show (s.vars.fetchUserGroup.notify .complete).1 = (s₀.vars.fetchUserGroup.notify .complete).1
      rw [user]
    · show (s.vars.fetchUserComponentsGroup.notify .leaveUserGroup).1 =
        (s₀.vars.fetchUserComponentsGroup.notify .leaveUserGroup).1
      rw [components]
    · exact entered.sent.trans entered₀.sent.symm
    · show s.queued ++ _ ++ _ = s₀.queued ++ _ ++ _
      rw [entered.queued, entered₀.queued, components, user]
    · exact congrArg _ (entered.reported.trans entered₀.reported.symm)

theorem reply_same (e₀ : Session) {e : Session} {v v₀ : Vars} {r : Request} {a : Answer r} {f : State}
    (same : SameGroups v v₀) (ran : reply e v r a = .ok f) :
    ∃ f₀, reply e₀ v₀ r a = .ok f₀ ∧ SameFrame f f₀ := by
  cases r with
  | users =>
    obtain rfl := Except.ok.inj ran
    exact ⟨_, rfl, onUsers_same same a⟩
  | userImage userModel =>
    obtain ⟨⟨group, released⟩, left, done⟩ := bind_ok.mp ran
    obtain rfl := Except.ok.inj done
    have left₀ := left
    rw [same.components] at left₀
    exact ⟨_, bind_ok.mpr ⟨_, left₀, rfl⟩, ⟨same.user, rfl⟩, rfl, rfl, rfl⟩

theorem block_same (e e₀ : Session) {v v₀ : Vars} {b : Block} {f : State} (same : SameGroups v v₀)
    (ran : block e v b = .ok f) : ∃ f₀, block e₀ v₀ b = .ok f₀ ∧ SameFrame f f₀ := by
  cases b with
  | leaveUserGroup =>
    obtain ⟨⟨group, released⟩, left, done⟩ := bind_ok.mp ran
    obtain rfl := Except.ok.inj done
    have left₀ := left
    rw [same.user] at left₀
    exact ⟨_, bind_ok.mpr ⟨_, left₀, rfl⟩, ⟨rfl, same.components⟩, rfl, rfl, rfl⟩
  | complete =>
    obtain rfl := Except.ok.inj ran
    exact ⟨_, rfl, same, rfl, rfl, rfl⟩

/-- The same call, with another array. -/
structure Shadow (c c₀ : Call fetchAllUsers) : Prop where
  vars : SameGroups c.vars c₀.vars
  waiting : c.waiting = c₀.waiting
  replies : c.replies = c₀.replies
  delivered : c.delivered = c₀.delivered
  queue : c.queue = c₀.queue
  reports : c.reports.map Option.isSome = c₀.reports.map Option.isSome

variable {c c₀ c' : Call fetchAllUsers}

theorem Shadow.absorb {f f₀ : State} (shadow : Shadow c c₀) (same : SameFrame f f₀) :
    Shadow (c.absorb f) (c₀.absorb f₀) := by
  refine ⟨same.vars, ?_, shadow.replies, shadow.delivered, ?_, ?_⟩
  · show c.waiting ++ f.sent = c₀.waiting ++ f₀.sent
    rw [shadow.waiting, same.sent]
  · show c.queue ++ f.queued = c₀.queue ++ f₀.queued
    rw [shadow.queue, same.queued]
  · show (c.reports ++ f.reported).map Option.isSome = (c₀.reports ++ f₀.reported).map Option.isSome
    rw [List.map_append, List.map_append, shadow.reports, same.reported]

/-- Each step of a call is a step of the call that runs in session `e₀`. -/
theorem step_shadow {e : Session} (e₀ : Session) {ev : Call.Event fetchAllUsers}
    (shadow : Shadow c c₀) (stepped : c.Step e ev c') : ∃ c₀', c₀.Step e₀ ev c₀' ∧ Shadow c' c₀' := by
  cases stepped with
  | @serve r rest a sent =>
    rw [shadow.waiting] at sent
    refine ⟨_, .serve a sent, shadow.vars, rfl, ?_, shadow.delivered, shadow.queue, shadow.reports⟩
    show _ :: c.replies = _ :: c₀.replies
    rw [shadow.replies]
  | @deliver r a rest f arrived ran =>
    obtain ⟨f₀, ran₀, same⟩ := reply_same e₀ shadow.vars ran
    rw [shadow.replies] at arrived
    have taken : Shadow (c.took rest r a) (c₀.took rest r a) := by
      refine ⟨shadow.vars, shadow.waiting, rfl, ?_, shadow.queue, shadow.reports⟩
      show c.delivered ++ _ = c₀.delivered ++ _
      rw [shadow.delivered]
    exact ⟨_, .deliver arrived ran₀, taken.absorb same⟩
  | @block b rest f first ran =>
    obtain ⟨f₀, ran₀, same⟩ := block_same e e₀ shadow.vars ran
    rw [shadow.queue] at first
    have popped : Shadow (c.popped rest) (c₀.popped rest) :=
      ⟨shadow.vars, shadow.waiting, shadow.replies, shadow.delivered, rfl, shadow.reports⟩
    exact ⟨_, .block first ran₀, popped.absorb same⟩

/-- Every call has a shadow that runs signed out. -/
theorem reachable_shadow (reachable : c.Reachable Call.AnyStep) :
    ∃ c₀, Shadow c c₀ ∧ Progress "" c₀ := by
  obtain ⟨c₀, reached, shadow⟩ : ∃ c₀ : Call fetchAllUsers,
      c₀.Reachable (fun e _ ev => Steady "" e ev) ∧ Shadow c c₀ := by
    induction reachable with
    | @start e input f ran =>
      obtain rfl := Except.ok.inj ran
      have started : FetchAllUsers.start none () = .ok _ := rfl
      exact ⟨_, .start (P := fetchAllUsers) started, ⟨rfl, rfl⟩, rfl, rfl, rfl, rfl, rfl⟩
    | step _ _ stepped ih =>
      obtain ⟨c₀, reached, shadow⟩ := ih
      obtain ⟨c₀', stepped₀, shadow'⟩ := step_shadow none shadow stepped
      exact ⟨c₀', .step reached (SameUid.steady (e := none) rfl _) stepped₀, shadow'⟩
  exact ⟨c₀, shadow, reachable_progress reached⟩

theorem Shadow.requests (shadow : Shadow c c₀) : c.requests = c₀.requests := by
  unfold Call.requests Call.outstanding
  rw [shadow.waiting, shadow.replies, shadow.delivered]

theorem Shadow.outstanding (shadow : Shadow c c₀) : c.outstanding = c₀.outstanding := by
  unfold Call.outstanding
  rw [shadow.waiting, shadow.replies]

theorem any_session_unique (reachable : c.Reachable Call.AnyStep) : c.requests.Nodup := by
  obtain ⟨c₀, shadow, progress⟩ := reachable_shadow reachable
  rw [shadow.requests]
  cases progress with
  | reading _ requests => exact requests.nodup_iff.mpr (List.nodup_singleton _)
  | refused _ _ _ requests => exact requests.nodup_iff.mpr (List.nodup_singleton _)
  | gathered _ _ _ _ gathered => exact gathered.unique

/-- A report of nothing comes from a value that is no dictionary of users. -/
theorem reported_none (reachable : c.Reachable Call.AnyStep) (reported : none ∈ c.reports) :
    ∃ value, ⟨.users, value⟩ ∈ c.delivered ∧ Json.dictDict? value = none := by
  obtain ⟨c₀, shadow, progress⟩ := reachable_shadow reachable
  have seen : false ∈ c₀.reports.map Option.isSome := by
    rw [← shadow.reports]
    exact List.mem_map.mpr ⟨none, reported, rfl⟩
  cases progress with
  | reading _ _ _ _ reports =>
    rw [reports] at seen
    cases seen
  | refused value delivered cast =>
    exact ⟨value, shadow.delivered ▸ delivered ▸ List.mem_cons_self, cast⟩
  | gathered _ _ _ _ gathered =>
    cases gathered.phase with
    | gathering _ _ _ _ _ _ reports => rw [reports] at seen; cases seen
    | leaving _ _ _ _ reports => rw [reports] at seen; cases seen
    | completing _ _ reports => rw [reports] at seen; cases seen
    | completed _ _ reports =>
      rw [reports] at seen
      cases List.mem_singleton.mp seen

/-- A list that is reported comes from a dictionary of users, and every picture asked for is the
picture of one of them. -/
theorem reported_some (reachable : c.Reachable Call.AnyStep) {list : List UserModel}
    (reported : some list ∈ c.reports) : ∃ value users, ⟨.users, value⟩ ∈ c.delivered ∧
      Json.dictDict? value = some users ∧
      ∀ userModel, .userImage userModel ∈ c.requests →
        ∃ user ∈ users.entries, userModel = UserModel.decode user.1 user.2 := by
  obtain ⟨c₀, shadow, progress⟩ := reachable_shadow reachable
  have seen : true ∈ c₀.reports.map Option.isSome := by
    rw [← shadow.reports]
    exact List.mem_map.mpr ⟨some list, reported, rfl⟩
  cases progress with
  | reading _ _ _ _ reports =>
    rw [reports] at seen
    cases seen
  | refused _ _ _ _ _ reports =>
    rw [reports] at seen
    cases List.mem_singleton.mp seen
  | gathered value users read cast gathered =>
    refine ⟨value, users, shadow.delivered ▸ read, cast, ?_⟩
    intro userModel sent
    rw [shadow.requests] at sent
    rcases List.mem_cons.mp (gathered.requests.mem_iff.mp sent) with impossible | asked
    · cases impossible
    · obtain ⟨user, member, same⟩ := List.mem_map.mp asked
      exact ⟨user, member, (Request.userImage.inj same).symm⟩

theorem finished_reported (reachable : c.Reachable Call.AnyStep) (finished : c.Finished) :
    ∃ report, c.reports = [report] := by
  obtain ⟨c₀, shadow, progress⟩ := reachable_shadow reachable
  have closed : c₀.outstanding = [] := shadow.outstanding ▸ finished.1
  have drained : c₀.queue = [] := shadow.queue ▸ finished.2
  have one : c₀.reports.length = 1 := by
    cases progress with
    | reading _ requests delivered =>
      exact absurd closed (Call.unanswered requests delivered)
    | refused _ _ _ _ _ reports =>
      rw [reports]
      rfl
    | gathered _ _ _ _ gathered =>
      rw [gathered.finished closed drained]
      rfl
  have lengths := congrArg List.length shadow.reports
  rw [List.length_map, List.length_map, one] at lengths
  exact List.length_eq_one_iff.mp lengths

/-- What a picture makes of the model it was asked for with. -/
def pictured (userModel : UserModel) (img : Download) : UserModel :=
  match img with
  | .image img => { userModel with image := some img }
  | _ => userModel

/-- The model was appended by the answer to its own picture. -/
def Appended (delivered : Replies fetchAllUsers) (userModel : UserModel) : Prop :=
  ∃ requested img, ⟨.userImage requested, img⟩ ∈ delivered ∧ userModel = pictured requested img

/-- The array and the lists that were reported hold appended models. -/
structure Sourced (c : Call fetchAllUsers) : Prop where
  array : ∀ userModel ∈ c.vars.userInfoArray, Appended c.delivered userModel
  reports : ∀ list, some list ∈ c.reports → ∀ userModel ∈ list, Appended c.delivered userModel

theorem Appended.later {delivered more : Replies fetchAllUsers} {userModel : UserModel}
    (appended : Appended delivered userModel) : Appended (delivered ++ more) userModel := by
  obtain ⟨requested, img, answered, same⟩ := appended
  exact ⟨requested, img, List.mem_append_left _ answered, same⟩

theorem onUserImage_array {e : Session} {v : Vars} {requested : UserModel} {img : Download} {f : State}
    (ran : onUserImage e v requested img = .ok f) : f.reported = [] ∧
      ∀ userModel ∈ f.vars.userInfoArray, userModel ∈ v.userInfoArray ∨ userModel = pictured requested img := by
  obtain ⟨⟨group, released⟩, _, done⟩ := bind_ok.mp ran
  obtain rfl := Except.ok.inj done
  refine ⟨rfl, ?_⟩
  intro userModel member
  change userModel ∈ (if (pictured requested img).userId ≠ some (getCurrentUid e)
    then v.userInfoArray ++ [pictured requested img] else v.userInfoArray) at member
  split at member
  · rcases List.mem_append.mp member with old | new
    · exact Or.inl old
    · exact Or.inr (List.mem_singleton.mp new)
  · exact Or.inl member

theorem onUsers_array (v : Vars) (value : Json) :
    (onUsers v value).vars.userInfoArray = v.userInfoArray ∧
      ∀ list, some list ∉ (onUsers v value).reported := by
  cases cast : value.dictDict? with
  | none =>
    unfold onUsers
    rw [cast]
    exact ⟨rfl, fun list member => by cases List.mem_singleton.mp member⟩
  | some users =>
    obtain ⟨s, entered, ran⟩ := onUsers_some (v := v) cast
    rw [ran]
    refine ⟨entered.array, ?_⟩
    intro list
    change some list ∉ s.reported
    rw [entered.reported]
    exact List.not_mem_nil

theorem step_sourced {e : Session} {ev : Call.Event fetchAllUsers} (sourced : Sourced c)
    (stepped : c.Step e ev c') : Sourced c' := by
  cases stepped with
  | serve a sent => exact ⟨sourced.array, sourced.reports⟩
  | @deliver r a rest f arrived ran =>
    cases r with
    | users =>
      obtain rfl := Except.ok.inj ran
      obtain ⟨array, none_listed⟩ := onUsers_array c.vars a
      refine ⟨?_, ?_⟩
      · intro userModel member
        change userModel ∈ (onUsers c.vars a).vars.userInfoArray at member
        rw [array] at member
        exact (sourced.array userModel member).later
      · intro list member userModel listed_model
        rcases List.mem_append.mp member with old | new
        · exact (sourced.reports list old userModel listed_model).later
        · exact absurd new (none_listed list)
    | userImage requested =>
      obtain ⟨quiet, array⟩ := onUserImage_array ran
      refine ⟨?_, ?_⟩
      · intro userModel member
        rcases array userModel member with old | rfl
        · exact (sourced.array userModel old).later
        · exact ⟨requested, a, List.mem_append_right _ List.mem_cons_self, rfl⟩
      · intro list member userModel listed_model
        change some list ∈ c.reports ++ f.reported at member
        rw [quiet, List.append_nil] at member
        exact (sourced.reports list member userModel listed_model).later
  | @block b rest f first ran =>
    cases b with
    | leaveUserGroup =>
      obtain ⟨⟨group, released⟩, _, done⟩ := bind_ok.mp ran
      obtain rfl := Except.ok.inj done
      refine ⟨sourced.array, ?_⟩
      intro list member
      change some list ∈ c.reports ++ [] at member
      rw [List.append_nil] at member
      exact sourced.reports list member
    | complete =>
      obtain rfl := Except.ok.inj ran
      refine ⟨sourced.array, ?_⟩
      intro list member
      rcases List.mem_append.mp member with old | new
      · exact sourced.reports list old
      · obtain rfl := Option.some.inj (List.mem_singleton.mp new)
        exact sourced.array

theorem reachable_sourced (reachable : c.Reachable Call.AnyStep) : Sourced c := by
  induction reachable with
  | start ran =>
    obtain rfl := Except.ok.inj ran
    exact ⟨fun _ member => absurd member List.not_mem_nil,
      fun _ member => absurd member List.not_mem_nil⟩
  | step _ _ stepped ih => exact step_sourced ih stepped

/-- Each reported model has the fields of a user's own entry and the picture of the user's own
download. -/
theorem reported_models (reachable : c.Reachable Call.AnyStep) {list : List UserModel}
    (reported : some list ∈ c.reports) : ∃ value users, ⟨.users, value⟩ ∈ c.delivered ∧
      Json.dictDict? value = some users ∧ ∀ userModel ∈ list, ∃ user ∈ users.entries, ∃ img,
        ⟨picture user, img⟩ ∈ c.delivered ∧
        userModel = { UserModel.decode user.1 user.2 with image := Download.image? img } := by
  obtain ⟨value, users, read, cast, asked⟩ := reported_some reachable reported
  refine ⟨value, users, read, cast, ?_⟩
  intro userModel member
  obtain ⟨requested, img, answered, rfl⟩ := (reachable_sourced reachable).reports list reported userModel member
  obtain ⟨user, listed_user, rfl⟩ :=
    asked requested (Call.delivered_mem_requests (List.mem_map_of_mem answered))
  refine ⟨user, listed_user, img, answered, ?_⟩
  cases img with
  | image img => rfl
  | undecodable => rfl
  | failed error => rfl

end SimpleSNS.FetchAllUsers
