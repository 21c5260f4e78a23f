import SimpleSNS.APIHandler.PostJoin
import SimpleSNS.APIHandler.UserFanIn

/-!
The account an operation works for. Four operations read the uid at their start and again in a
callback; between the two the user may sign out or another may sign in. When each second
reading agrees with the first, everything the call does is done for the account that made it.
-/

namespace SimpleSNS
open Async

variable {W : Type}

/-- The second reading of the uid, in the callbacks where it decides something, agrees with the
session of the start. -/
def Rereads (started e : Session) : (k : Api) → Call.Event (api k) → Prop
  | .addNewPost, .deliver (.setValue _ _ _ _) none => getCurrentUid e = getCurrentUid started
  | .updateUserInformation, .deliver (.updateChildValues _ _) none =>
    getCurrentUid e = getCurrentUid started
  | .fetchCurrentUser, .deliver (.record _) value =>
    (Json.dict? value).isSome → getCurrentUid e = getCurrentUid started
  | .fetchAllUsers, ev => FetchAllUsers.Steady (getCurrentUid started) e ev
  | _, _ => True

/-- In every step the moving call rereads the uid of the session it started in. -/
def Settled (s : Network api W) : Network.Label api → Prop
  | .start _ _ _ => True
  | .call e i k ev => ∀ job ∈ s.calls[i]?, Rereads job.call.startedIn e k ev

/-- The uids that a request names: as a child of `USER`, as a picture in `UserImages` or as the
author of a post. -/
def named : (k : Api) → (api k).Request → List String
  | .addNewPost, .setValue _ _ _ userId => [userId]
  | .addNewPost, .addPostStorage _ _ => []
  | .addNewPost, .addPostRefCurrentUser uid _ => [uid]
  | .updateUserInformation, .updateChildValues uid _ => [uid]
  | .updateUserInformation, .uploadImage userId _ => [userId]
  | .fetchCurrentUser, .record uid => [uid]
  | _, _ => []

def Names (uid : String) {k : Api} (c : Call (api k)) : Prop :=
  ∀ r ∈ c.requests, ∀ other ∈ named k r, other = uid

/-- No callback that rereads the uid refers to the child of an empty one. -/
def NeverNameless (c : Call addNewPost) : Prop :=
  ∀ e r error, ⟨r, error⟩ ∈ c.replies → Rereads c.startedIn e .addNewPost (.deliver r error) →
    addNewPost.reply e c.vars r error ≠ .error (.invalidPath "")

/-- What the call has done, it has done for `uid`. -/
def Own (uid : String) : (k : Api) → Call (api k) → Prop
  | .addNewPost, c => Names (k := .addNewPost) uid c ∧ NeverNameless c
  | .updateUserInformation, c => Names (k := .updateUserInformation) uid c
  | .fetchCurrentUser, c => Names (k := .fetchCurrentUser) uid c ∧
    ∀ model, some model ∈ c.reports → ∃ value record, ⟨.record uid, value⟩ ∈ c.delivered ∧
      Json.dict? value = some record ∧ UserModel.Reads uid record model ∧ model.image = none
  | .fetchAllUsers, c => ∀ list, some list ∈ c.reports →
    ∃ value users, ⟨.users, value⟩ ∈ c.delivered ∧ Json.dictDict? value = some users ∧
      FetchAllUsers.Others uid c.delivered users list
  | _, _ => True

/-- The steps of one call in a settled run. -/
abbrev Rereading (k : Api) : Session → Call (api k) → Call.Event (api k) → Prop :=
  fun e c ev => Rereads c.startedIn e k ev

theorem AddNewPost.own {c : Call addNewPost} (reachable : c.Reachable (Rereading .addNewPost)) :
    Names (k := .addNewPost) (getCurrentUid c.startedIn) c := by
  have steady : c.Reachable AddNewPost.Steady := by
    apply reachable.weaken
    intro e c ev rereads
    unfold Steady
    split
    · exact rereads
    · trivial
  intro r sent other mentioned
  have asked := (AddNewPost.reachable_progress steady).phase.sent_subset sent
  simp only [writes, List.mem_cons, List.not_mem_nil, or_false] at asked
  rcases asked with rfl | rfl | rfl
  · exact List.mem_singleton.mp mentioned
  · cases mentioned
  · exact List.mem_singleton.mp mentioned

theorem AddNewPost.neverNameless {c : Call addNewPost} (signed : getCurrentUid c.startedIn ≠ "") :
    NeverNameless c := by
  have half : ∀ error, onHalf c.vars error ≠ .error (.invalidPath "") := by
    intro error stopped
    cases error with
    | some error => cases stopped
    | none =>
      rcases bind_error.mp stopped with left | ⟨_, _, none_left⟩
      · cases (DispatchGroup.leave_error_iff.mp left).2
      · cases none_left
  intro e r error _ rereads stopped
  cases r with
  | addPostStorage postKey img => exact half error stopped
  | addPostRefCurrentUser uid postKey => exact half error stopped
  | setValue postKey description timeStamp userId =>
    cases error with
    | some error => cases stopped
    | none =>
      have same : getCurrentUid e = getCurrentUid c.startedIn := rereads
      rcases bind_error.mp stopped with no_data | ⟨_, _, stopped⟩
      · cases unwrap_error no_data
      · rcases bind_error.mp stopped with nameless | ⟨_, _, none_left⟩
        · have named := userChild_error nameless
          rw [same] at named
          exact signed (Trap.invalidPath.inj named).symm
        · cases none_left

theorem UpdateUserInformation.own {c : Call updateUserInformation}
    (reachable : c.Reachable (Rereading .updateUserInformation)) :
    Names (k := .updateUserInformation) (getCurrentUid c.startedIn) c := by
  induction reachable with
  | @start e input f ran =>
    obtain rfl := Except.ok.inj ran
    intro r sent other mentioned
    obtain rfl := List.mem_singleton.mp sent
    exact List.mem_singleton.mp mentioned
  | @step c c' e ev before rereads stepped ih =>
    rw [stepped.startedIn]
    intro r sent other mentioned
    rcases stepped.new_request sent with old | ⟨q, a, f, rfl, _, ran, new⟩ | ⟨b, _⟩
    · exact ih r old other mentioned
    · cases q with
      | uploadImage userId img =>
        obtain rfl := Except.ok.inj ran
        cases new
      | updateChildValues uid userInfo =>
        cases a with
        | some error =>
          obtain rfl := Except.ok.inj ran
          cases new
        | none =>
          obtain rfl := reply_uploads uid userInfo ran
          obtain rfl := List.mem_singleton.mp new
          exact (List.mem_singleton.mp mentioned).trans rereads
    · cases b

theorem FetchCurrentUser.own {c : Call fetchCurrentUser}
    (reachable : c.Reachable (Rereading .fetchCurrentUser)) :
    Own (getCurrentUid c.startedIn) .fetchCurrentUser c := by
  induction reachable with
  | @start e input f ran =>
    obtain rfl := Except.ok.inj ran
    refine ⟨?_, ?_⟩
    · intro r sent other mentioned
      obtain rfl := List.mem_singleton.mp sent
      exact List.mem_singleton.mp mentioned
    · intro model reported
      cases reported
  | @step c c' e ev before rereads stepped ih =>
    rw [stepped.startedIn]
    obtain ⟨names, delivers⟩ := ih
    refine ⟨?_, ?_⟩
    · intro r sent other mentioned
      rcases stepped.new_request sent with old | ⟨q, a, f, rfl, _, ran, new⟩ | ⟨b, _⟩
      · exact names r old other mentioned
      · obtain rfl := Except.ok.inj ran
        unfold onRecord at new
        split at new <;> cases new
      · cases b
    · cases stepped with
      | serve a sent => exact delivers
      | @block b => cases b
      | @deliver r a rest f arrived ran =>
        obtain rfl := Except.ok.inj ran
        intro model reported
        rcases List.mem_append.mp reported with old | new
        · obtain ⟨value, record, answered, cast, same⟩ := delivers model old
          exact ⟨value, record, List.mem_append_left _ answered, cast, same⟩
        · obtain ⟨uid⟩ := r
          have sent : FetchCurrentUser.Request.record uid ∈ c.requests :=
            Call.reply_mem_requests (arrived.mem_iff.mpr List.mem_cons_self)
          obtain rfl : uid = getCurrentUid c.startedIn :=
            names _ sent uid (List.mem_singleton_self uid)
          unfold onRecord at new
          split at new
          · rename_i record cast
            have same : getCurrentUid e = getCurrentUid c.startedIn :=
              rereads (Option.isSome_iff_exists.mpr ⟨record, cast⟩)
            rw [same] at new
            obtain rfl := Option.some.inj (List.mem_singleton.mp new)
            exact ⟨a, record, List.mem_append_right _ List.mem_cons_self, cast,
              UserModel.decode_reads _ _ none, rfl⟩
          · cases List.mem_singleton.mp new

theorem FetchAllUsers.own {c : Call fetchAllUsers}
    (reachable : c.Reachable (Rereading .fetchAllUsers)) :
    Own (getCurrentUid c.startedIn) .fetchAllUsers c := by
  intro list reported
  have settled : c.Reachable fun e _ ev => Steady (getCurrentUid c.startedIn) e ev :=
    Call.Reachable.settle (P := fetchAllUsers)
      (B := fun started e ev => Steady (getCurrentUid started) e ev) reachable
  cases reachable_progress settled with
  | reading _ _ _ _ reports => rw [reports] at reported; cases reported
  | refused _ _ _ _ _ reports =>
    rw [reports] at reported
    cases List.mem_singleton.mp reported
  | gathered value users read cast gathered =>
    refine ⟨value, users, read, cast, ?_⟩
    cases gathered.phase with
    | gathering _ _ _ _ _ _ reports => rw [reports] at reported; cases reported
    | leaving _ _ _ _ reports => rw [reports] at reported; cases reported
    | completing _ _ reports => rw [reports] at reported; cases reported
    | completed closed _ reports =>
      rw [reports] at reported
      obtain rfl := Option.some.inj (List.mem_singleton.mp reported)
      exact gathered.others closed

/-- For any service, any calls and any placement of sign-ins and sign-outs: where each second
reading of the uid agrees with the session of the start, a call made while an account is signed
in works for that account to the end, and no path is built from an empty uid. -/
theorem account_kept {S : Service api W} {s₀ s : Network api W}
    (run : Network.Run S Settled s₀ s) (empty : s₀.calls = []) {i : Nat} {k : Api}
    {c : Call (api k)} (found : s.calls[i]? = some ⟨k, c⟩) {account : Account}
    (signed : c.startedIn = some account) :
    Own account.uid k c ∧ ∀ r ∈ c.requests, "" ∉ named k r := by
  have reachable : c.Reachable (Rereading k) := by
    apply run.call_reachable empty _ found
    intro s e i c ev settled found
    exact settled _ found
  have uid : getCurrentUid c.startedIn = account.uid := by rw [signed]; rfl
  have own : Own account.uid k c := by
    rw [← uid]
    cases k with
    | addNewPost => exact ⟨AddNewPost.own reachable, AddNewPost.neverNameless (uid ▸ account.nonempty)⟩
    | updateUserInformation => exact UpdateUserInformation.own reachable
    | fetchCurrentUser => exact FetchCurrentUser.own reachable
    | fetchAllUsers => exact FetchAllUsers.own reachable
    | _ => trivial
  refine ⟨own, ?_⟩
  intro r sent mentioned
  cases k with
  | addNewPost => exact account.nonempty (own.1 r sent "" mentioned).symm
  | updateUserInformation => exact account.nonempty (own r sent "" mentioned).symm
  | fetchCurrentUser => exact account.nonempty (own.1 r sent "" mentioned).symm
  | _ => cases mentioned

/-- The author stays signed in until the post has been written. -/
theorem account_kept_sample :
    ∃ (s : Network api Backend) (c : Call addNewPost),
      Network.Run backend Settled { world := {} } s ∧ s.calls[0]? = some ⟨.addNewPost, c⟩ ∧
      c.requests.length = 3 ∧ Own "u" .addNewPost c := by
  let input : AddNewPost.Input := ⟨"hello", ⟨[1]⟩, "k", 1⟩
  have started : Network.Run backend Settled { world := {} } _ :=
    .step (l := .start (some sampleAccount) .addNewPost input) .refl trivial (.start _ _ _ rfl)
  let post := AddNewPost.postWrite (some sampleAccount) input
  have written : Network.Run backend Settled { world := {} } _ :=
    .step (l := .call (some sampleAccount) 0 .addNewPost (.serve post none)) started
      (by intro job found; trivial) (.call 0 rfl (.serve _ (.refl _)) rfl)
  have joining : Network.Run backend Settled { world := {} } _ :=
    .step (l := .call (some sampleAccount) 0 .addNewPost (.deliver post none)) written
      (by intro job found; cases found; exact rfl) (.call 0 rfl (.deliver (.refl _) rfl) rfl)
  have kept := account_kept (k := .addNewPost) (i := 0) joining rfl rfl (rfl : _ = some sampleAccount)
  exact ⟨_, _, joining, rfl, rfl, kept.1⟩

/-- The post of an author who signs out meanwhile. -/
def signOut : List (Device.Choice backend) :=
  [.session (some sampleAccount), .start .addNewPost ⟨"hello", ⟨[1]⟩, "k", 1⟩, .serve 0 0 (policy true sampleAccount),
    .session none]

/-- When the answer arrives, the callback refers to the child of the empty uid, for which the database
raises. -/
theorem account_lost :
    ¬ ∀ (s : Network api Backend) (c : Call addNewPost) (account : Account),
      Network.Run backend Network.AnyLabel { world := {} } s →
      s.calls[0]? = some ⟨.addNewPost, c⟩ → c.startedIn = some account →
      ∀ e, ¬ c.Traps e (.invalidPath "") := by
  intro kept
  have ran : ((Device.boot {} none).exec Network.AnyLabel signOut).isSome := rfl
  have run := (Device.exec_run (Option.some_get ran).symm).network
  have found : (Option.get _ ran).network.calls[0]? = some ⟨.addNewPost, _⟩ := rfl
  exact kept _ _ sampleAccount run found rfl none (.deliver List.mem_cons_self rfl)

end SimpleSNS
