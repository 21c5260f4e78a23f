import SimpleSNS.APIHandler.Timelines

/-!
Who writes what. A record and a portrait are only written by calls that run for their account, so what
an account finds in the store is what its own calls left there. A post carries the author it was
published by.
-/

namespace SimpleSNS
open Async

/-! ### Commands of one account -/

/-- The account whose record or portrait a command writes. -/
def Command.owner : Command → Option String
  | .signUp uid _ | .save uid _ | .befriend uid _ | .unfriend uid _ | .list uid _ | .portrait uid _ => some uid
  | .publish _ _ | .picture _ _ => none

namespace Social

variable {s s' : Social} {c : Command} {uid : String}

/-- What the network has of one account. -/
def has (s : Social) (uid : String) : Member × Option UIImage := (s.members uid, s.portraits uid)

theorem change_has (s : Social) (uid uid' : String) (update : Member → Member) :
    (s.change uid' update).has uid = (if uid = uid' then update (s.has uid).1 else (s.has uid).1, (s.has uid).2) := by
  rw [has, change_members]
  rfl

theorem portrait_has (s : Social) (uid uid' : String) (img : UIImage) :
    (s.perform (.portrait uid' img)).has uid = ((s.has uid).1, if uid = uid' then some img else (s.has uid).2) := by
  refine Prod.ext rfl ?_
  show Function.update s.portraits uid' (some img) uid = _
  by_cases same : uid = uid'
  · subst same
    rw [Function.update_self, if_pos rfl]
  · rw [Function.update_of_ne same, if_neg same]
    rfl

theorem perform_other (other : c.owner ≠ some uid) (s : Social) : (s.perform c).has uid = s.has uid := by
  have apart : ∀ {uid'}, c.owner = some uid' → uid ≠ uid' := by
    rintro uid' owned rfl
    exact other owned
  cases c with
  | signUp uid' userInfo => rw [perform, change_has, if_neg (apart rfl)]
  | save uid' userInfo => rw [perform, change_has, if_neg (apart rfl)]
  | befriend uid' friendId => rw [perform, change_has, if_neg (apart rfl)]
  | unfriend uid' friendId => rw [perform, change_has, if_neg (apart rfl)]
  | list uid' postKey => rw [perform, change_has, if_neg (apart rfl)]
  | portrait uid' img => rw [portrait_has, if_neg (apart rfl)]
  | publish postKey post => rfl
  | picture postKey img => rfl

theorem perform_same (c : Command) (same : s.has uid = s'.has uid) :
    (s.perform c).has uid = (s'.perform c).has uid := by
  cases c with
  | signUp uid' userInfo => rw [perform, perform, change_has, change_has, same]
  | save uid' userInfo => rw [perform, perform, change_has, change_has, same]
  | befriend uid' friendId => rw [perform, perform, change_has, change_has, same]
  | unfriend uid' friendId => rw [perform, perform, change_has, change_has, same]
  | list uid' postKey => rw [perform, perform, change_has, change_has, same]
  | portrait uid' img => rw [portrait_has, portrait_has, same]
  | publish postKey post => exact same
  | picture postKey img => exact same

end Social

/-! ### Where the owner comes from -/

variable {s : Network api Backend} {labels : List (Network.Label api)} {uid : String} {i : Nat}

/-- A sign-up runs for the account it created, any other call for whoever was signed in when it was
started or when one of its replies arrived. -/
def RunsFor (labels : List (Network.Label api)) (uid : String) (i : Nat) : Job api → Prop
  | ⟨.signUpNewUser, c⟩ => ∃ email password, ⟨.createUser email password, (some uid, none)⟩ ∈ c.answers
  | ⟨k, c⟩ => getCurrentUid c.startedIn = uid ∨
    ∃ e r a, .call e i k (.deliver r a) ∈ labels ∧ getCurrentUid e = uid

theorem request_sent (trace : Network.Trace backend { world := {} } labels s) {k : Api} {c : Call (api k)}
    (found : s.calls[i]? = some ⟨k, c⟩) {r : (api k).Request} (asked : r ∈ c.requests) :
    c.Sent (fun e ev => .call e i k ev ∈ labels) r :=
  (trace.call_reachable_where (A := fun e _ ev => .call e i k ev ∈ labels) rfl
    (fun _ _ _ member => member) found).sent asked

namespace SignUpNewUser

theorem start_sends {e : Session} {input : Input} {f : State} (ran : start e input = .ok f) :
    ∃ email password, f.sent = [.createUser email password] := by
  obtain ⟨email, _, ran⟩ := bind_ok.mp ran
  obtain ⟨password, _, ran⟩ := bind_ok.mp ran
  obtain rfl := Except.ok.inj ran
  exact ⟨email, password, rfl⟩

/-- The record follows the account, the picture follows the record. -/
theorem reply_sends {e : Session} {v : Vars} {q r : Request} {a : Answer q} {f : State}
    (ran : reply e v q a = .ok f) (sent : r ∈ f.sent) :
    (∃ email password uid userInfo,
      (⟨q, a⟩ : (r : Request) × Answer r) = ⟨.createUser email password, (some uid, none)⟩ ∧
        r = .setValue uid userInfo) ∨
      ∃ uid userInfo img, q = .setValue uid userInfo ∧ r = .uploadImage uid img := by
  cases q with
  | createUser email password =>
    rcases a with ⟨_ | uid, _ | error⟩ <;> obtain rfl := Except.ok.inj ran <;> try cases sent
    · exact Or.inl ⟨email, password, uid, v.input.userInfo, rfl, rfl⟩
    · rename_i impossible
      cases impossible
  | setValue uid userInfo =>
    rcases a with _ | error
    · obtain rfl := reply_uploads uid userInfo ran
      exact Or.inr ⟨uid, userInfo, v.input.userImg, rfl, List.mem_singleton.mp sent⟩
    · obtain rfl := Except.ok.inj ran
      cases sent
  | uploadImage userId img =>
    obtain rfl := Except.ok.inj ran
    cases sent

variable {c : Call signUpNewUser}

theorem record_runs_for (trace : Network.Trace backend { world := {} } labels s)
    (found : s.calls[i]? = some ⟨.signUpNewUser, c⟩) {userInfo : UserModel}
    (asked : .setValue uid userInfo ∈ c.requests) : RunsFor labels uid i ⟨.signUpNewUser, c⟩ := by
  cases request_sent trace found asked with
  | start ran sent =>
    obtain ⟨email, password, first⟩ := start_sends (e := c.startedIn) ran
    rw [first] at sent
    cases List.mem_singleton.mp sent
  | @reply e v q a f took given ran sent =>
    rcases reply_sends (e := e) ran sent with ⟨email, password, uid', _, same, record⟩ | ⟨_, _, _, _, impossible⟩
    · cases record
      cases same
      exact ⟨email, password, given⟩
    · cases impossible
  | @block _ _ b => exact nomatch (b : Empty)

theorem picture_runs_for (trace : Network.Trace backend { world := {} } labels s)
    (found : s.calls[i]? = some ⟨.signUpNewUser, c⟩) {img : UIImage}
    (asked : .uploadImage uid img ∈ c.requests) : RunsFor labels uid i ⟨.signUpNewUser, c⟩ := by
  cases request_sent trace found asked with
  | start ran sent =>
    obtain ⟨email, password, first⟩ := start_sends (e := c.startedIn) ran
    rw [first] at sent
    cases List.mem_singleton.mp sent
  | @reply e v q a f took given ran sent =>
    rcases reply_sends (e := e) ran sent with ⟨_, _, _, _, _, impossible⟩ | ⟨uid', userInfo, _, rfl, picture⟩
    · cases impossible
    · cases picture
      exact record_runs_for trace found (Call.answered_requested given)
  | @block _ _ b => exact nomatch (b : Empty)

end SignUpNewUser

namespace UpdateUserInformation

variable {c : Call updateUserInformation}

/-- The account of a request. -/
def Request.account : Request → String
  | .updateChildValues uid _ => uid
  | .uploadImage userId _ => userId

theorem runs_for (trace : Network.Trace backend { world := {} } labels s)
    (found : s.calls[i]? = some ⟨.updateUserInformation, c⟩) {r : Request} (asked : r ∈ c.requests) :
    RunsFor labels r.account i ⟨.updateUserInformation, c⟩ := by
  cases request_sent trace found asked with
  | start ran sent =>
    obtain rfl := Except.ok.inj ran
    obtain rfl := List.mem_singleton.mp sent
    exact Or.inl rfl
  | @reply e v q a f took given ran sent =>
    cases q with
    | updateChildValues uid userInfo =>
      cases a with
      | none =>
        obtain rfl := reply_uploads uid userInfo ran
        obtain rfl := List.mem_singleton.mp sent
        exact Or.inr ⟨e, _, none, took, rfl⟩
      | some error =>
        obtain rfl := Except.ok.inj ran
        cases sent
    | uploadImage userId img =>
      obtain rfl := Except.ok.inj ran
      cases sent
  | @block _ _ b => exact nomatch (b : Empty)

end UpdateUserInformation

theorem AddNewPost.listing_runs_for (trace : Network.Trace backend { world := {} } labels s)
    {c : Call addNewPost} (found : s.calls[i]? = some ⟨.addNewPost, c⟩) {postKey : String}
    (asked : .addPostRefCurrentUser uid postKey ∈ c.requests) : RunsFor labels uid i ⟨.addNewPost, c⟩ := by
  cases request_sent trace found asked with
  | start ran sent =>
    obtain rfl := Except.ok.inj ran
    cases List.mem_singleton.mp sent
  | @reply e v q a f took given ran sent =>
    obtain ⟨_, nothing | ⟨_, _, _, _, _, _, halves⟩⟩ := AddNewPost.reply_input ran
    · rw [nothing] at sent
      cases sent
    · rw [halves] at sent
      rcases List.mem_cons.mp sent with impossible | last
      · cases impossible
      · cases List.mem_singleton.mp last
        exact Or.inr ⟨e, q, a, took, rfl⟩
  | block took ran sent =>
    obtain rfl := Except.ok.inj ran
    cases sent

/-- Both friend writers send their one request when they are started. -/
theorem FriendList.runs_for {e : Session} {friendId : String} {f : State} (ran : start e friendId = .ok f)
    {r : Request} (sent : r ∈ f.sent) : getCurrentUid e = r.uid := by
  obtain rfl := Except.ok.inj ran
  obtain rfl := List.mem_singleton.mp sent
  rfl

/-- Whoever's record or portrait a step writes, the call that took it runs for that account. -/
theorem owner_runs (trace : Network.Trace backend { world := {} } labels s) {l : Network.Label api}
    (taken : l ∈ labels) {c : Command} (performed : social.performed l = some c)
    (owned : c.owner = some uid) : ∃ e i k ev d, l = .call e i k ev ∧ s.calls[i]? = some ⟨k, d⟩ ∧
      RunsFor labels uid i ⟨k, d⟩ := by
  obtain ⟨e, i, by_call⟩ := performed_by performed
  cases c with
  | signUp uid' userInfo =>
    obtain rfl := Option.some.inj owned
    obtain rfl : l = _ := by_call
    obtain ⟨d, found, given⟩ := trace.served_answer taken
    exact ⟨e, i, _, _, d, rfl, found,
      SignUpNewUser.record_runs_for trace found (Call.answered_requested given)⟩
  | save uid' userInfo =>
    obtain rfl := Option.some.inj owned
    obtain rfl : l = _ := by_call
    obtain ⟨d, found, given⟩ := trace.served_answer taken
    exact ⟨e, i, _, _, d, rfl, found,
      UpdateUserInformation.runs_for trace found (Call.answered_requested given)⟩
  | befriend uid' friendId =>
    obtain rfl := Option.some.inj owned
    obtain rfl : l = _ := by_call
    obtain ⟨d, found, given⟩ := trace.served_answer taken
    cases request_sent trace found (Call.answered_requested given) with
    | start ran sent => exact ⟨e, i, _, _, d, rfl, found, Or.inl (FriendList.runs_for ran sent)⟩
    | @reply _ _ _ a f took given ran sent =>
      cases a <;> obtain rfl := Except.ok.inj ran <;> cases sent
    | @block _ _ b => exact nomatch (b : Empty)
  | unfriend uid' friendId =>
    obtain rfl := Option.some.inj owned
    obtain rfl : l = _ := by_call
    obtain ⟨d, found, given⟩ := trace.served_answer taken
    cases request_sent trace found (Call.answered_requested given) with
    | start ran sent => exact ⟨e, i, _, _, d, rfl, found, Or.inl (FriendList.runs_for ran sent)⟩
    | @reply _ _ _ a f took given ran sent =>
      cases a <;> obtain rfl := Except.ok.inj ran <;> cases sent
    | @block _ _ b => exact nomatch (b : Empty)
  | list uid' postKey =>
    obtain rfl := Option.some.inj owned
    obtain rfl : l = _ := by_call
    obtain ⟨d, found, given⟩ := trace.served_answer taken
    exact ⟨e, i, _, _, d, rfl, found,
      AddNewPost.listing_runs_for trace found (Call.answered_requested given)⟩
  | portrait uid' img =>
    obtain rfl := Option.some.inj owned
    rcases by_call with rfl | rfl
    · obtain ⟨d, found, given⟩ := trace.served_answer taken
      exact ⟨e, i, _, _, d, rfl, found,
        SignUpNewUser.picture_runs_for trace found (Call.answered_requested given)⟩
    · obtain ⟨d, found, given⟩ := trace.served_answer taken
      exact ⟨e, i, _, _, d, rfl, found,
        UpdateUserInformation.runs_for trace found (Call.answered_requested given)⟩
  | publish postKey post => cases owned
  | picture postKey img => cases owned

/-- What the store has of an account is what the calls that ran for it left there: however many other
steps are taken out of the run, its record and its portrait are the same. And every stored post was
given, with its author, to one call that its author started. -/
theorem ownership (trace : Network.Trace backend { world := {} } labels s) (uid : String)
    (keep : Network.Label api → Bool)
    (own : ∀ e i k ev c, .call e i k ev ∈ labels → s.calls[i]? = some ⟨k, c⟩ → RunsFor labels uid i ⟨k, c⟩ →
      keep (.call e i k ev) = true) :
    Keeps (record s.world uid) ((after (labels.filter keep)).members uid) ∧
      s.world.storage (userImageName uid) = (after (labels.filter keep)).portraits uid ∧
      ∀ postKey post, (after labels).posts postKey = some post → post.userId = uid →
        ∃ (i : Nat) (c : Call addNewPost), s.calls[i]? = some ⟨.addNewPost, c⟩ ∧
          getCurrentUid c.startedIn = uid ∧ c.input.postKey = postKey ∧ post = AddNewPost.post c := by
  have stores := trace_stores trace
  have unseen : ∀ l ∈ labels, keep l = false → ∀ c ∈ social.performed l, ∀ x : Social,
      (social.perform x c).has uid = x.has uid := by
    intro l taken dropped c performed x
    refine Social.perform_other ?_ x
    intro owned
    obtain ⟨e, i, k, ev, d, rfl, found, runs⟩ := owner_runs trace taken performed owned
    rw [own e i k ev d taken found runs] at dropped
    cases dropped
  have same : (after (labels.filter keep)).has uid = (after labels).has uid :=
    social.replay_view (fun x => x.has uid) (fun _ _ c => Social.perform_same c) unseen {}
  refine ⟨?_, ?_, ?_⟩
  · rw [show (after (labels.filter keep)).members uid = (after labels).members uid from congrArg Prod.fst same]
    exact stores.members uid
  · rw [show (after (labels.filter keep)).portraits uid = (after labels).portraits uid from congrArg Prod.snd same]
    exact stores.portraits uid
  · rintro postKey post published rfl
    obtain ⟨i, c, found, same_key, rfl⟩ := published_by trace List.prefix_rfl published
    exact ⟨i, c, found, rfl, same_key, rfl⟩

/-- The steps of one call. -/
def ofCall (index : Nat) : Network.Label api → Bool
  | .call _ i _ _ => i = index
  | .start _ _ _ => false

/-- Ann and Bob each add a friend: what Bob's call did can be left out of Ann's record. -/
theorem ownership_sample : ∃ (s : Network api Backend) (labels : List (Network.Label api))
    (keep : Network.Label api → Bool), Network.Trace backend { world := {} } labels s ∧
      labels.filter keep ≠ labels ∧ Keeps (record s.world "u") ((after (labels.filter keep)).members "u") := by
  let bob : Session := some ⟨"w", by decide⟩
  let ann_adds : Network.Label api := .start (some sampleAccount) .addToFriendList "v"
  let bob_adds : Network.Label api := .start bob .addToFriendList "u"
  let ann_wrote : Network.Label api := .call bob 0 .addToFriendList (.serve ⟨"u", "v"⟩ none)
  let bob_wrote : Network.Label api := .call bob 1 .addToFriendList (.serve ⟨"w", "u"⟩ none)
  have begun : Network.Trace backend { world := {} } [ann_adds, bob_adds] _ :=
    .step (l := bob_adds) (.step (l := ann_adds) .refl (.start _ _ _ rfl)) (.start _ _ _ rfl)
  have trace : Network.Trace backend { world := {} } [ann_adds, bob_adds, bob_wrote, ann_wrote] _ :=
    .step (l := ann_wrote) (.step (l := bob_wrote) begun (.call 1 rfl (.serve _ (.refl _)) rfl))
      (.call 0 rfl (.serve _ (.refl _)) rfl)
  refine ⟨_, _, ofCall 0, trace, (fun same => nomatch congrArg List.length same),
    (ownership trace "u" (ofCall 0) ?_).1⟩
  intro e i k ev c taken found runs
  simp only [ann_adds, bob_adds, bob_wrote, ann_wrote, List.mem_cons, List.not_mem_nil, or_false] at taken
  rcases taken with impossible | impossible | same | same
  · cases impossible
  · cases impossible
  · cases same
    cases found
    rcases runs with other | ⟨e, r, a, delivered, _⟩
    · exact absurd other (by decide)
    · simp only [ann_adds, bob_adds, bob_wrote, ann_wrote, List.mem_cons, List.not_mem_nil, or_false] at delivered
      rcases delivered with impossible | impossible | impossible | impossible <;> cases impossible
  · cases same
    rfl

end SimpleSNS
