import SimpleSNS.APIHandler.FriendFanIn

/-!
What a delivered list of friends contains. The notify blocks are registered while the group is
still entered for every friend, so none of them is released before the last picture.
-/

namespace SimpleSNS.FetchFriendList
open Async

variable {c : Call fetchFriendList} {uid : String} {friends : Dict String}

/-- The friend a request for a picture is about. -/
def pictureOf : Request → Option (Option String)
  | .userImage userModel => some userModel.userId
  | _ => none

theorem listed_ids_sublist (delivered : Replies fetchFriendList) :
    ((listed delivered).map UserModel.userId).Sublist
      ((delivered.map Sigma.fst).filterMap pictureOf) := by
  induction delivered with
  | nil => exact List.Sublist.refl []
  | cons answered rest ih =>
    obtain ⟨r, a⟩ := answered
    have split : listed (⟨r, a⟩ :: rest) = appends r a ++ listed rest := rfl
    rw [split, List.map_append, List.map_cons]
    cases r with
    | friends uid => exact ih
    | record friend => exact ih
    | userImage userModel =>
      have kept : (Request.userImage userModel :: rest.map Sigma.fst).filterMap pictureOf =
          userModel.userId :: (rest.map Sigma.fst).filterMap pictureOf := rfl
      rw [kept]
      change Download at a
      cases a with
      | image img => exact ih.cons_cons _
      | undecodable => exact ih.cons _
      | failed error => exact ih.cons _

/-- A friend has one record, so one model and one picture. -/
theorem Gathered.picture_eq (gathered : Gathered c uid friends) {userModel userModel' : UserModel}
    (sent : .userImage userModel ∈ c.requests) (sent' : .userImage userModel' ∈ c.requests)
    (same : userModel.userId = userModel'.userId) : userModel = userModel' := by
  obtain ⟨friend, value, singleFriend, recorded, cast, rfl⟩ := gathered.picture_recorded sent
  obtain ⟨friend', value', singleFriend', recorded', cast', rfl⟩ := gathered.picture_recorded sent'
  obtain rfl : friend = friend' := Option.some.inj same
  have one_answer : value = value' := Call.answer_eq gathered.unique
    (List.mem_append_right _ recorded) (List.mem_append_right _ recorded')
  rw [one_answer, cast'] at cast
  rw [Option.some.inj cast]

theorem Gathered.listed_ids_nodup (gathered : Gathered c uid friends) :
    ((listed c.delivered).map UserModel.userId).Nodup := by
  apply (listed_ids_sublist c.delivered).nodup
  have unique : (c.delivered.map Sigma.fst).Nodup :=
    (List.sublist_append_right c.outstanding _).nodup gathered.unique
  apply List.pairwise_filterMap.mpr
  apply List.Pairwise.imp_of_mem _ unique
  intro r r' member member' different id found id' found' same
  cases r with
  | friends uid => cases found
  | record friend => cases found
  | userImage userModel =>
    cases r' with
    | friends uid => cases found'
    | record friend => cases found'
    | userImage userModel' =>
      have ids : userModel.userId = userModel'.userId :=
        ((Option.some.inj found).trans same).trans (Option.some.inj found').symm
      exact different (congrArg Request.userImage (gathered.picture_eq
        (Call.delivered_mem_requests member) (Call.delivered_mem_requests member') ids))

/-- When as many pictures decoded as there are friends, each friend is listed once. -/
theorem Gathered.listed_ids_perm (gathered : Gathered c uid friends)
    (all : (listed c.delivered).length = friends.entries.length) :
    ((listed c.delivered).map UserModel.userId).Perm (friends.keys.map some) := by
  have known : (listed c.delivered).map UserModel.userId ⊆ friends.keys.map some := by
    intro id member
    obtain ⟨userModel, listed_model, rfl⟩ := List.mem_map.mp member
    obtain ⟨friend, key, own⟩ := gathered.listed_own listed_model
    rw [own.userId]
    exact List.mem_map_of_mem key
  apply (List.subperm_of_subset gathered.listed_ids_nodup known).perm_of_length_le
  simp only [List.length_map, Dict.keys]
  omega

theorem Healthy.listed_id {delivered : Replies fetchFriendList} {friend : String}
    (healthy : Healthy delivered friend) : some friend ∈ (listed delivered).map UserModel.userId := by
  obtain ⟨value, singleFriend, img, _, _, pictured⟩ := healthy
  have member : { UserModel.decode friend singleFriend with image := some img } ∈ listed delivered :=
    List.mem_flatMap.mpr ⟨_, pictured, List.mem_singleton.mpr rfl⟩
  exact List.mem_map_of_mem member

/-- When fewer pictures decoded, some friend's record or picture did not arrive. -/
theorem Gathered.unlisted (gathered : Gathered c uid friends)
    (fewer : (listed c.delivered).length ≠ friends.entries.length) :
    ∃ friend ∈ friends.keys, ¬ Healthy c.delivered friend := by
  by_contra none_missing
  have known : friends.keys.map some ⊆ (listed c.delivered).map UserModel.userId := by
    intro id member
    obtain ⟨friend, key, rfl⟩ := List.mem_map.mp member
    by_contra unlisted
    exact none_missing ⟨friend, key, fun healthy => unlisted healthy.listed_id⟩
  have unique : (friends.keys.map some).Nodup := friends.unique.map (Option.some_injective String)
  have at_least := (List.subperm_of_subset unique known).length_le
  have at_most := gathered.listed_le (List.sublist_append_right c.outstanding _).subperm
  simp only [List.length_map, Dict.keys] at at_least
  omega

/-- A list is reported once all pictures have decoded, and it is the list of all of them. -/
theorem Gathered.reported_all (gathered : Gathered c uid friends) {list : List UserModel}
    (reported : some list ∈ c.reports) :
    list = listed c.delivered ∧ (listed c.delivered).length = friends.entries.length := by
  cases gathered.phase with
  | waiting _ _ _ _ reports =>
    rw [reports] at reported
    cases reported
  | releasing left bound all count queue reports =>
    rw [reports] at reported
    exact ⟨Option.some.inj (List.eq_of_mem_replicate reported), all⟩

theorem reply_sent {e : Session} {v : Vars} {r : Request} {a : Answer r} {f : State}
    (ran : reply e v r a = .ok f) (uid : String) : .friends uid ∉ f.sent := by
  cases r with
  | friends uid' =>
    obtain rfl := Except.ok.inj ran
    unfold onFriends
    cases Json.stringDict? a with
    | none => exact List.not_mem_nil
    | some friends =>
      show .friends uid ∉ (friends.entries.foldl forFriend { vars := v }).sent
      rw [(forFriends_entered { vars := v } friends.entries).sent]
      simp [records]
  | record friend =>
    obtain rfl := Except.ok.inj ran
    unfold onRecord
    cases Json.dict? a with
    | none => exact List.not_mem_nil
    | some singleFriend => simp
  | userImage userModel =>
    rcases reply_userImage e v userModel a with ⟨_, quiet⟩ | ⟨pictured, _, leaves⟩
    · obtain rfl := Except.ok.inj (quiet.symm.trans ran)
      exact List.not_mem_nil
    · obtain ⟨⟨group, released⟩, _, left⟩ := bind_ok.mp (leaves.symm.trans ran)
      obtain rfl := Except.ok.inj left
      exact List.not_mem_nil

/-- The friends that are read are those of the account the call was started for. -/
theorem reads_started {A : Session → Call fetchFriendList → Call.Event fetchFriendList → Prop}
    (reachable : c.Reachable A) {uid : String} (sent : .friends uid ∈ c.requests) :
    uid = getCurrentUid c.startedIn := by
  induction reachable with
  | start ran =>
    obtain rfl := Except.ok.inj ran
    exact Request.friends.inj (List.mem_singleton.mp sent)
  | @step c c' e ev _ _ stepped ih =>
    rw [stepped.startedIn]
    rcases stepped.new_request sent with old | ⟨q, a, f, _, _, ran, new⟩ | ⟨b, f, _, ran, new⟩
    · exact ih old
    · exact absurd new (reply_sent (e := e) ran uid)
    · cases b
      obtain rfl := Except.ok.inj ran
      cases new

/-- Every list that is reported is the list of all pictures. -/
theorem reported_gathered (reachable : c.Reachable Call.AnyStep) {list : List UserModel}
    (reported : some list ∈ c.reports) : ∃ uid value friends, ⟨.friends uid, value⟩ ∈ c.delivered ∧
      Json.stringDict? value = some friends ∧ Gathered c uid friends ∧ list = listed c.delivered ∧
      (listed c.delivered).length = friends.entries.length := by
  cases reachable_progress reachable with
  | reading _ _ _ _ _ reports =>
    rw [reports] at reported
    cases reported
  | refused _ _ _ _ _ _ reports =>
    rw [reports] at reported
    cases List.mem_singleton.mp reported
  | gathered uid value friends read cast gathered =>
    obtain ⟨same, all⟩ := gathered.reported_all reported
    exact ⟨uid, value, friends, read, cast, gathered, same, all⟩

/-- Every list that `fetchFriendList` delivers holds one model for each friend of the account
and nothing else, each model from the friend's own record and picture. -/
theorem fetchFriendList_whole (reachable : c.Reachable Call.AnyStep) {list : List UserModel}
    (reported : some list ∈ c.reports) :
    ∃ value friends, ⟨.friends (getCurrentUid c.startedIn), value⟩ ∈ c.delivered ∧
      Json.stringDict? value = some friends ∧
      (list.map UserModel.userId).Perm (friends.keys.map some) ∧
      ∀ userModel ∈ list, ∃ friend ∈ friends.keys, OwnModel c.delivered friend userModel := by
  obtain ⟨uid, value, friends, read, cast, gathered, rfl, all⟩ := reported_gathered reachable reported
  obtain rfl := reads_started reachable (Call.delivered_mem_requests (List.mem_map_of_mem read))
  exact ⟨value, friends, read, cast, gathered.listed_ids_perm all,
    fun _ member => gathered.listed_own member⟩

/-- The two friends' list is delivered whole. -/
theorem fetchFriendList_whole_sample : ∃ (c : Call fetchFriendList) (list : List UserModel)
    (friends : Dict String), c.reports = [some list, some list] ∧
      (list.map UserModel.userId).Perm (friends.keys.map some) := by
  have ran : ((Device.boot twoFriends (some sampleAccount)).exec Network.AnyLabel
    bothDelivered).isSome := rfl
  have run := Device.exec_run (Option.some_get ran).symm
  have found : (Option.get _ ran).network.calls[0]? = some ⟨.fetchFriendList, _⟩ := rfl
  obtain ⟨c, reachable, list, reports⟩ : ∃ c : Call fetchFriendList, c.Reachable Call.AnyStep ∧
      ∃ list, c.reports = [some list, some list] :=
    ⟨_, run.call_reachable (fun _ _ _ _ _ _ _ => trivial) found, _, rfl⟩
  have first : some list ∈ c.reports := reports ▸ List.mem_cons_self
  obtain ⟨_, friends, _, _, once, _⟩ := fetchFriendList_whole reachable first
  exact ⟨c, list, friends, reports, once⟩

end SimpleSNS.FetchFriendList
