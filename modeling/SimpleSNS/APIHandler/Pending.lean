import SimpleSNS.APIHandler.Profiles
import SimpleSNS.Async.History
import SimpleSNS.Database.FValidation
import SimpleSNS.Json.Keys

/-!
The client of the database. It lays the writes that wait for an answer over what it reads, and a node all
of whose children have integers for keys is handed over as an array. Where ids are names and no read is
answered while a write waits, it reads what the store holds.
-/

namespace SimpleSNS
open Async

/-- An id that is one key, and no integer in the digits of any script. -/
def IsName (id : String) : Prop :=
  FValidation.isValidKey id = true ∧ (id.toList.any fun x => x.toNat < 128 && !x.isDigit) = true

instance : DecidablePred IsName := fun _ => inferInstanceAs (Decidable (_ ∧ _))

/-- The ids in the path or the file name of a request. -/
def ids : (k : Api) → (api k).Request → List String
  | .signUpNewUser, .createUser _ _ => []
  | .signUpNewUser, .setValue uid _ => [uid]
  | .signUpNewUser, .uploadImage userId _ => [userId]
  | .fetchCurrentUser, .record uid => [uid]
  | .fetchAllUsers, .users => []
  | .fetchAllUsers, .userImage userModel => [userModel.userId.getD ""]
  | .fetchFriendList, .friends uid => [uid]
  | .fetchFriendList, .record friend => [friend]
  | .fetchFriendList, .userImage userModel => [userModel.userId.getD ""]
  | .fetchAllPost, .posts => []
  | .fetchAllPost, .postUserName _ userId => [userId]
  | .fetchAllPost, .postUserImage _ userId => [userId]
  | .fetchAllPost, .postImage _ imageRef => [imageRef]
  | .updateUserInformation, .updateChildValues uid _ => [uid]
  | .updateUserInformation, .uploadImage userId _ => [userId]
  | .addToFriendList, r => [r.uid, r.friendId]
  | .removeFromFriendList, r => [r.uid, r.friendId]
  | .addNewPost, .setValue postKey _ _ _ => [postKey]
  | .addNewPost, .addPostStorage postKey _ => [postKey]
  | .addNewPost, .addPostRefCurrentUser uid postKey => [uid, postKey]

/-! ### Writes -/

/-- The nodes that a request writes in the database. -/
def updates : (k : Api) → (api k).Request → List (List String × Json)
  | .signUpNewUser, .setValue uid userInfo => [(userPath uid, (SignUpNewUser.userInfoDict userInfo).nodeFrom)]
  | .updateUserInformation, .updateChildValues uid userInfo =>
    (nullable (profileFields userInfo)).map fun field => (userPath uid ++ [field.1], field.2.nodeFrom)
  | .addToFriendList, r => [(friendsPath r.uid ++ [r.friendId], (Json.str "Friend Id").nodeFrom)]
  | .removeFromFriendList, r => [(friendsPath r.uid ++ [r.friendId], .null)]
  | .addNewPost, .setValue postKey description timeStamp userId =>
    [(postPath postKey, (AddNewPost.postRecord description timeStamp userId).nodeFrom)]
  | .addNewPost, .addPostRefCurrentUser uid postKey =>
    [(userPath uid ++ ["POST"] ++ [postKey], (Json.str "postKey").nodeFrom)]
  | _, _ => []

def overlay (database : Json) (writes : List (List String × Json)) : Json :=
  writes.foldl (fun database write => database.updateChild write.1 write.2) database

/-- A served request leaves the database alone or makes its updates. -/
theorem serve_database {w w' : Backend} {k : Api} {r : (api k).Request} {a : (api k).Answer r}
    (served : backend.serve w k r a w') :
    w'.database = w.database ∨ w'.database = overlay w.database (updates k r) := by
  have unchanged : w' = w → w'.database = w.database := congrArg Backend.database
  have write : ∀ {applied : Backend} {error : Option Error}, w.Write applied w' error →
      applied.database = overlay w.database (updates k r) →
      w'.database = w.database ∨ w'.database = overlay w.database (updates k r) := by
    intro applied error written same
    cases error with
    | none => exact Or.inr ((congrArg Backend.database written).trans same)
    | some error => exact Or.inl (congrArg Backend.database written)
  cases k with
  | signUpNewUser =>
    cases r with
    | createUser email password => exact Or.inl (createUser_database served)
    | setValue uid userInfo => exact write served rfl
    | uploadImage userId img => exact write served rfl
  | updateUserInformation =>
    cases r with
    | updateChildValues uid userInfo =>
      refine write served ?_
      unfold overlay updates
      rw [List.foldl_map]
      rfl
    | uploadImage userId img => exact write served rfl
  | addToFriendList => exact write served rfl
  | removeFromFriendList => exact write served rfl
  | addNewPost => cases r <;> exact write served rfl
  | fetchCurrentUser => exact Or.inl (unchanged served.1)
  | fetchAllUsers => exact Or.inl (unchanged (FetchAllUsers.serve_same served))
  | fetchFriendList => exact Or.inl (unchanged (FetchFriendList.serve_same served))
  | fetchAllPost => exact Or.inl (unchanged (FetchAllPost.serve_same served))

theorem profile_keys (userInfo : UserModel) : ∀ field ∈ nullable (profileFields userInfo),
    IsName field.1 ∧ Json.Keys IsName field.2 := by
  intro field member
  obtain ⟨⟨name, value⟩, listed, rfl⟩ := List.mem_map.mp member
  refine ⟨?_, ?_⟩
  · have names : ∀ name ∈ (profileFields userInfo).map Prod.fst, IsName name := by
      show ∀ name ∈ ["First Name", "Last Name", "Email Id", "Address", "Phone Number"], IsName name
      decide
    exact names name (List.mem_map_of_mem listed)
  · cases value with
    | none => exact .null
    | some text => exact .str text

theorem coordinate_keys (userInfo : UserModel) : Json.Keys IsName (coordinate userInfo) := by
  refine .obj _ ?_ ?_
  · show ∀ field ∈ [("Latitude", _), ("Longitude", _)], IsName field.1
    simp only [List.forall_mem_cons]
    exact ⟨by decide, by decide, fun _ member => absurd member List.not_mem_nil⟩
  · intro field member
    obtain ⟨⟨name, value⟩, _, rfl⟩ := List.mem_map.mp member
    cases value with
    | none => exact .null
    | some text => exact .str text

theorem record_keys (userInfo : UserModel) : Json.Keys IsName (SignUpNewUser.userInfoDict userInfo) := by
  have profile := profile_keys userInfo
  refine .obj _ ?_ ?_
  · intro field member
    rcases List.mem_append.mp member with old | last
    · exact (profile field old).1
    · obtain rfl := List.mem_singleton.mp last
      show IsName "Coordinate"
      decide
  · intro field member
    rcases List.mem_append.mp member with old | last
    · exact (profile field old).2
    · obtain rfl := List.mem_singleton.mp last
      exact coordinate_keys userInfo

theorem post_keys (description : String) (timeStamp : Rat) (userId : String) :
    Json.Keys IsName (AddNewPost.postRecord description timeStamp userId) := by
  refine .obj _ ?_ ?_
  · simp only [List.forall_mem_cons]
    exact ⟨by decide, by decide, by decide, by decide, fun _ member => absurd member List.not_mem_nil⟩
  · simp only [List.forall_mem_cons]
    exact ⟨.str _, .num _, .str _, .bool _, fun _ member => absurd member List.not_mem_nil⟩

theorem user_names {uid : String} (named : IsName uid) : ∀ piece ∈ userPath uid, IsName piece :=
  List.forall_mem_cons.mpr ⟨by decide, List.forall_mem_singleton.mpr named⟩

theorem below_names {path : List String} (names : ∀ piece ∈ path, IsName piece) {key : String}
    (named : IsName key) : ∀ piece ∈ path ++ [key], IsName piece :=
  List.forall_mem_append.mpr ⟨names, List.forall_mem_singleton.mpr named⟩

theorem friends_names {uid : String} (named : IsName uid) : ∀ piece ∈ friendsPath uid, IsName piece :=
  below_names (user_names named) (by decide)

theorem post_names {postKey : String} (named : IsName postKey) : ∀ piece ∈ postPath postKey, IsName piece :=
  List.forall_mem_cons.mpr ⟨by decide, List.forall_mem_singleton.mpr named⟩

/-- What is written for names has only names for keys. -/
theorem updates_named {k : Api} {r : (api k).Request} (named : ∀ id ∈ ids k r, IsName id) :
    ∀ write ∈ updates k r, (∀ piece ∈ write.1, IsName piece) ∧ Json.Keys IsName write.2 := by
  have one : ∀ {path : List String} {v : Json}, (∀ piece ∈ path, IsName piece) → Json.Keys IsName v →
      ∀ write ∈ [(path, v)], (∀ piece ∈ write.1, IsName piece) ∧ Json.Keys IsName write.2 := by
    intro path v names keys write member
    obtain rfl := List.mem_singleton.mp member
    exact ⟨names, keys⟩
  have none_written : ∀ write ∈ ([] : List (List String × Json)),
      (∀ piece ∈ write.1, IsName piece) ∧ Json.Keys IsName write.2 :=
    fun _ member => absurd member List.not_mem_nil
  cases k with
  | signUpNewUser =>
    cases r with
    | setValue uid userInfo =>
      exact one (user_names (named uid List.mem_cons_self)) (record_keys userInfo).nodeFrom
    | createUser email password => exact none_written
    | uploadImage userId img => exact none_written
  | updateUserInformation =>
    cases r with
    | updateChildValues uid userInfo =>
      intro write member
      obtain ⟨field, listed, rfl⟩ := List.mem_map.mp member
      obtain ⟨name, keys⟩ := profile_keys userInfo field listed
      exact ⟨below_names (user_names (named uid List.mem_cons_self)) name, keys.nodeFrom⟩
    | uploadImage userId img => exact none_written
  | addToFriendList =>
    have friend := named r.friendId (List.mem_cons_of_mem _ List.mem_cons_self)
    exact one (below_names (friends_names (named r.uid List.mem_cons_self)) friend) (Json.Keys.str _).nodeFrom
  | removeFromFriendList =>
    have friend := named r.friendId (List.mem_cons_of_mem _ List.mem_cons_self)
    exact one (below_names (friends_names (named r.uid List.mem_cons_self)) friend) .null
  | addNewPost =>
    cases r with
    | setValue postKey description timeStamp userId =>
      exact one (post_names (named postKey List.mem_cons_self)) (post_keys _ _ _).nodeFrom
    | addPostStorage postKey img => exact none_written
    | addPostRefCurrentUser uid postKey =>
      have own := below_names (user_names (named uid List.mem_cons_self)) (by decide : IsName "POST")
      have key := named postKey (List.mem_cons_of_mem _ List.mem_cons_self)
      exact one (below_names own key) (Json.Keys.str _).nodeFrom
  | fetchCurrentUser => exact none_written
  | fetchAllUsers => cases r <;> exact none_written
  | fetchFriendList => cases r <;> exact none_written
  | fetchAllPost => cases r <;> exact none_written

theorem overlay_keys {database : Json} (keys : Json.Keys IsName database) {writes : List (List String × Json)}
    (named : ∀ write ∈ writes, (∀ piece ∈ write.1, IsName piece) ∧ Json.Keys IsName write.2) :
    Json.Keys IsName (overlay database writes) := by
  induction writes generalizing database with
  | nil => exact keys
  | cons write rest ih =>
    obtain ⟨⟨path, value⟩, later⟩ := List.forall_mem_cons.mp named
    exact ih (keys.updateChild path value) later

theorem serve_keys {w w' : Backend} {k : Api} {r : (api k).Request} {a : (api k).Answer r}
    (served : backend.serve w k r a w') (named : ∀ id ∈ ids k r, IsName id)
    (keys : Json.Keys IsName w.database) : Json.Keys IsName w'.database := by
  rcases serve_database served with same | written
  · rw [same]
    exact keys
  · rw [written]
    exact overlay_keys keys (updates_named named)

/-! ### Reads -/

/-- The path that a request reads, and what it is answered. -/
def reading : (k : Api) → (r : (api k).Request) → (api k).Answer r → Option (List String × Json)
  | .fetchCurrentUser, .record uid, value => some (userPath uid, value)
  | .fetchAllUsers, .users, value => some (["USER"], value)
  | .fetchFriendList, .friends uid, value => some (friendsPath uid, value)
  | .fetchFriendList, .record friend, value => some (userPath friend, value)
  | .fetchAllPost, .posts, value => some (["POST"], value)
  | .fetchAllPost, .postUserName _ userId, value => some (userPath userId ++ ["First Name"], value)
  | _, _, _ => none

/-- The writes that have been sent and wait for their answers. -/
def pending (s : Network api Backend) : List (List String × Json) :=
  s.calls.flatMap fun job => job.call.outstanding.flatMap (updates job.kind)

/-- Nothing waits. -/
def Acknowledged (s : Network api Backend) : Prop := (pending s).isEmpty = true

/-- What a read may answer: the node of the store with some of the waiting writes laid over it, if all its
keys are names, and something else if not. -/
def Reads (s : Network api Backend) (path : List String) (value : Json) : Prop :=
  ∃ writes, writes.Subperm (pending s) ∧
    ((∀ piece ∈ path, IsName piece) → Json.Keys IsName (overlay s.world.database writes) →
      value = (overlay s.world.database writes).getChild path)

theorem Reads.acknowledged {s : Network api Backend} {path : List String} {value : Json}
    (reads : Reads s path value) (acknowledged : Acknowledged s) (names : ∀ piece ∈ path, IsName piece)
    (keys : Json.Keys IsName s.world.database) : value = s.world.database.getChild path := by
  obtain ⟨writes, waiting, same⟩ := reads
  rw [List.isEmpty_iff.mp acknowledged, List.subperm_nil] at waiting
  subst waiting
  exact same names keys

theorem Reads.store {s : Network api Backend} (path : List String) :
    Reads s path (s.world.database.getChild path) :=
  ⟨[], List.nil_subperm, fun _ _ => rfl⟩

/-- Serves a request with names like the store, but for what it reads, and any other in any way. -/
def databaseClient : Service api Backend where
  serve w k r a w' := (∀ id ∈ ids k r, IsName id) →
    ((reading k r a).isSome → w' = w) ∧ (reading k r a = none → backend.serve w k r a w')

/-- What the client promises. -/
def Answered (s : Network api Backend) : Network.Label api → Prop
  | .call _ _ k (.serve r a) => ∀ path value, reading k r a = some (path, value) → Reads s path value
  | _ => True

/-- Ids are names, and no read is answered while a write waits. -/
def Patient (s : Network api Backend) : Network.Label api → Prop
  | .call _ _ k (.serve r a) => (∀ id ∈ ids k r, IsName id) ∧ ((reading k r a).isSome → Acknowledged s)
  | _ => True

instance (s : Network api Backend) : DecidablePred (Patient s) := fun l =>
  match l with
  | .start _ _ _ | .call _ _ _ (.deliver _ _) | .call _ _ _ (.block _) => isTrue trivial
  | .call _ _ k (.serve r a) =>
    inferInstanceAs (Decidable ((∀ id ∈ ids k r, IsName id) ∧
      ((reading k r a).isSome = true → (pending s).isEmpty = true)))

/-- The runs of an app on an empty store. -/
abbrev Observed (labels : List (Network.Label api)) (s : Network api Backend) : Prop :=
  Network.Tracked databaseClient (fun s l => Answered s l ∧ Patient s l) { world := {} } labels s

theorem reading_serve {w w' : Backend} {k : Api} {r : (api k).Request} {a : (api k).Answer r}
    {path : List String} {value : Json} (read : reading k r a = some (path, value)) :
    backend.serve w k r a w' ↔ w.Observe path w' value := by
  cases k with
  | fetchCurrentUser => cases read; rfl
  | fetchAllUsers =>
    cases r with
    | users =>
      cases read
      rfl
    | userImage userModel => cases read
  | fetchFriendList => cases r <;> cases read <;> rfl
  | fetchAllPost => cases r <;> cases read <;> rfl
  | addToFriendList => cases read
  | removeFromFriendList => cases read
  | signUpNewUser => cases r <;> cases read
  | updateUserInformation => cases r <;> cases read
  | addNewPost => cases r <;> cases read

theorem reading_names {k : Api} {r : (api k).Request} {a : (api k).Answer r} {path : List String}
    {value : Json} (read : reading k r a = some (path, value)) (named : ∀ id ∈ ids k r, IsName id) :
    ∀ piece ∈ path, IsName piece := by
  cases k with
  | fetchCurrentUser =>
    cases read
    exact user_names (named _ List.mem_cons_self)
  | fetchAllUsers =>
    cases r with
    | users =>
      cases read
      decide
    | userImage userModel => cases read
  | fetchFriendList =>
    cases r <;> cases read
    · exact friends_names (named _ List.mem_cons_self)
    · exact user_names (named _ List.mem_cons_self)
  | fetchAllPost =>
    cases r <;> cases read
    · decide
    · exact below_names (user_names (named _ List.mem_cons_self)) (by decide)
  | addToFriendList => cases read
  | removeFromFriendList => cases read
  | signUpNewUser => cases r <;> cases read
  | updateUserInformation => cases r <;> cases read
  | addNewPost => cases r <;> cases read

/-- A patient step of the client is one of the store. -/
theorem client_serve {s : Network api Backend} {w : Backend} {e : Session} {i : Nat} {k : Api}
    {r : (api k).Request} {a : (api k).Answer r} (keys : Json.Keys IsName s.world.database)
    (answered : Answered s (.call e i k (.serve r a))) (patient : Patient s (.call e i k (.serve r a)))
    (served : databaseClient.serve s.world k r a w) : backend.serve s.world k r a w := by
  obtain ⟨named, acknowledged⟩ := patient
  obtain ⟨unchanged, as_store⟩ := served named
  cases read : reading k r a with
  | none => exact as_store read
  | some reads =>
    have some_read : (reading k r a).isSome := Option.isSome_of_eq_some read
    refine (reading_serve read).mpr ⟨unchanged some_read, ?_⟩
    exact (answered _ _ read).acknowledged (acknowledged some_read) (reading_names read named) keys

theorem serve_client {w w' : Backend} {k : Api} {r : (api k).Request} {a : (api k).Answer r}
    (served : backend.serve w k r a w') : databaseClient.serve w k r a w' := by
  intro _
  refine ⟨?_, fun _ => served⟩
  intro some_read
  obtain ⟨⟨path, value⟩, read⟩ := Option.isSome_iff_exists.mp some_read
  exact ((reading_serve read).mp served).1

/-- A patient app sees the runs of the store, and in these all keys are names. -/
theorem observed_trace {s : Network api Backend} {labels : List (Network.Label api)}
    (observed : Observed labels s) :
    Network.Trace backend { world := {} } labels s ∧ Json.Keys IsName s.world.database := by
  refine observed.trace (I := fun s => Json.Keys IsName s.world.database) .null ?_
  rintro s l s' keys ⟨answered, patient⟩ stepped
  have stepped' : Network.Step backend s l s' := by
    refine stepped.under ?_
    rintro e i k r a w rfl served
    exact client_serve keys answered patient served
  refine ⟨stepped', ?_⟩
  cases stepped' with
  | start e k input ran => exact keys
  | @call e k c c' ev w index found moved moves =>
    cases ev with
    | serve r a => exact serve_keys moves patient.1 keys
    | deliver r a => exact (show w = s.world from moves) ▸ keys
    | block b => exact (show w = s.world from moves) ▸ keys

end SimpleSNS
