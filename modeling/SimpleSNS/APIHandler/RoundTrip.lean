import SimpleSNS.Json.Object
import SimpleSNS.APIHandler.Profiles
import SimpleSNS.APIHandler.UserFanIn

/-!
Two writers and three readers of one record. Sign-up writes all of a profile, a save its five
editable fields; the readers are given the node as it is stored and build one model from it. The
friends and posts of an account lie in the same record and are written one by one.
-/

namespace SimpleSNS
open Async

/-! ### The shape of the store -/

def recordKeys : List String :=
  ["First Name", "Last Name", "Email Id", "Address", "Phone Number", "Coordinate", "FRIENDS", "POST"]

/-- A child that a record may have. -/
def RecordChild (key : String) (value : Json) : Prop := key ∈ recordKeys ∧ value ≠ .null

/-- `USER` has a record for each of its keys. -/
def Users (database : Json) : Prop :=
  Json.Node (fun _ => Json.Object RecordChild) (database.getChild ["USER"])

theorem recordChild {key : String} (known : key ∈ recordKeys) (value : Json) :
    value = .null ∨ RecordChild key value := by
  by_cases missing : value = .null
  · exact Or.inl missing
  · exact Or.inr ⟨known, missing⟩

theorem record_child (w : Backend) (uid : String) :
    (w.database.getChild ["USER"]).getImmediateChild uid = record w uid := by
  simp [record, userPath]

theorem Users.record {w : Backend} (users : Users w.database) (uid : String) :
    Json.Node RecordChild (record w uid) := by
  have child := Json.Node.child users uid
  rwa [record_child] at child

theorem Users.set {database : Json} (users : Users database) (uid : String) {v : Json}
    (node : Json.Node RecordChild v) : Users (database.updateChild (userPath uid) v) := by
  have replaced := Json.getChild_updateChild_above database v ["USER"] [uid]
  rw [Json.updateChild_cons, Json.updateChild_nil] at replaced
  unfold Users
  rw [show userPath uid = ["USER"] ++ [uid] from rfl, replaced]
  exact users.update node

theorem Users.write {database : Json} (users : Users database) (uid : String) {key : String}
    (known : key ∈ recordKeys) (path : List String) (v : Json) :
    Users (database.updateChild (userPath uid ++ key :: path) v) := by
  have written := Json.getChild_updateChild_above database v ["USER"] (uid :: key :: path)
  rw [Json.updateChild_cons, Json.updateChild_cons] at written
  unfold Users
  rw [show userPath uid ++ key :: path = ["USER"] ++ uid :: key :: path from rfl, written]
  have child : Json.Node RecordChild ((database.getChild ["USER"]).getImmediateChild uid) :=
    Json.Node.child users uid
  exact users.update (child.update (recordChild known _))

theorem Users.writes {database : Json} (users : Users database) (uid : String)
    {fields : List (String × Json)} (known : ∀ field ∈ fields, field.1 ∈ recordKeys) :
    Users (fields.foldl (fun database field =>
      database.updateChild (userPath uid ++ [field.1]) field.2.nodeFrom) database) := by
  induction fields generalizing database with
  | nil => exact users
  | cons field rest ih =>
    have first := users.write uid (known field List.mem_cons_self) [] field.2.nodeFrom
    exact ih first fun later member => known later (List.mem_cons_of_mem _ member)

theorem userInfoDict_record (userInfo : UserModel) :
    Json.Node RecordChild (SignUpNewUser.userInfoDict userInfo).nodeFrom := by
  apply Json.nodeFrom_node
  · simp [nullable, profileFields]
  · intro field member
    apply recordChild
    simp only [nullable, profileFields, List.map_cons, List.map_nil, List.cons_append,
      List.nil_append, List.mem_cons, List.not_mem_nil, or_false] at member
    rcases member with rfl | rfl | rfl | rfl | rfl | rfl <;> simp [recordKeys]

theorem Backend.Write.holds {w applied w' : Backend} {error : Option Error} {p : Backend → Prop}
    (served : w.Write applied w' error) (before : p w) (after : p applied) : p w' := by
  cases error with
  | none => exact (show w' = applied from served) ▸ after
  | some error => exact (show w' = w from served) ▸ before

theorem serve_users {w w' : Backend} {k : Api} {r : (api k).Request} {a : (api k).Answer r}
    (users : Users w.database) (served : backend.serve w k r a w') : Users w'.database := by
  have unchanged : w' = w → Users w'.database := fun same => same ▸ users
  cases k with
  | signUpNewUser =>
    cases r with
    | createUser email password => exact createUser_database served ▸ users
    | uploadImage userId img => exact served.holds (p := fun w => Users w.database) users users
    | setValue uid userInfo =>
      exact served.holds (p := fun w => Users w.database) users
        (users.set uid (userInfoDict_record userInfo))
  | updateUserInformation =>
    cases r with
    | uploadImage userId img => exact served.holds (p := fun w => Users w.database) users users
    | updateChildValues uid userInfo =>
      refine served.holds (p := fun w => Users w.database) users (users.writes uid ?_)
      intro field member
      have named := List.mem_map_of_mem (f := Prod.fst) member
      have known : (nullable (profileFields userInfo)).map Prod.fst ⊆ recordKeys := by
        simp [nullable, profileFields, recordKeys]
      exact known named
  | addToFriendList =>
    exact served.holds (p := fun w => Users w.database) users
      (users.write r.uid (by decide : "FRIENDS" ∈ recordKeys) [r.friendId] _)
  | removeFromFriendList =>
    exact served.holds (p := fun w => Users w.database) users
      (users.write r.uid (by decide : "FRIENDS" ∈ recordKeys) [r.friendId] _)
  | addNewPost =>
    cases r with
    | addPostStorage postKey img => exact served.holds (p := fun w => Users w.database) users users
    | setValue postKey description timeStamp userId =>
      have apart : Json.Apart (postPath postKey) ["USER"] := Or.inl (by decide)
      refine served.holds (p := fun w => Users w.database) users ?_
      unfold Users
      rw [Backend.setValue, Json.getChild_updateChild_apart _ _ apart]
      exact users
    | addPostRefCurrentUser uid postKey =>
      exact served.holds (p := fun w => Users w.database) users
        (users.write uid (by decide : "POST" ∈ recordKeys) [postKey] _)
  | fetchCurrentUser => exact unchanged served.1
  | fetchAllUsers => exact unchanged (FetchAllUsers.serve_same served)
  | fetchFriendList => exact unchanged (FetchFriendList.serve_same served)
  | fetchAllPost => exact unchanged (FetchAllPost.serve_same served)

/-! ### What the readers build -/

/-- A read whose answer holds the record of `uid`. -/
def ReadsRecord (uid : String) : (k : Api) → (api k).Request → Prop
  | .fetchCurrentUser, .record uid' => uid' = uid
  | .fetchAllUsers, .users => True
  | .fetchFriendList, .record friend => friend = uid
  | _, _ => False

def FetchAllUsers.imageOf : Request → Option UserModel
  | .users => none
  | .userImage userModel => some userModel

def FetchFriendList.imageOf : Request → Option UserModel
  | .userImage userModel => some userModel
  | _ => none

/-- The models of `uid` that the callback of a read builds: they are handed over at once, or each
travels with the request for its picture. -/
def built (uid : String) : (k : Api) → (api k).Frame → List UserModel
  | .fetchCurrentUser, f => f.reported.reduceOption
  | .fetchAllUsers, f =>
    (f.sent.filterMap FetchAllUsers.imageOf).filter fun userModel => userModel.userId = some uid
  | .fetchFriendList, f => f.sent.filterMap FetchFriendList.imageOf
  | _, _ => []

/-- From the store as it is, each of the three readers builds `models` for `uid`. -/
def ReadAs (w : Backend) (uid : String) (models : List UserModel) : Prop :=
  ∀ (k : Api) (r : (api k).Request) (a : (api k).Answer r) (w' : Backend) (e : Session)
    (v : (api k).Vars), ReadsRecord uid k r → (k = .fetchCurrentUser → getCurrentUid e = uid) →
    backend.serve w k r a w' → ∃ f, (api k).reply e v r a = .ok f ∧ built uid k f = models

/-- Among the users of a dictionary, `uid` is the one under that key. -/
theorem filter_decoded (users : Dict (Dict Json)) (uid : String) :
    ((users.entries.map fun user => UserModel.decode user.1 user.2).filter
        fun userModel => userModel.userId = some uid) =
      (users.get? uid).toList.map (UserModel.decode uid) := by
  have named : ((fun userModel : UserModel => decide (userModel.userId = some uid)) ∘
      fun user : String × Dict Json => UserModel.decode user.1 user.2) =
      fun user => decide (user.1 = uid) := by
    funext user
    simp
  rw [List.filter_map, named, Dict.filter_key, List.map_map]
  rfl

/-- All three decode the record in the same way. -/
theorem read_record {w : Backend} (users : Users w.database) (uid : String) :
    ReadAs w uid ((record w uid).dict?.toList.map (UserModel.decode uid)) := by
  intro k r a w' e v reads signed served
  cases k with
  | fetchCurrentUser =>
    obtain ⟨uid'⟩ := r
    obtain rfl : uid' = uid := reads
    obtain ⟨_, rfl⟩ : w' = w ∧ a = record w uid' := served
    refine ⟨_, rfl, ?_⟩
    show (FetchCurrentUser.onRecord e (record w uid')).reported.reduceOption = _
    unfold FetchCurrentUser.onRecord
    rw [signed rfl]
    cases (record w uid').dict? with
    | none => rfl
    | some userInfoDict => rfl
  | fetchFriendList =>
    cases r with
    | friends uid' => exact reads.elim
    | userImage userModel => exact reads.elim
    | record friend =>
      obtain rfl : friend = uid := reads
      obtain ⟨_, rfl⟩ : w' = w ∧ a = record w friend := served
      refine ⟨_, rfl, ?_⟩
      show (FetchFriendList.onRecord v friend (record w friend)).sent.filterMap
        FetchFriendList.imageOf = _
      unfold FetchFriendList.onRecord
      cases (record w friend).dict? with
      | none => rfl
      | some singleFriend => rfl
  | fetchAllUsers =>
    cases r with
    | userImage userModel => exact reads.elim
    | users =>
      obtain ⟨_, rfl⟩ : w' = w ∧ a = w.database.getChild ["USER"] := served
      refine ⟨_, rfl, ?_⟩
      show ((FetchAllUsers.onUsers v (w.database.getChild ["USER"])).sent.filterMap
        FetchAllUsers.imageOf).filter _ = _
      rcases Json.Node.dictDict? users with ⟨missing, refused⟩ | ⟨found, cast, read⟩
      · have no_record : record w uid = .null := by
          rw [← record_child, missing]
          rfl
        rw [no_record]
        unfold FetchAllUsers.onUsers
        rw [refused]
        rfl
      · obtain ⟨s, entered, ran⟩ := FetchAllUsers.onUsers_some (v := v) cast
        have sent : (FetchAllUsers.onUsers v (w.database.getChild ["USER"])).sent =
            found.entries.map FetchAllUsers.picture := by
          rw [ran]
          exact entered.sent
        have images : (found.entries.map FetchAllUsers.picture).filterMap FetchAllUsers.imageOf =
            found.entries.map fun user => UserModel.decode user.1 user.2 := by
          rw [List.filterMap_map, ← List.filterMap_eq_map]
          rfl
        rw [sent, images, filter_decoded, read uid, record_child]
  | _ => exact reads.elim

/-! ### What the record holds -/

/-- The fields of `user` and the location of the sign-up. -/
structure Holds (record : Json) (user signedUp : UserModel) : Prop where
  fields : ∀ name value, (name, value) ∈ profileFields user →
    record.getImmediateChild name = (value.map Json.str).getD .null
  location : record.getImmediateChild "Coordinate" = (coordinate signedUp).nodeFrom

/-- The model that a reader should build. -/
def profile (uid : String) (user signedUp : UserModel) : UserModel where
  userId := some uid
  firstName := user.firstName
  lastName := user.lastName
  emailId := user.emailId
  address := user.address
  phoneNumber := user.phoneNumber
  latitude := signedUp.latitude
  longitude := signedUp.longitude

theorem string?_stored (value : Option String) :
    Json.string? ((value.map Json.str).getD .null) = value := by
  cases value <;> rfl

/-- The location is read as it was signed up with. -/
theorem coordinate_read (signedUp : UserModel) :
    let stored := ((coordinate signedUp).nodeFrom).stringDict?
    stored.bind (·.get? "Latitude") = signedUp.latitude ∧
      stored.bind (·.get? "Longitude") = signedUp.longitude := by
  obtain ⟨_, _, _, _, _, _, _, _, latitude, longitude⟩ := signedUp
  cases latitude <;> cases longitude <;> exact ⟨rfl, rfl⟩

/-- Decoding inverts what the writers encode. -/
theorem Holds.decoded {record : Json} {user signedUp : UserModel} (holds : Holds record user signedUp)
    {d : Dict Json} (cast : record.dict? = some d) (uid : String) :
    UserModel.decode uid d = profile uid user signedUp := by
  have string : ∀ name value, (name, value) ∈ profileFields user →
      (d.get? name).bind Json.string? = value := by
    intro name value field
    rw [Json.dict?_bind cast Json.string? rfl, holds.fields name value field, string?_stored]
  have location : (d.get? "Coordinate").bind Json.stringDict? =
      ((coordinate signedUp).nodeFrom).stringDict? := by
    rw [Json.dict?_bind cast Json.stringDict? rfl, holds.location]
  have first := string "First Name" user.firstName (by simp [profileFields])
  have last := string "Last Name" user.lastName (by simp [profileFields])
  have email := string "Email Id" user.emailId (by simp [profileFields])
  have address := string "Address" user.address (by simp [profileFields])
  have phone := string "Phone Number" user.phoneNumber (by simp [profileFields])
  obtain ⟨latitude, longitude⟩ := coordinate_read signedUp
  simp only [UserModel.decode, profile, first, last, email, address, phone, location, latitude,
    longitude]

theorem signedUp_holds (signedUp : UserModel) :
    Holds (SignUpNewUser.userInfoDict signedUp).nodeFrom signedUp signedUp := by
  have unique : ((nullable (profileFields signedUp) ++
      [("Coordinate", coordinate signedUp)]).map Prod.fst).Nodup := by
    simp [nullable, profileFields]
  refine ⟨?_, ?_⟩
  · intro name value field
    rw [SignUpNewUser.userInfoDict, Json.nodeFrom_getImmediateChild unique,
      Json.lookup_mem unique (List.mem_append_left _ (nullable_mem field)), nullable_stored]
  · rw [SignUpNewUser.userInfoDict, Json.nodeFrom_getImmediateChild unique,
      Json.lookup_mem unique (List.mem_append_right _ (List.mem_singleton_self _))]

theorem saved_holds {record : Json} {user signedUp : UserModel} (holds : Holds record user signedUp)
    (saved : UserModel) :
    Holds (record.updateChildren (nullable (profileFields saved))) saved signedUp := by
  refine ⟨fun name value field => saved_read record field, ?_⟩
  rw [saved_other record saved (by simp [profileFields]), holds.location]

/-- The profile of a record is read from these children. -/
def profileKeys : List String := profilePaths.filterMap List.head?

theorem Holds.congr {record record' : Json} {user signedUp : UserModel}
    (holds : Holds record user signedUp)
    (same : ∀ name ∈ profileKeys, record'.getImmediateChild name = record.getImmediateChild name) :
    Holds record' user signedUp := by
  refine ⟨?_, ?_⟩
  · intro name value field
    have known : name ∈ profileKeys := by
      have named := List.mem_map_of_mem (f := Prod.fst) field
      have keys : (profileFields user).map Prod.fst ⊆ profileKeys := by
        simp [profileFields, profileKeys, profilePaths]
      exact keys named
    rw [same name known, holds.fields name value field]
  · rw [same "Coordinate" (by decide), holds.location]

/-! ### Requests that are served -/

/-- The kind of function a step belongs to. -/
def kindOf : Network.Label api → Api
  | .start _ k _ => k
  | .call _ _ k _ => k

def savedBy (uid : String) : (k : Api) → (r : (api k).Request) → (api k).Answer r → Option UserModel
  | .updateUserInformation, .updateChildValues uid' user, none => if uid' = uid then some user else none
  | _, _, _ => none

/-- The model that a step saves for `uid`. -/
def saved (uid : String) : Network.Label api → Option UserModel
  | .call _ _ k (.serve r a) => savedBy uid k r a
  | _ => none

def SignsUp (uid : String) : (k : Api) → (r : (api k).Request) → (api k).Answer r → Prop
  | .signUpNewUser, .setValue uid' _, none => uid' = uid
  | _, _, _ => False

/-- The step writes the record of a sign-up of `uid`. -/
def Registers (uid : String) : Network.Label api → Prop
  | .call _ _ k (.serve r a) => SignsUp uid k r a
  | _ => False

/-- The last model that was saved for `uid`, or the one signed up with. -/
def latest (uid : String) (signedUp : UserModel) (labels : List (Network.Label api)) : UserModel :=
  (labels.filterMap (saved uid)).getLast?.getD signedUp

theorem latest_append (uid : String) (signedUp : UserModel) (labels : List (Network.Label api))
    (l : Network.Label api) :
    latest uid signedUp (labels ++ [l]) = (saved uid l).getD (latest uid signedUp labels) := by
  unfold latest
  rw [List.filterMap_append]
  cases step : saved uid l with
  | none => simp [step]
  | some user => simp [step]

/-- A friend or a post is written beside the profile. -/
theorem list_beside {list : String} (apart : list ∉ profileKeys) (record v : Json) (key : String)
    {name : String} (known : name ∈ profileKeys) :
    (record.updateChild [list, key] v).getImmediateChild name = record.getImmediateChild name := by
  rw [Json.updateChild_cons]
  apply Json.updateImmediateChild_other
  rintro rfl
  exact apart known

theorem recordAfter_keeps {write : Option (String × (Json → Json))} {before : Json} {uid name : String}
    (keeps : ∀ uid' change, write = some (uid', change) →
      (change before).getImmediateChild name = before.getImmediateChild name) :
    (recordAfter write before uid).getImmediateChild name = before.getImmediateChild name := by
  unfold recordAfter
  split
  · rename_i uid' change
    split
    · exact keeps uid' change rfl
    · rfl
  · rfl

/-- Whatever is not a sign-up or a save changes no child that the profile is read from. -/
theorem serve_profile {w w' : Backend} {k : Api} {r : (api k).Request} {a : (api k).Answer r}
    (served : backend.serve w k r a w') (kind : k ≠ .signUpNewUser ∧ k ≠ .updateUserInformation)
    (uid : String) {name : String} (known : name ∈ profileKeys) :
    (record w' uid).getImmediateChild name = (record w uid).getImmediateChild name := by
  have friends : "FRIENDS" ∉ profileKeys := by decide
  have posts : "POST" ∉ profileKeys := by decide
  rw [serve_record served uid]
  apply recordAfter_keeps
  intro uid' change write
  cases k with
  | signUpNewUser => exact absurd rfl kind.1
  | updateUserInformation => exact absurd rfl kind.2
  | addToFriendList =>
    cases a with
    | some error => cases write
    | none =>
      cases write
      exact list_beside friends _ _ _ known
  | removeFromFriendList =>
    cases a with
    | some error => cases write
    | none =>
      cases write
      exact list_beside friends _ _ _ known
  | addNewPost =>
    cases r with
    | setValue postKey description timeStamp userId => cases a <;> cases write
    | addPostStorage postKey img => cases a <;> cases write
    | addPostRefCurrentUser uid postKey =>
      cases a with
      | some error => cases write
      | none =>
        cases write
        exact list_beside posts _ _ _ known
  | _ => cases write

/-- A save changes no child but the five it writes, the friends and posts of no account. -/
theorem serve_lists {w w' : Backend} {r : UpdateUserInformation.Request} {a : Option Error}
    (served : UpdateUserInformation.Serve w w' r a) (uid : String) {list : String}
    (known : list ∈ ["FRIENDS", "POST"]) :
    (record w' uid).getImmediateChild list = (record w uid).getImmediateChild list := by
  have after := serve_record (k := .updateUserInformation) (r := r) (a := a) served uid
  rw [after]
  apply recordAfter_keeps
  intro uid' change write
  cases r with
  | uploadImage userId img => cases a <;> cases write
  | updateChildValues uid userInfo =>
    cases a with
    | some error => cases write
    | none =>
      cases write
      apply saved_other
      intro field
      have apart : ∀ name ∈ ["FRIENDS", "POST"], name ∉ (profileFields userInfo).map Prod.fst := by
        simp [profileFields]
      exact apart list known field

theorem serve_holds {w w' : Backend} {k : Api} {r : (api k).Request} {a : (api k).Answer r}
    {uid : String} {user signedUp : UserModel} (holds : Holds (record w uid) user signedUp)
    (served : backend.serve w k r a w') (other : ¬ SignsUp uid k r a) :
    Holds (record w' uid) ((savedBy uid k r a).getD user) signedUp := by
  have beside : k ≠ .signUpNewUser ∧ k ≠ .updateUserInformation →
      Holds (record w' uid) user signedUp := by
    intro kind
    exact holds.congr fun name known => serve_profile served kind uid known
  cases k with
  | signUpNewUser =>
    rw [serve_record served uid]
    cases r with
    | createUser email password => exact holds
    | uploadImage userId img => exact holds
    | setValue uid' userInfo =>
      cases a with
      | some error => exact holds
      | none =>
        have apart : uid' ≠ uid := other
        show Holds (recordAfter (some _) _ _) _ _
        rw [recordAfter_other apart]
        exact holds
  | updateUserInformation =>
    rw [serve_record served uid]
    cases r with
    | uploadImage userId img => exact holds
    | updateChildValues uid' userInfo =>
      cases a with
      | some error => exact holds
      | none =>
        show Holds (recordAfter (some _) _ _) (Option.getD (if uid' = uid then _ else _) _) _
        by_cases same : uid' = uid
        · subst same
          rw [recordAfter_self, if_pos rfl]
          exact saved_holds holds userInfo
        · rw [recordAfter_other same, if_neg same]
          exact holds
  | _ => exact beside ⟨nofun, nofun⟩

/-! ### Runs -/

theorem step_users {s s' : Network api Backend} {l : Network.Label api} (users : Users s.world.database)
    (stepped : Network.Step backend s l s') : Users s'.world.database := by
  cases stepped with
  | start e k input ran => exact users
  | @call e k c c' ev w index found call_step moves =>
    cases ev with
    | serve r a => exact serve_users users moves
    | deliver r a => exact (show w = s.world from moves) ▸ users
    | block b => exact (show w = s.world from moves) ▸ users

theorem step_holds {s s' : Network api Backend} {l : Network.Label api} {uid : String}
    {user signedUp : UserModel} (holds : Holds (record s.world uid) user signedUp)
    (stepped : Network.Step backend s l s') (other : ¬ Registers uid l) :
    Holds (record s'.world uid) ((saved uid l).getD user) signedUp := by
  cases stepped with
  | start e k input ran => exact holds
  | @call e k c c' ev w index found call_step moves =>
    cases ev with
    | serve r a => exact serve_holds holds moves other
    | deliver r a => exact (show w = s.world from moves) ▸ holds
    | block b => exact (show w = s.world from moves) ▸ holds

theorem step_lists {s s' : Network api Backend} {l : Network.Label api}
    (stepped : Network.Step backend s l s') (kind : kindOf l = .updateUserInformation) (uid : String)
    {list : String} (known : list ∈ ["FRIENDS", "POST"]) :
    (record s'.world uid).getImmediateChild list = (record s.world uid).getImmediateChild list := by
  cases stepped with
  | start e k input ran => rfl
  | @call e k c c' ev w index found call_step moves =>
    obtain rfl : k = .updateUserInformation := kind
    cases ev with
    | serve r a => exact serve_lists moves uid known
    | deliver r a => rw [show w = s.world from moves]; rfl
    | block b => cases b

theorem step_profile {s s' : Network api Backend} {l : Network.Label api}
    (stepped : Network.Step backend s l s')
    (kind : kindOf l ≠ .signUpNewUser ∧ kindOf l ≠ .updateUserInformation) (uid : String)
    {name : String} (known : name ∈ profileKeys) :
    (record s'.world uid).getImmediateChild name = (record s.world uid).getImmediateChild name := by
  cases stepped with
  | start e k input ran => rfl
  | @call e k c c' ev w index found call_step moves =>
    cases ev with
    | serve r a => exact serve_profile moves kind uid known
    | deliver r a => rw [show w = s.world from moves]; rfl
    | block b => rw [show w = s.world from moves]; rfl

/-- After a sign-up the record holds what was saved last. -/
theorem trace_holds {s₁ s : Network api Backend} {labels : List (Network.Label api)} {uid : String}
    {signedUp : UserModel} (later : Network.Trace backend s₁ labels s)
    (users : Users s₁.world.database) (holds : Holds (record s₁.world uid) signedUp signedUp)
    (once : ∀ l ∈ labels, ¬ Registers uid l) :
    Users s.world.database ∧ Holds (record s.world uid) (latest uid signedUp labels) signedUp := by
  induction later with
  | refl => exact ⟨users, holds⟩
  | @step s s' labels l _ stepped ih =>
    obtain ⟨users', holds'⟩ := ih fun l member => once l (List.mem_append_left _ member)
    refine ⟨step_users users' stepped, ?_⟩
    rw [latest_append]
    exact step_holds holds' stepped (once l (List.mem_append_right _ List.mem_cons_self))

/-- Nothing is left that the record of an account could hold. -/
def Blank (user signedUp : UserModel) (record : Json) : Prop :=
  (∀ field ∈ profileFields user, field.2 = none) ∧ signedUp.latitude = none ∧
    signedUp.longitude = none ∧ record.getImmediateChild "FRIENDS" = .null ∧
    record.getImmediateChild "POST" = .null

theorem coordinate_null_iff (signedUp : UserModel) : (coordinate signedUp).nodeFrom = .null ↔
    signedUp.latitude = none ∧ signedUp.longitude = none := by
  obtain ⟨_, _, _, _, _, _, _, _, latitude, longitude⟩ := signedUp
  cases latitude <;> cases longitude <;>
    simp [coordinate, nullable, Json.nodeFrom, Json.fieldsFrom, Json.children]

/-- A record exists unless it has nothing to hold. -/
theorem Holds.null_iff {record : Json} {user signedUp : UserModel} (holds : Holds record user signedUp)
    (node : Json.Node RecordChild record) : record = .null ↔ Blank user signedUp record := by
  have stored_null : ∀ value : Option String, (value.map Json.str).getD .null = .null ↔ value = none := by
    intro value
    cases value <;> simp
  constructor
  · rintro rfl
    refine ⟨?_, ?_, ?_, rfl, rfl⟩
    · rintro ⟨name, value⟩ field
      exact (stored_null value).mp (holds.fields name value field).symm
    · exact ((coordinate_null_iff signedUp).mp holds.location.symm).1
    · exact ((coordinate_null_iff signedUp).mp holds.location.symm).2
  · rintro ⟨fields, latitude, longitude, friends, posts⟩
    have blank : ∀ name value, (name, value) ∈ profileFields user →
        record.getImmediateChild name = .null := by
      intro name value field
      rw [holds.fields name value field]
      exact (stored_null value).mpr (fields _ field)
    rw [node.eq_null_iff fun _ _ child => child.2]
    rintro key value ⟨known, _⟩
    simp only [recordKeys, List.mem_cons, List.not_mem_nil, or_false] at known
    rcases known with rfl | rfl | rfl | rfl | rfl | rfl | rfl | rfl
    · exact blank _ user.firstName (by simp [profileFields])
    · exact blank _ user.lastName (by simp [profileFields])
    · exact blank _ user.emailId (by simp [profileFields])
    · exact blank _ user.address (by simp [profileFields])
    · exact blank _ user.phoneNumber (by simp [profileFields])
    · rw [holds.location]
      exact (coordinate_null_iff signedUp).mpr ⟨latitude, longitude⟩
    · exact friends
    · exact posts

theorem registered_holds {s s' : Network api Backend} {e : Session} {i : Nat} {uid : String}
    {signedUp : UserModel} (registered : Network.Step backend s
      (.call e i .signUpNewUser (.serve (.setValue uid signedUp) none)) s') :
    Holds (record s'.world uid) signedUp signedUp := by
  cases registered with
  | @call _ _ c c' _ w _ found call_step moves =>
    have written : w = s.world.setValue (userPath uid) (SignUpNewUser.userInfoDict signedUp) := moves
    have stored : record w uid = (SignUpNewUser.userInfoDict signedUp).nodeFrom := by
      rw [written]
      exact Json.getChild_updateChild_self _ _ _
    show Holds (record w uid) _ _
    rw [stored]
    exact signedUp_holds signedUp

/-- After a sign-up, whatever saves, friends and posts follow, all readers build the same model: the
fields last saved and the location signed up with. Where all of these are nil and the account has
neither friends nor posts, there is no record and no reader builds a model. Saves keep friends and
posts, and friends and posts keep profiles. -/
theorem profile_round_trip {s₀ s₁ s : Network api Backend} {e : Session} {i : Nat} {uid : String}
    {signedUp : UserModel} {labels : List (Network.Label api)}
    (before : Network.Run backend Network.AnyLabel { world := {} } s₀)
    (registered : Network.Step backend s₀
      (.call e i .signUpNewUser (.serve (.setValue uid signedUp) none)) s₁)
    (later : Network.Trace backend s₁ labels s) (once : ∀ l ∈ labels, ¬ Registers uid l) :
    (¬ Blank (latest uid signedUp labels) signedUp (record s.world uid) →
      ReadAs s.world uid [profile uid (latest uid signedUp labels) signedUp]) ∧
    (Blank (latest uid signedUp labels) signedUp (record s.world uid) → ReadAs s.world uid []) ∧
    ∀ l s', Network.Step backend s l s' → ∀ uid',
      (kindOf l = .updateUserInformation → ∀ list ∈ ["FRIENDS", "POST"],
        (record s'.world uid').getImmediateChild list = (record s.world uid').getImmediateChild list) ∧
      (kindOf l ∈ [.addToFriendList, .removeFromFriendList, .addNewPost] → ∀ name ∈ profileKeys,
        (record s'.world uid').getImmediateChild name = (record s.world uid').getImmediateChild name) := by
  have users₀ : Users s₀.world.database := by
    refine before.invariant (I := fun s => Users s.world.database) ?_ ?_
    · exact Or.inl (Json.null_getChild _)
    · intro s l s' users _ stepped
      exact step_users users stepped
  obtain ⟨users, holds⟩ :=
    trace_holds later (step_users users₀ registered) (registered_holds registered) once
  have node := users.record uid
  have reads := read_record users uid
  refine ⟨?_, ?_, ?_⟩
  · intro present
    rcases node.dict? with ⟨missing, _⟩ | ⟨d, cast, _⟩
    · exact absurd ((holds.null_iff node).mp missing) present
    · rwa [cast, Option.toList_some, List.map_singleton, holds.decoded cast uid] at reads
  · intro blank
    rwa [(holds.null_iff node).mpr blank] at reads
  · intro l s' stepped uid'
    refine ⟨fun kind list known => step_lists stepped kind uid' known, ?_⟩
    intro kind name known
    apply step_profile stepped _ uid' known
    refine ⟨?_, ?_⟩ <;> intro same <;> rw [same] at kind <;> revert kind <;> decide

/-- Ann signs up with `info`. -/
def annSignsUp (info : UserModel) : SignUpNewUser.Input :=
  ⟨{ info with emailId := some "ann@mail", password := some "secret" }, ⟨[1]⟩⟩

/-- Ann's record is written, and then a save of her profile. -/
theorem sign_up_and_save (info user : UserModel) :
    ∃ (s₀ s₁ s : Network api Backend) (labels : List (Network.Label api)),
      Network.Run backend Network.AnyLabel { world := {} } s₀ ∧
      Network.Step backend s₀
        (.call none 0 .signUpNewUser (.serve (.setValue "u" (annSignsUp info).userInfo) none)) s₁ ∧
      Network.Trace backend s₁ labels s ∧ (∀ l ∈ labels, ¬ Registers "u" l) ∧
      latest "u" (annSignsUp info).userInfo labels = user ∧
      record s.world "u" = (SignUpNewUser.userInfoDict (annSignsUp info).userInfo).nodeFrom.updateChildren
        (nullable (profileFields user)) := by
  let create : SignUpNewUser.Request := .createUser "ann@mail" "secret"
  let write : SignUpNewUser.Request := .setValue "u" (annSignsUp info).userInfo
  let save : UpdateUserInformation.Request := .updateChildValues "u" user
  let opened : Network.Label api := .start (some sampleAccount) .updateUserInformation ⟨user, ⟨[2]⟩⟩
  let saved : Network.Label api := .call none 1 .updateUserInformation (.serve save none)
  have started : Network.Run backend Network.AnyLabel { world := {} } _ :=
    .step (l := .start none .signUpNewUser (annSignsUp info)) .refl trivial (.start _ _ _ rfl)
  have created : Network.Run backend Network.AnyLabel { world := {} } _ :=
    .step (l := .call none 0 .signUpNewUser (.serve create (some "u", none))) started trivial
      (.call 0 rfl (.serve _ (.refl _)) (.created sampleAccount List.not_mem_nil List.not_mem_nil))
  have answered : Network.Run backend Network.AnyLabel { world := {} } _ :=
    .step (l := .call none 0 .signUpNewUser (.deliver create (some "u", none))) created trivial
      (.call 0 rfl (.deliver (.refl _) rfl) rfl)
  refine ⟨_, _, _, _, answered, .call 0 rfl (.serve _ (.refl _)) rfl,
    .step (l := saved) (.step (l := opened) .refl (.start _ _ _ rfl))
      (.call 1 rfl (.serve _ (.refl _)) rfl), ?_, rfl, ?_⟩
  · intro l member
    rcases List.mem_append.mp member with first | second
    · obtain rfl := List.mem_singleton.mp first
      exact id
    · obtain rfl := List.mem_singleton.mp second
      exact id
  · show record (Backend.updateChildValues _ (userPath "u") (nullable (profileFields user))) "u" = _
    rw [record, Backend.updateChildValues, Json.getChild_updates]
    exact congrArg (Json.updateChildren · _) (Json.getChild_updateChild_self _ _ _)

/-- Ann moves and saves her new address. -/
theorem profile_round_trip_sample : ∃ s : Network api Backend,
    ReadAs s.world "u" [{
      userId := some "u", firstName := some "Ann", emailId := some "ann@mail"
      address := some "2 Main St", latitude := some "1.5", longitude := some "2.5" }] := by
  let user : UserModel :=
    { firstName := some "Ann", emailId := some "ann@mail", address := some "2 Main St" }
  obtain ⟨s₀, s₁, s, labels, before, registered, later, once, last, _⟩ :=
    sign_up_and_save { latitude := some "1.5", longitude := some "2.5" } user
  have reads := (profile_round_trip before registered later once).1
  rw [last] at reads
  exact ⟨s, reads fun blank => nomatch blank.2.1⟩

/-- A sign-up without a location and a save without any field leave no record. -/
theorem profile_lost :
    ¬ ∀ (s₀ s₁ s : Network api Backend) (e : Session) (i : Nat) (uid : String) (signedUp : UserModel)
      (labels : List (Network.Label api)),
      Network.Run backend Network.AnyLabel { world := {} } s₀ →
      Network.Step backend s₀ (.call e i .signUpNewUser (.serve (.setValue uid signedUp) none)) s₁ →
      Network.Trace backend s₁ labels s → (∀ l ∈ labels, ¬ Registers uid l) →
      ReadAs s.world uid [profile uid (latest uid signedUp labels) signedUp] := by
  intro round_trip
  obtain ⟨s₀, s₁, s, labels, before, registered, later, once, _, left⟩ := sign_up_and_save {} {}
  have reads := round_trip s₀ s₁ s _ _ _ _ labels before registered later once
  obtain ⟨f, ran, models⟩ := reads .fetchCurrentUser (.record "u") (record s.world "u") s.world
    (some sampleAccount) () rfl (fun _ => rfl) ⟨rfl, rfl⟩
  rw [left] at ran
  cases ran
  cases models

end SimpleSNS
