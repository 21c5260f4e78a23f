import SimpleSNS.APIHandler.Handler

/-!
The records below `USER`. Sign-up replaces a record, a profile save and the friend and post
writes merge into whatever is there. A record is complete when the screens that unwrap its
fields find them.
-/

namespace SimpleSNS
open Async

/-- What `SignUpViewController.submitActionBtn` registers: nothing unless all fields are set. -/
def submitActionBtn (userInfo : Option UserModel) (img : UIImage) : Option SignUpNewUser.Input :=
  match userInfo with
  | some userObj =>
    if userObj.firstName.isSome ∧ userObj.lastName.isSome ∧ userObj.emailId.isSome ∧
        userObj.address.isSome ∧ userObj.phoneNumber.isSome ∧ userObj.password.isSome ∧
        userObj.latitude.isSome ∧ userObj.longitude.isSome
    then some ⟨userObj, img⟩ else none
  | none => none

/-- What `EditProfileViewController.saveBarBtn` saves; the e-mail is not among its checks. -/
def saveBarBtn (userInfoArray : Option UserModel) (img : UIImage) :
    Option UpdateUserInformation.Input :=
  match userInfoArray with
  | some updateObj =>
    if updateObj.firstName.isSome ∧ updateObj.lastName.isSome ∧ updateObj.address.isSome ∧
        updateObj.phoneNumber.isSome
    then some ⟨updateObj, img⟩ else none
  | none => none

/-! ### One user's record -/

def record (w : Backend) (uid : String) : Json := w.database.getChild (userPath uid)

/-- The record that a successful write changes, and how. -/
def recordWrite : (k : Api) → (r : (api k).Request) → (api k).Answer r →
    Option (String × (Json → Json))
  | .signUpNewUser, .setValue uid userInfo, none =>
    some (uid, fun _ => (SignUpNewUser.userInfoDict userInfo).nodeFrom)
  | .updateUserInformation, .updateChildValues uid userInfo, none =>
    some (uid, fun record => record.updateChildren (nullable (profileFields userInfo)))
  | .addToFriendList, r, none =>
    some (r.uid, fun record => record.updateChild ["FRIENDS", r.friendId] (.str "Friend Id"))
  | .removeFromFriendList, r, none =>
    some (r.uid, fun record => record.updateChild ["FRIENDS", r.friendId] .null)
  | .addNewPost, .addPostRefCurrentUser uid postKey, none =>
    some (uid, fun record => record.updateChild ["POST", postKey] (.str "postKey"))
  | _, _, _ => none

/-- The records after a request was served. -/
def recordAfter (write : Option (String × (Json → Json))) (before : Json) (uid : String) : Json :=
  match write with
  | some (written, change) => if written = uid then change before else before
  | none => before

theorem recordAfter_self (uid : String) (change : Json → Json) (before : Json) :
    recordAfter (some (uid, change)) before uid = change before := if_pos rfl

theorem recordAfter_other {uid uid' : String} (different : uid' ≠ uid) (change : Json → Json)
    (before : Json) : recordAfter (some (uid', change)) before uid = before := if_neg different

theorem userPath_apart {uid uid' : String} (different : uid ≠ uid') :
    Json.Apart (userPath uid) (userPath uid') := Or.inr (Or.inl different)

/-- A write inside one record changes that record only. -/
theorem updateChild_record (database v : Json) (uid uid' : String) (path : List String) :
    (database.updateChild (userPath uid ++ path) v).getChild (userPath uid') =
      if uid = uid' then (database.getChild (userPath uid')).updateChild path v
      else database.getChild (userPath uid') := by
  by_cases same : uid = uid'
  · subst same
    rw [if_pos rfl, Json.getChild_updateChild_above]
  · have apart := (userPath_apart same).append path []
    rw [List.append_nil] at apart
    rw [if_neg same, Json.getChild_updateChild_apart _ _ apart]

theorem getData_same {w w' : Backend} {name : String} {img : Download}
    (served : w.GetData name w' img) : w' = w := by
  cases img with
  | image img => exact served.1
  | undecodable => exact served.elim
  | failed error => exact served

theorem FetchAllUsers.serve_same {w w' : Backend} {r : Request} {a : Answer r} (served : Serve w w' r a) : w' = w := by
  cases r with
  | users => exact served.1
  | userImage userModel => exact getData_same served

theorem FetchFriendList.serve_same {w w' : Backend} {r : Request} {a : Answer r} (served : Serve w w' r a) :
    w' = w := by
  cases r with
  | friends uid => exact served.1
  | record friend => exact served.1
  | userImage userModel => exact getData_same served

theorem FetchAllPost.serve_same {w w' : Backend} {r : Request} {a : Answer r} (served : Serve w w' r a) : w' = w := by
  cases r with
  | posts => exact served.1
  | postUserName post userId => exact served.1
  | postUserImage post userId => exact getData_same served
  | postImage post imageRef => exact getData_same served

theorem createUser_database {w w' : Backend} {email : String}
    {answer : Option String × Option Error} (served : w.CreateUser email w' answer) :
    w'.database = w.database := by
  cases served <;> rfl

theorem record_same {w w' : Backend} (same : w'.database = w.database) (uid : String) :
    record w' uid = record w uid := by
  rw [record, record, same]

theorem serve_record {w w' : Backend} {k : Api} {r : (api k).Request} {a : (api k).Answer r}
    (served : backend.serve w k r a w') (uid : String) :
    record w' uid = recordAfter (recordWrite k r a) (record w uid) uid := by
  cases k with
  | signUpNewUser =>
    cases r with
    | createUser email password => exact record_same (createUser_database served) uid
    | uploadImage userId img => exact record_same (served.keeps Backend.database rfl) uid
    | setValue uid' userInfo =>
      cases a with
      | some error => exact record_same (congrArg _ (show w' = w from served)) uid
      | none =>
        obtain rfl : w' = w.setValue (userPath uid') (SignUpNewUser.userInfoDict userInfo) := served
        have written := updateChild_record w.database
          (SignUpNewUser.userInfoDict userInfo).nodeFrom uid' uid []
        rw [List.append_nil] at written
        exact written.trans (by simp only [Json.updateChild_nil]; rfl)
  | updateUserInformation =>
    cases r with
    | uploadImage userId img => exact record_same (served.keeps Backend.database rfl) uid
    | updateChildValues uid' userInfo =>
      cases a with
      | some error => exact record_same (congrArg _ (show w' = w from served)) uid
      | none =>
        obtain rfl : w' = w.updateChildValues (userPath uid') (nullable (profileFields userInfo)) :=
          served
        by_cases same : uid' = uid
        · subst same
          exact (Json.getChild_updates _ _ _).trans (if_pos rfl).symm
        · exact (Json.getChild_updates_apart _ (userPath_apart same) _).trans (if_neg same).symm
  | addToFriendList =>
    cases a with
    | some error => exact record_same (congrArg _ (show w' = w from served)) uid
    | none =>
      obtain rfl : w' = w.updateChildValues (friendsPath r.uid) [(r.friendId, .str "Friend Id")] :=
        served
      exact updateChild_record w.database (.str "Friend Id") r.uid uid ["FRIENDS", r.friendId]
  | removeFromFriendList =>
    cases a with
    | some error => exact record_same (congrArg _ (show w' = w from served)) uid
    | none =>
      obtain rfl : w' = w.removeValue (friendsPath r.uid ++ [r.friendId]) := served
      exact updateChild_record w.database .null r.uid uid ["FRIENDS", r.friendId]
  | addNewPost =>
    cases r with
    | addPostStorage postKey img => exact record_same (served.keeps Backend.database rfl) uid
    | setValue postKey description timeStamp userId =>
      have apart : Json.Apart (postPath postKey) (userPath uid) := Or.inl (by decide)
      exact served.keeps (record · uid) (Json.getChild_updateChild_apart _ _ apart)
    | addPostRefCurrentUser uid' postKey =>
      cases a with
      | some error => exact record_same (congrArg _ (show w' = w from served)) uid
      | none =>
        obtain rfl : w' = w.updateChildValues (userPath uid' ++ ["POST"]) [(postKey, .str "postKey")] :=
          served
        exact updateChild_record w.database (.str "postKey") uid' uid ["POST", postKey]
  | fetchCurrentUser => exact record_same (congrArg _ served.1) uid
  | fetchAllUsers => exact record_same (congrArg _ (FetchAllUsers.serve_same served)) uid
  | fetchFriendList => exact record_same (congrArg _ (FetchFriendList.serve_same served)) uid
  | fetchAllPost => exact record_same (congrArg _ (FetchAllPost.serve_same served)) uid

/-! ### Complete records -/

def profilePaths : List (List String) :=
  [["First Name"], ["Last Name"], ["Email Id"], ["Address"], ["Phone Number"],
    ["Coordinate", "Latitude"], ["Coordinate", "Longitude"]]

def CompleteRecord (record : Json) : Prop :=
  ∀ path ∈ profilePaths, (record.getChild path).isEmpty = false

/-- Every child of `USER` is a complete record. -/
def Complete (w : Backend) : Prop :=
  ∀ uid, (record w uid).isEmpty = false → CompleteRecord (record w uid)

theorem completeRecord_iff {record : Json} : CompleteRecord record ↔
    (record.getImmediateChild "First Name").isEmpty = false ∧
    (record.getImmediateChild "Last Name").isEmpty = false ∧
    (record.getImmediateChild "Email Id").isEmpty = false ∧
    (record.getImmediateChild "Address").isEmpty = false ∧
    (record.getImmediateChild "Phone Number").isEmpty = false ∧
    ((record.getImmediateChild "Coordinate").getImmediateChild "Latitude").isEmpty = false ∧
    ((record.getImmediateChild "Coordinate").getImmediateChild "Longitude").isEmpty = false := by
  simp only [CompleteRecord, profilePaths, List.forall_mem_cons, Json.getChild_cons, Json.getChild_nil]
  simp

/-- Completeness of a record is completeness of the children it is read from. -/
theorem completeRecord_congr {record record' : Json}
    (same : ∀ key ∈ profilePaths.filterMap List.head?,
      record'.getImmediateChild key = record.getImmediateChild key) :
    CompleteRecord record' ↔ CompleteRecord record := by
  have paths : ∀ path ∈ profilePaths, record'.getChild path = record.getChild path := by
    intro path member
    have head : path.head?.isSome := by
      revert path
      decide
    cases path with
    | nil => cases head
    | cons key rest =>
      have known : key ∈ profilePaths.filterMap List.head? :=
        List.mem_filterMap.mpr ⟨key :: rest, member, rfl⟩
      rw [Json.getChild_cons, Json.getChild_cons, same key known]
  unfold CompleteRecord
  constructor
  · intro complete path member
    rw [← paths path member]
    exact complete path member
  · intro complete path member
    rw [paths path member]
    exact complete path member

/-- The friends and posts of a record are no profile fields. -/
theorem completeRecord_list {list : String} (apart : list ∉ profilePaths.filterMap List.head?)
    (record v : Json) (key : String) :
    CompleteRecord (record.updateChild [list, key] v) ↔ CompleteRecord record := by
  apply completeRecord_congr
  intro field known
  rw [Json.updateChild_cons]
  apply Json.updateImmediateChild_other
  rintro rfl
  exact apart known

theorem nullRecord_incomplete : ¬ CompleteRecord .null := by
  intro complete
  have first := complete ["First Name"] (by simp [profilePaths])
  cases first

theorem listed_nonempty (record : Json) (list key value : String) :
    (record.updateChild [list, key] (.str value)).isEmpty = false := by
  rw [Json.isEmpty_eq_false]
  intro missing
  have read := Json.getChild_updateChild_self record (.str value) [list, key]
  rw [missing, Json.null_getChild] at read
  cases read

/-- A text as it is stored: nil is nothing. -/
def stored (value : Option String) : Json := (value.map Json.str).getD .null

theorem stored_isEmpty {value : Option String} : (stored value).isEmpty = false ↔ value.isSome := by
  cases value <;> simp [stored, Json.isEmpty]

/-- A record that holds what `userInfo` says, each field under its own key. -/
structure HoldsFields (record : Json) (userInfo : UserModel) : Prop where
  firstName : record.getImmediateChild "First Name" = stored userInfo.firstName
  lastName : record.getImmediateChild "Last Name" = stored userInfo.lastName
  emailId : record.getImmediateChild "Email Id" = stored userInfo.emailId
  address : record.getImmediateChild "Address" = stored userInfo.address
  phoneNumber : record.getImmediateChild "Phone Number" = stored userInfo.phoneNumber
  latitude : (record.getImmediateChild "Coordinate").getImmediateChild "Latitude" = stored userInfo.latitude
  longitude : (record.getImmediateChild "Coordinate").getImmediateChild "Longitude" = stored userInfo.longitude

theorem registered_fields (userInfo : UserModel) :
    HoldsFields (SignUpNewUser.userInfoDict userInfo).nodeFrom userInfo := by
  have unique : ((nullable (profileFields userInfo) ++
      [("Coordinate", coordinate userInfo)]).map Prod.fst).Nodup := by
    simp [nullable, profileFields]
  have field : ∀ {name : String} {value : Option String}, (name, value) ∈ profileFields userInfo →
      (SignUpNewUser.userInfoDict userInfo).nodeFrom.getImmediateChild name = stored value := by
    intro name value listed
    rw [SignUpNewUser.userInfoDict, Json.nodeFrom_getImmediateChild unique,
      Json.lookup_mem unique (List.mem_append_left _ (nullable_mem listed)), nullable_stored]
    rfl
  have location : (SignUpNewUser.userInfoDict userInfo).nodeFrom.getImmediateChild "Coordinate" =
      (coordinate userInfo).nodeFrom := by
    rw [SignUpNewUser.userInfoDict, Json.nodeFrom_getImmediateChild unique,
      Json.lookup_mem unique (List.mem_append_right _ (List.mem_singleton_self _))]
  have place : ∀ {name : String} {value : Option String},
      (name, value) ∈ [("Latitude", userInfo.latitude), ("Longitude", userInfo.longitude)] →
      (coordinate userInfo).nodeFrom.getImmediateChild name = stored value := by
    intro name value listed
    have apart : ((nullable [("Latitude", userInfo.latitude),
        ("Longitude", userInfo.longitude)]).map Prod.fst).Nodup := by
      simp [nullable]
    rw [coordinate, Json.nodeFrom_getImmediateChild apart, Json.lookup_mem apart (nullable_mem listed),
      nullable_stored]
    rfl
  refine ⟨field ?_, field ?_, field ?_, field ?_, field ?_, ?_, ?_⟩
  · simp [profileFields]
  · simp [profileFields]
  · simp [profileFields]
  · simp [profileFields]
  · simp [profileFields]
  · rw [location]
    exact place (by simp)
  · rw [location]
    exact place (by simp)

/-- What a complete record needs of the model that it is written from. -/
def Filled (userInfo : UserModel) : Prop :=
  userInfo.firstName.isSome ∧ userInfo.lastName.isSome ∧ userInfo.emailId.isSome ∧
    userInfo.address.isSome ∧ userInfo.phoneNumber.isSome ∧
    userInfo.latitude.isSome ∧ userInfo.longitude.isSome

/-- A sign-up writes a complete record exactly when nothing but a password is missing. -/
theorem registered_complete_iff (userInfo : UserModel) :
    CompleteRecord (SignUpNewUser.userInfoDict userInfo).nodeFrom ↔ Filled userInfo := by
  have fields := registered_fields userInfo
  rw [completeRecord_iff, fields.firstName, fields.lastName, fields.emailId, fields.address,
    fields.phoneNumber, fields.latitude, fields.longitude]
  simp only [stored_isEmpty, Filled]

/-- The form registers only what is filled in. -/
theorem submitted_filled {userInfo : UserModel} (img : UIImage) {input : SignUpNewUser.Input}
    (submitted : submitActionBtn (some userInfo) img = some input) : Filled input.userInfo := by
  obtain ⟨all_set, same⟩ := Option.ite_none_right_eq_some.mp submitted
  obtain rfl := Option.some.inj same
  obtain ⟨first, last, email, address, phone, _, latitude, longitude⟩ := all_set
  exact ⟨first, last, email, address, phone, latitude, longitude⟩

theorem profileKeys_nodup (user : UserModel) :
    ((nullable (profileFields user)).map Prod.fst).Nodup := by
  simp [nullable, profileFields]

/-- After a save, each of the five fields is what was saved, null where nothing was. -/
theorem saved_read (record : Json) {user : UserModel} {name : String} {value : Option String}
    (field : (name, value) ∈ profileFields user) :
    (record.updateChildren (nullable (profileFields user))).getImmediateChild name =
      (value.map Json.str).getD .null := by
  have written := nullable_mem field
  rw [Json.updateChildren_get record (profileKeys_nodup user), if_pos (List.mem_map_of_mem written),
    Json.lookup_mem (profileKeys_nodup user) written, nullable_stored]

/-- A save changes no other child of the record. -/
theorem saved_other (record : Json) (user : UserModel) {name : String}
    (other : name ∉ (profileFields user).map Prod.fst) :
    (record.updateChildren (nullable (profileFields user))).getImmediateChild name =
      record.getImmediateChild name := by
  rw [Json.updateChildren_get record (profileKeys_nodup user), if_neg]
  simpa [nullable] using other

/-- A save into a complete record leaves it complete if it carries an e-mail, and a save into a
missing record leaves it without a coordinate. -/
theorem saved_complete_iff {updateObj : UserModel} {img : UIImage}
    {input : UpdateUserInformation.Input} (saved : saveBarBtn (some updateObj) img = some input)
    {record : Json} (complete : record.isEmpty = false → CompleteRecord record) :
    CompleteRecord (record.updateChildren (nullable (profileFields input.updatedUserInfo))) ↔
      record.isEmpty = false ∧ input.updatedUserInfo.emailId.isSome := by
  obtain ⟨all_set, same⟩ := Option.ite_none_right_eq_some.mp saved
  obtain rfl := Option.some.inj same
  obtain ⟨first, last, address, phone⟩ := all_set
  have set_iff : ∀ value : Option String,
      ((value.map Json.str).getD .null).isEmpty = false ↔ value.isSome := fun _ => stored_isEmpty
  have first_field : ("First Name", updateObj.firstName) ∈ profileFields updateObj := by
    simp [profileFields]
  have last_field : ("Last Name", updateObj.lastName) ∈ profileFields updateObj := by
    simp [profileFields]
  have email_field : ("Email Id", updateObj.emailId) ∈ profileFields updateObj := by
    simp [profileFields]
  have address_field : ("Address", updateObj.address) ∈ profileFields updateObj := by
    simp [profileFields]
  have phone_field : ("Phone Number", updateObj.phoneNumber) ∈ profileFields updateObj := by
    simp [profileFields]
  have coordinate_kept : "Coordinate" ∉ (profileFields updateObj).map Prod.fst := by
    simp [profileFields]
  rw [completeRecord_iff, saved_read record first_field, saved_read record last_field,
    saved_read record email_field, saved_read record address_field, saved_read record phone_field,
    saved_other record updateObj coordinate_kept]
  simp only [set_iff]
  constructor
  · rintro ⟨_, _, email, _, _, latitude, _⟩
    refine ⟨?_, email⟩
    rw [Json.isEmpty_eq_false]
    rintro rfl
    cases latitude
  · rintro ⟨nonempty, email⟩
    obtain ⟨_, _, _, _, _, latitude, longitude⟩ := completeRecord_iff.mp (complete nonempty)
    exact ⟨first, last, email, address, phone, latitude, longitude⟩

/-! ### Writes that keep the records complete -/

/-- A sign-up has unwrapped the e-mail, and a save has passed the checks of its screen. -/
def Checked : (k : Api) → (api k).Request → Prop
  | .signUpNewUser, .setValue _ userInfo => userInfo.emailId.isSome
  | .updateUserInformation, .updateChildValues _ updateObj => ∃ img input,
    saveBarBtn (some updateObj) img = some input
  | _, _ => True

/-- A successful sign-up is filled in; any other successful write into a record finds the record
there, and a save carries the e-mail. -/
def Careful (w : Backend) : (k : Api) → (r : (api k).Request) → (api k).Answer r → Prop
  | .signUpNewUser, .setValue _ userInfo, none => Filled userInfo
  | .updateUserInformation, .updateChildValues uid updateObj, none =>
    (record w uid).isEmpty = false ∧ updateObj.emailId.isSome
  | .addToFriendList, r, none => (record w r.uid).isEmpty = false
  | .addNewPost, .addPostRefCurrentUser uid _, none => (record w uid).isEmpty = false
  | _, _, _ => True

theorem complete_after {w w' : Backend} {write : Option (String × (Json → Json))}
    (complete : Complete w)
    (after : ∀ uid, record w' uid = recordAfter write (record w uid) uid) :
    Complete w' ↔ ∀ uid change, write = some (uid, change) →
      (change (record w uid)).isEmpty = false → CompleteRecord (change (record w uid)) := by
  constructor
  · rintro complete' uid change rfl
    have changed := after uid
    rw [recordAfter_self] at changed
    rw [← changed]
    exact complete' uid
  · intro written uid
    rw [after uid]
    cases write with
    | none => exact complete uid
    | some write =>
      obtain ⟨uid', change⟩ := write
      by_cases same : uid' = uid
      · subst same
        rw [recordAfter_self]
        exact written uid' change rfl
      · rw [recordAfter_other same]
        exact complete uid

theorem unwritten {p : String → (Json → Json) → Prop} :
    (∀ uid change, (none : Option (String × (Json → Json))) = some (uid, change) → p uid change) ↔
      True := by
  simp

theorem written {p : String → (Json → Json) → Prop} {uid : String} {change : Json → Json} :
    (∀ uid' change', some (uid, change) = some (uid', change') → p uid' change') ↔ p uid change := by
  constructor
  · intro all
    exact all uid change rfl
  · rintro one _ _ same
    cases same
    exact one

/-- Adding to a list of a record keeps completeness exactly when there is a record. -/
theorem list_complete_iff {record : Json} (complete : record.isEmpty = false → CompleteRecord record)
    {list : String} (apart : list ∉ profilePaths.filterMap List.head?) (key value : String) :
    ((record.updateChild [list, key] (.str value)).isEmpty = false →
      CompleteRecord (record.updateChild [list, key] (.str value))) ↔ record.isEmpty = false := by
  rw [completeRecord_list apart]
  constructor
  · intro kept
    rw [Json.isEmpty_eq_false]
    rintro rfl
    exact nullRecord_incomplete (kept (listed_nonempty _ _ _ _))
  · intro nonempty _
    exact complete nonempty

/-- From a store of complete records, a write leads to one exactly when it is careful. -/
theorem serve_complete_iff {w w' : Backend} {k : Api} {r : (api k).Request} {a : (api k).Answer r}
    (complete : Complete w) (checked : Checked k r) (served : backend.serve w k r a w') :
    Complete w' ↔ Careful w k r a := by
  rw [complete_after complete (serve_record served)]
  cases k with
  | signUpNewUser =>
    cases r with
    | createUser email password => exact unwritten
    | uploadImage userId img => exact unwritten
    | setValue uid userInfo =>
      cases a with
      | some error => exact unwritten
      | none =>
        have email := (registered_fields userInfo).emailId
        have nonempty : (SignUpNewUser.userInfoDict userInfo).nodeFrom.isEmpty = false := by
          rw [Json.isEmpty_eq_false]
          intro missing
          rw [missing] at email
          have set := stored_isEmpty.mpr checked
          rw [← email] at set
          cases set
        refine written.trans (.trans ?_ (registered_complete_iff userInfo))
        exact ⟨fun kept => kept nonempty, fun kept _ => kept⟩
  | updateUserInformation =>
    cases r with
    | uploadImage userId img => exact unwritten
    | updateChildValues uid updateObj =>
      cases a with
      | some error => exact unwritten
      | none =>
        obtain ⟨img, input, saved⟩ := checked
        obtain ⟨all_set, same⟩ := Option.ite_none_right_eq_some.mp saved
        cases Option.some.inj same
        have nonempty : ((record w uid).updateChildren
            (nullable (profileFields updateObj))).isEmpty = false := by
          rw [Json.isEmpty_eq_false]
          intro missing
          have first_field : ("First Name", updateObj.firstName) ∈ profileFields updateObj := by
            simp [profileFields]
          have read := saved_read (record w uid) first_field
          rw [missing] at read
          obtain ⟨first, set⟩ := Option.isSome_iff_exists.mp all_set.1
          rw [set] at read
          cases read
        refine written.trans (.trans ?_ (saved_complete_iff saved (complete uid)))
        exact ⟨fun kept => kept nonempty, fun kept _ => kept⟩
  | addToFriendList =>
    cases a with
    | some error => exact unwritten
    | none => exact written.trans (list_complete_iff (complete r.uid) (by decide) _ _)
  | removeFromFriendList =>
    cases a with
    | some error => exact unwritten
    | none =>
      refine written.trans (iff_of_true ?_ trivial)
      intro nonempty
      rw [completeRecord_list (by decide)]
      apply complete r.uid
      rw [Json.isEmpty_eq_false]
      intro missing
      have empty := Json.null_updateChild_null ["FRIENDS", r.friendId]
      rw [missing] at nonempty
      change (Json.null.updateChild _ Json.null).isEmpty = false at nonempty
      rw [empty] at nonempty
      cases nonempty
  | addNewPost =>
    cases r with
    | setValue postKey description timeStamp userId => cases a <;> exact unwritten
    | addPostStorage postKey img => cases a <;> exact unwritten
    | addPostRefCurrentUser uid postKey =>
      cases a with
      | some error => exact unwritten
      | none => exact written.trans (list_complete_iff (complete uid) (by decide) _ _)
  | _ => exact unwritten

/-! ### Runs of the writers -/

/-- Saves come from their screen; sessions and every other call are free. -/
def Issued (_ : Network api Backend) : Network.Label api → Prop
  | .start _ .updateUserInformation input =>
    saveBarBtn (some input.updatedUserInfo) input.updateProfileImg = some input
  | _ => True

/-- Every write that is served is careful. -/
def ServedCarefully (s : Network api Backend) : Network.Label api → Prop
  | .call _ _ k (.serve r a) => Careful s.world k r a
  | _ => True

def Submitted : (k : Api) → Call (api k) → Prop
  | .signUpNewUser, c => c.vars.input.userInfo.emailId.isSome
  | _, _ => True

/-- Whatever the call still has to write has been checked. -/
structure Ready (k : Api) (c : Call (api k)) : Prop where
  submitted : Submitted k c
  checked : ∀ r ∈ c.requests, Checked k r

theorem ready_start {s : Network api Backend} {e : Session} {k : Api} {input : (api k).Input}
    {f : (api k).Frame} (issued : Issued s (.start e k input)) (ran : (api k).start e input = .ok f) :
    Ready k (Call.init e input f) := by
  cases k with
  | signUpNewUser =>
    obtain ⟨email, set, started⟩ := bind_ok.mp ran
    obtain ⟨password, _, started⟩ := bind_ok.mp started
    obtain rfl := Except.ok.inj started
    refine ⟨Option.isSome_iff_exists.mpr ⟨email, unwrap_ok set⟩, fun r sent => ?_⟩
    obtain rfl := List.mem_singleton.mp sent
    trivial
  | updateUserInformation =>
    obtain rfl := Except.ok.inj ran
    refine ⟨trivial, fun r sent => ?_⟩
    obtain rfl := List.mem_singleton.mp sent
    exact ⟨_, _, issued⟩
  | addNewPost => exact ⟨trivial, fun r sent => by cases r <;> trivial⟩
  | _ => exact ⟨trivial, fun _ _ => trivial⟩

theorem ready_step {k : Api} {c c' : Call (api k)} {e : Session} {ev : Call.Event (api k)}
    (ready : Ready k c) (stepped : c.Step e ev c') : Ready k c' := by
  cases k with
  | signUpNewUser =>
    have kept : c'.vars = c.vars := by
      cases stepped with
      | serve a sent => rfl
      | deliver arrived ran => exact (SignUpNewUser.reply_vars e ran).1
      | @block b => cases b
    refine ⟨?_, fun r sent => ?_⟩
    · show c'.vars.input.userInfo.emailId.isSome
      rw [kept]
      exact ready.submitted
    · rcases stepped.new_request sent with old | ⟨q, a, f, rfl, _, ran, new⟩ | ⟨b, _⟩
      · exact ready.checked r old
      · rcases (SignUpNewUser.reply_vars e ran).2 with none_sent | ⟨uid, write⟩ | ⟨uid, upload⟩
        · rw [none_sent] at new
          cases new
        · rw [write] at new
          obtain rfl := List.mem_singleton.mp new
          exact ready.submitted
        · rw [upload] at new
          obtain rfl := List.mem_singleton.mp new
          trivial
      · cases b
  | updateUserInformation =>
    refine ⟨trivial, fun r sent => ?_⟩
    rcases stepped.new_request sent with old | ⟨q, a, f, rfl, _, ran, new⟩ | ⟨b, _⟩
    · exact ready.checked r old
    · cases q with
      | uploadImage userId img => obtain rfl := Except.ok.inj ran; cases new
      | updateChildValues uid updateObj =>
        cases a with
        | some error => obtain rfl := Except.ok.inj ran; cases new
        | none =>
          obtain rfl := UpdateUserInformation.reply_uploads uid updateObj ran
          obtain rfl := List.mem_singleton.mp new
          trivial
    · cases b
  | addNewPost => exact ⟨trivial, fun r sent => by cases r <;> trivial⟩
  | _ => exact ⟨trivial, fun _ _ => trivial⟩

/-- In every run whose successful writes are careful, all records are complete throughout. -/
theorem profiles_complete {s : Network api Backend}
    (run : Network.Run backend (fun s l => Issued s l ∧ ServedCarefully s l) { world := {} } s) :
    Complete s.world := by
  have kept : Complete s.world ∧
      ∀ (i : Nat) k (c : Call (api k)), s.calls[i]? = some ⟨k, c⟩ → Ready k c := by
    induction run with
    | refl =>
      refine ⟨fun uid exists_record => ?_, fun i k c found => ?_⟩
      · have empty : record {} uid = .null := Json.null_getChild _
        rw [empty] at exists_record
        cases exists_record
      · simp at found
    | @step s s' l before allowed stepped ih =>
      obtain ⟨issued, careful⟩ := allowed
      refine ⟨?_, ?_⟩
      · cases stepped with
        | start e k input ran => exact ih.1
        | @call e k c c' ev w index found call_step moves =>
          cases ev with
          | deliver r a =>
            obtain rfl : w = s.world := moves
            exact ih.1
          | block b =>
            obtain rfl : w = s.world := moves
            exact ih.1
          | serve r a =>
            have sent : r ∈ c.requests := by
              cases call_step with
              | serve a sent =>
                exact List.mem_append_left _ (List.mem_append_left _
                  (sent.mem_iff.mpr List.mem_cons_self))
            have checked := (ih.2 index k c found).checked r sent
            exact (serve_complete_iff ih.1 checked moves).mpr careful
      · intro i k c found
        rcases Network.step_lookup stepped found with old | ⟨e, input, f, rfl, ran, rfl⟩ |
          ⟨e, ev, c₀, rfl, old, moved⟩
        · exact ih.2 i k c old
        · exact ready_start issued ran
        · exact ready_step (ih.2 i k c₀ old) moved
  exact kept.1

def sampleUser : SignUpNewUser.Input where
  userInfo := {
    firstName := some "Ann", lastName := some "Lee", emailId := some "ann@mail"
    address := some "1 Main St", phoneNumber := some "555", password := some "secret"
    latitude := some "1.5", longitude := some "2.5" }
  userImg := ⟨[1]⟩

/-- A sign-up whose record is written. -/
theorem profiles_complete_sample :
    ∃ s : Network api Backend,
      Network.Run backend (fun s l => Issued s l ∧ ServedCarefully s l) { world := {} } s ∧
      (record s.world "u").isEmpty = false ∧ Complete s.world := by
  let create : SignUpNewUser.Request := .createUser "ann@mail" "secret"
  let write : SignUpNewUser.Request := .setValue "u" sampleUser.userInfo
  have submitted : submitActionBtn (some sampleUser.userInfo) sampleUser.userImg = some sampleUser := rfl
  have started : Network.Run backend (fun s l => Issued s l ∧ ServedCarefully s l) { world := {} } _ :=
    .step (l := .start none .signUpNewUser sampleUser) .refl ⟨trivial, trivial⟩ (.start _ _ _ rfl)
  have created : Network.Run backend (fun s l => Issued s l ∧ ServedCarefully s l) { world := {} } _ :=
    .step (l := .call none 0 .signUpNewUser (.serve create (some "u", none))) started
      ⟨trivial, trivial⟩ (.call 0 rfl (.serve _ (.refl _))
        (.created sampleAccount List.not_mem_nil List.not_mem_nil))
  have answered : Network.Run backend (fun s l => Issued s l ∧ ServedCarefully s l) { world := {} } _ :=
    .step (l := .call none 0 .signUpNewUser (.deliver create (some "u", none))) created
      ⟨trivial, trivial⟩ (.call 0 rfl (.deliver (.refl _) rfl) rfl)
  have written : Network.Run backend (fun s l => Issued s l ∧ ServedCarefully s l) { world := {} } _ :=
    .step (l := .call none 0 .signUpNewUser (.serve write none)) answered
      ⟨trivial, submitted_filled _ submitted⟩ (.call 0 rfl (.serve _ (.refl _)) rfl)
  exact ⟨_, written, rfl, profiles_complete written⟩

instance (s : Network api Backend) : DecidablePred (Issued s) := fun l =>
  match l with
  | .start _ .updateUserInformation _ => inferInstanceAs (Decidable (_ = _))
  | .start _ .signUpNewUser _ | .start _ .fetchCurrentUser _ | .start _ .fetchAllUsers _ | .start _ .fetchFriendList _
  | .start _ .fetchAllPost _ | .start _ .addToFriendList _ | .start _ .removeFromFriendList _
  | .start _ .addNewPost _ | .call _ _ _ _ => isTrue trivial

/-- The record of a new account is refused; the account signs in and adds a friend. -/
def friendWithoutRecord : List (Device.Choice backend) :=
  [.start .signUpNewUser sampleUser, .serve 0 0 (policy true sampleAccount), .deliver 0 0,
    .serve 0 0 (policy false sampleAccount), .deliver 0 0, .session (some sampleAccount),
    .start .addToFriendList "f", .serve 1 0 (policy true sampleAccount)]

theorem profile_partial :
    ¬ ∀ s : Network api Backend, Network.Run backend Issued { world := {} } s → Complete s.world := by
  intro complete
  have ran : ((Device.boot {} none).exec Issued friendWithoutRecord).isSome := rfl
  have run := (Device.exec_run (Option.some_get ran).symm).network
  have first_name := complete _ run "u" rfl ["First Name"] (by simp [profilePaths])
  cases first_name

end SimpleSNS
