import SimpleSNS.APIHandler.FriendJoin
import SimpleSNS.APIHandler.UserSessions
import SimpleSNS.Main.GMap
import SimpleSNS.Main.Search

/-!
What the screens do with the lists that `fetchAllUsers` and `fetchFriendList` deliver. Records with
the fields of a registration give models whose id, name and coordinates can be unwrapped; the list
itself and the pictures may be nil.
-/

namespace SimpleSNS
open Async UIKit

/-- The record has the fields that sign-up writes. -/
structure Written (C : CoreLocation) (record : Dict Json) : Prop where
  fields : ∀ name ∈ ["First Name", "Last Name", "Email Id", "Address", "Phone Number"],
    ((record.get? name).bind Json.string?).isSome
  coordinate : ∃ coordinate latitude longitude,
    (record.get? "Coordinate").bind Json.stringDict? = some coordinate ∧
    coordinate.get? "Latitude" = some (C.description latitude) ∧
    coordinate.get? "Longitude" = some (C.description longitude)

/-- The model has what the screens unwrap. -/
structure Carries (C : CoreLocation) (userModel : UserModel) : Prop where
  userId : userModel.userId.isSome
  firstName : userModel.firstName.isSome
  location : (GMapViewController.location C userModel).isSome

variable {C : CoreLocation}

theorem Written.carries {record : Dict Json} (written : Written C record) (userId : String)
    (image : Option UIImage) : Carries C { UserModel.decode userId record with image := image } := by
  obtain ⟨coordinate, latitude, longitude, cast, north, east⟩ := written.coordinate
  refine ⟨rfl, written.fields "First Name" List.mem_cons_self, ?_⟩
  simp only [GMapViewController.location, UserModel.decode, cast, Option.bind_some, north, east,
    C.parses]
  rfl

/-- What a registration writes has these fields. -/
theorem registered_written {userInfo : UserModel} {img : UIImage} {input : SignUpNewUser.Input}
    (placed : SignUpViewController.Placed C userInfo)
    (submitted : submitActionBtn (some userInfo) img = some input) :
    ∃ record, (SignUpNewUser.userInfoDict userInfo).nodeFrom.dict? = some record ∧ Written C record := by
  obtain ⟨checked, _⟩ := Option.ite_none_right_eq_some.mp submitted
  simp only [Option.isSome_iff_exists] at checked
  obtain ⟨⟨first, first_set⟩, ⟨last, last_set⟩, ⟨email, email_set⟩, ⟨address, address_set⟩,
    ⟨phone, phone_set⟩, _, ⟨_, latitude_set⟩, ⟨_, longitude_set⟩⟩ := checked
  obtain ⟨latitude, rfl⟩ := placed.latitude _ latitude_set
  obtain ⟨longitude, rfl⟩ := placed.longitude _ longitude_set
  have node : (SignUpNewUser.userInfoDict userInfo).nodeFrom = .obj [("First Name", .str first),
      ("Last Name", .str last), ("Email Id", .str email), ("Address", .str address),
      ("Phone Number", .str phone), ("Coordinate", .obj [("Latitude", .str (C.description latitude)),
        ("Longitude", .str (C.description longitude))])] := by
    simp only [SignUpNewUser.userInfoDict, profileFields, coordinate, nullable, first_set, last_set,
      email_set, address_set, phone_set, latitude_set, longitude_set]
    rfl
  rw [node]
  refine ⟨_, rfl, ?_, ⟨_, latitude, longitude, rfl, rfl, rfl⟩⟩
  intro name member
  simp only [List.mem_cons, List.not_mem_nil, or_false] at member
  rcases member with rfl | rfl | rfl | rfl | rfl
  all_goals rfl

/-- Whatever the screen registers is written with these fields, in every run of it. -/
theorem sign_up_written {ok : SignUpViewController → SignUpViewController.Event C → Prop}
    {defaultUser : UIImage} {v : SignUpViewController}
    (run : (SignUpViewController.machine C defaultUser).Run ok {} v) :
    ∀ input ∈ v.registered, ∃ record,
      (SignUpNewUser.userInfoDict input.userInfo).nodeFrom.dict? = some record ∧ Written C record := by
  intro input member
  obtain ⟨placed, submitted⟩ := (SignUpViewController.run_registers run).registered input member
  exact registered_written placed submitted

/-! ### What is delivered -/

/-- The users that were read all have the fields, or there are none. -/
def UsersStored (C : CoreLocation) (delivered : Replies fetchAllUsers) : Prop :=
  ∀ value : Json, ⟨.users, value⟩ ∈ delivered → value = .null ∨
    ∃ users, value.dictDict? = some users ∧ ∀ user ∈ users.entries, Written C user.2

/-- The records of friends that were read all have the fields, or are missing. -/
def FriendsStored (C : CoreLocation) (delivered : Replies fetchFriendList) : Prop :=
  ∀ (friend : String) (value : Json) record, ⟨.record friend, value⟩ ∈ delivered →
    value.dict? = some record → Written C record

/-- A result of `fetchAllUsers` over such records. -/
def UserLoad (C : CoreLocation) (result : Option (List UserModel)) : Prop :=
  ∃ c : Call fetchAllUsers, c.Reachable Call.AnyStep ∧ UsersStored C c.delivered ∧ result ∈ c.reports

/-- A result of `fetchFriendList` over such records. -/
def FriendLoad (C : CoreLocation) (result : Option (List UserModel)) : Prop :=
  ∃ c : Call fetchFriendList, c.Reachable Call.AnyStep ∧ FriendsStored C c.delivered ∧
    result ∈ c.reports

theorem UserLoad.carries {users : List UserModel} (load : UserLoad C (some users)) :
    ∀ user ∈ users, Carries C user := by
  obtain ⟨c, reachable, stored, reported⟩ := load
  obtain ⟨value, entries, read, cast, models⟩ := FetchAllUsers.reported_models reachable reported
  intro userModel member
  obtain ⟨user, listed_user, img, _, rfl⟩ := models userModel member
  rcases stored value read with rfl | ⟨entries', cast', written⟩
  · cases cast
  · obtain rfl := Option.some.inj (cast.symm.trans cast')
    exact (written user listed_user).carries user.1 _

theorem FriendLoad.carries {friends : List UserModel} (load : FriendLoad C (some friends)) :
    ∀ friend ∈ friends, Carries C friend := by
  obtain ⟨c, reachable, stored, reported⟩ := load
  obtain ⟨_, _, _, _, _, gathered, rfl, _⟩ := FetchFriendList.reported_gathered reachable reported
  intro userModel member
  obtain ⟨friend, _, value, record, img, recorded, cast, _, reads, _⟩ := gathered.listed_own member
  rw [reads.eq]
  exact (stored friend value record recorded cast).carries friend _

/-- The result is nil exactly when the `USER` node that was read is empty. -/
theorem load_none_iff {c : Call fetchAllUsers} (reachable : c.Reachable Call.AnyStep)
    (stored : UsersStored C c.delivered) {result : Option (List UserModel)}
    (reported : result ∈ c.reports) : result = none ↔ ⟨.users, Json.null⟩ ∈ c.delivered := by
  constructor
  · rintro rfl
    obtain ⟨value, read, cast⟩ := FetchAllUsers.reported_none reachable reported
    rcases stored value read with rfl | ⟨users, cast', _⟩
    · exact read
    · rw [cast] at cast'
      cases cast'
  · intro empty
    cases result with
    | none => rfl
    | some list =>
      obtain ⟨value, users, read, cast, _⟩ := FetchAllUsers.reported_some reachable reported
      have same : value = Json.null := Call.answer_eq (FetchAllUsers.any_session_unique reachable)
        (List.mem_append_right _ read) (List.mem_append_right _ empty)
      rw [same] at cast
      cases cast

/-- The user's picture has been downloaded and decodes. -/
def Pictured (c : Call fetchAllUsers) (user : UserModel) : Prop :=
  ∃ requested img, ⟨.userImage requested, Download.image img⟩ ∈ c.delivered ∧
    requested.userId = user.userId

theorem image_iff_pictured {c : Call fetchAllUsers} (reachable : c.Reachable Call.AnyStep)
    {list : List UserModel} (reported : some list ∈ c.reports) {userModel : UserModel}
    (member : userModel ∈ list) : userModel.image.isSome ↔ Pictured c userModel := by
  obtain ⟨value, users, read, cast, models⟩ := FetchAllUsers.reported_models reachable reported
  obtain ⟨value', users', read', cast', asked⟩ := FetchAllUsers.reported_some reachable reported
  have unique := FetchAllUsers.any_session_unique reachable
  obtain rfl : value' = value := Call.answer_eq unique (List.mem_append_right _ read')
    (List.mem_append_right _ read)
  obtain rfl := Option.some.inj (cast.symm.trans cast')
  obtain ⟨user, listed_user, img, answered, rfl⟩ := models userModel member
  constructor
  · intro shown
    change Download at img
    cases img with
    | image img => exact ⟨_, img, answered, rfl⟩
    | undecodable => cases shown
    | failed error => cases shown
  · rintro ⟨requested, img', pictured, same⟩
    obtain ⟨user', listed_user', rfl⟩ :=
      asked requested (Call.delivered_mem_requests (List.mem_map_of_mem pictured))
    obtain rfl : user' = user := Dict.eq_of_key listed_user' listed_user (Option.some.inj same)
    have one_answer : img = Download.image img' := Call.answer_eq unique
      (List.mem_append_right _ answered) (List.mem_append_right _ pictured)
    rw [one_answer]
    rfl

/-! ### The screens -/

theorem unwrap_isSome {α : Type} {x : Option α} (set : x.isSome) : ∃ a, unwrap x = .ok a := by
  obtain ⟨a, rfl⟩ := Option.isSome_iff_exists.mp set
  exact ⟨a, rfl⟩

theorem UserList.textDidChange_runs {β : Type} (F : Foundation) {l : UserList β} (b : β)
    (named : UserList.Named l.unfiltered) (text : String) : ∃ l', l.textDidChange F text b = .ok l' :=
  ⟨_, bind_ok.mpr ⟨_, UserList.filter_ok_iff.mpr ⟨named, rfl⟩, rfl⟩⟩

namespace UserViewController

variable {F : Foundation} {v v' : UserViewController} {ev : Event}

/-- What is loaded has been delivered over records with the fields. -/
def Supply (C : CoreLocation) (_ : UserViewController) : Event → Prop
  | .fetchAllUser result => UserLoad C result
  | _ => True

structure Supplied (C : CoreLocation) (v : UserViewController) : Prop where
  array : ∀ user ∈ v.userInfoArray, Carries C user
  unfiltered : ∀ user ∈ v.unSortedUserInfoArray, Carries C user
  alerts : ∀ user ∈ v.alerts, Carries C user

theorem react_alerts (supplied : v.Supplied C) (ran : v.react F ev = .ok v') :
    ∀ user ∈ v'.alerts, Carries C user := by
  cases ev with
  | fetchAllUser result =>
    cases result with
    | none => cases ran
    | some users =>
      obtain rfl := Except.ok.inj ran
      exact supplied.alerts
  | willDisplay cell row =>
    obtain rfl := Except.ok.inj ran
    exact supplied.alerts
  | addFriend sender =>
    obtain ⟨user, tapped, same⟩ := bind_ok.mp ran
    obtain rfl := Except.ok.inj same
    intro user' member
    rcases List.mem_append.mp member with old | new
    · exact supplied.alerts user' old
    · obtain rfl := List.mem_singleton.mp new
      exact supplied.array _ (List.mem_of_getElem? (item_ok_iff.mp tapped))
  | addAction alert =>
    obtain ⟨user, _, rest⟩ := bind_ok.mp ran
    obtain ⟨friendId, _, same⟩ := bind_ok.mp rest
    obtain rfl := Except.ok.inj same
    exact fun user' member => supplied.alerts user' (List.mem_of_mem_eraseIdx member)
  | cancelAction alert =>
    obtain rfl := Except.ok.inj ran
    exact fun user' member => supplied.alerts user' (List.mem_of_mem_eraseIdx member)
  | textDidChange searchText =>
    obtain ⟨list, _, same⟩ := bind_ok.mp ran
    obtain rfl := Except.ok.inj same
    exact supplied.alerts
  | searchBarCancelButtonClicked =>
    obtain rfl := Except.ok.inj ran
    exact supplied.alerts
  | main =>
    have same : v'.alerts = v.alerts := by
      have blocks : v.runBlock = .ok v' := ran
      unfold runBlock at blocks
      split at blocks
      · obtain rfl := Except.ok.inj blocks
        rfl
      · obtain ⟨list, _, done⟩ := bind_ok.mp blocks
        obtain rfl := Except.ok.inj done
        rfl
      · obtain rfl := Except.ok.inj blocks
        rfl
      · obtain rfl := Except.ok.inj blocks
        rfl
    rw [same]
    exact supplied.alerts

theorem run_supplied (run : (machine F).Run (·.Supply C) {} v) : v.Supplied C := by
  have unset : ∀ user ∈ ([] : List UserModel), Carries C user := fun _ member =>
    absurd member List.not_mem_nil
  refine run.invariant (I := Supplied C) ⟨unset, unset, unset⟩ ?_
  intro v ev v' supplied _ supply ran
  have edited := (react_edited ran).result
  have all := Searchable.edit_all (UserList.Matches F) "" (edit F ev)
    (s := v.list.searchable) supplied.array supplied.unfiltered (by
      intro users load
      cases ev with
      | fetchAllUser result =>
        cases result with
        | none => cases load
        | some users' =>
          cases load
          exact supply.carries
      | _ => cases load)
  rw [← edited] at all
  exact ⟨all.1, all.2, react_alerts supplied ran⟩

theorem Supplied.runs (F : Foundation) (supplied : v.Supplied C) :
    (∀ text, ∃ v', v.react F (.textDidChange text) = .ok v') ∧
    (∀ sender, v.list.row sender < v.userInfoArray.length → ∃ v', v.react F (.addFriend sender) = .ok v') ∧
    (∀ alert < v.alerts.length, ∃ v', v.react F (.addAction alert) = .ok v') := by
  refine ⟨?_, ?_, ?_⟩
  · intro text
    have named : UserList.Named v.list.unfiltered := fun user member =>
      (supplied.unfiltered user member).firstName
    obtain ⟨list, ran⟩ := UserList.textDidChange_runs F UserBlock.reloadData named text
    exact ⟨_, bind_ok.mpr ⟨list, ran, rfl⟩⟩
  · intro sender inside
    exact ⟨_, bind_ok.mpr ⟨_, item_inside inside, rfl⟩⟩
  · intro alert inside
    obtain ⟨friendId, unwrapped⟩ := unwrap_isSome (supplied.alerts _ (List.getElem_mem inside)).userId
    exact ⟨_, bind_ok.mpr ⟨_, item_inside inside, bind_ok.mpr ⟨friendId, unwrapped, rfl⟩⟩⟩

end UserViewController

namespace FriendViewController

variable {F : Foundation} {v v' : FriendViewController} {ev : Event}

/-- What is loaded has been delivered over records with the fields. -/
def Supply (C : CoreLocation) (_ : FriendViewController) : Event → Prop
  | .fetchFriends result => FriendLoad C result
  | _ => True

structure Supplied (C : CoreLocation) (v : FriendViewController) : Prop where
  array : ∀ friend ∈ v.friendListArray, Carries C friend
  unfiltered : ∀ friend ∈ v.unFilteredFriendListArray, Carries C friend
  alerts : ∀ alert ∈ v.alerts, Carries C alert.1

theorem react_alerts (supplied : v.Supplied C) (ran : v.react F ev = .ok v') :
    ∀ alert ∈ v'.alerts, Carries C alert.1 := by
  cases ev with
  | fetchFriends result =>
    obtain rfl := Except.ok.inj ran
    exact supplied.alerts
  | willDisplay cell row =>
    obtain rfl := Except.ok.inj ran
    exact supplied.alerts
  | unFriend sender =>
    obtain ⟨friends, tapped, same⟩ := bind_ok.mp ran
    obtain rfl := Except.ok.inj same
    intro alert member
    rcases List.mem_append.mp member with old | new
    · exact supplied.alerts alert old
    · obtain rfl := List.mem_singleton.mp new
      exact supplied.array _ (List.mem_of_getElem? (item_ok_iff.mp tapped))
  | removeAction alert =>
    obtain ⟨⟨friends, sender⟩, _, rest⟩ := bind_ok.mp ran
    obtain ⟨friendId, _, same⟩ := bind_ok.mp rest
    obtain rfl := Except.ok.inj same
    exact fun alert' member => supplied.alerts alert' (List.mem_of_mem_eraseIdx member)
  | cancelAction alert =>
    obtain rfl := Except.ok.inj ran
    exact fun alert' member => supplied.alerts alert' (List.mem_of_mem_eraseIdx member)
  | removed request result =>
    obtain ⟨_, _, same⟩ := bind_ok.mp ran
    obtain rfl := Except.ok.inj same
    exact supplied.alerts
  | textDidChange searchText =>
    obtain ⟨list, _, same⟩ := bind_ok.mp ran
    obtain rfl := Except.ok.inj same
    exact supplied.alerts
  | searchBarCancelButtonClicked =>
    obtain rfl := Except.ok.inj ran
    exact supplied.alerts
  | main =>
    have same : v'.alerts = v.alerts := by
      have blocks : v.runBlock = .ok v' := ran
      unfold runBlock at blocks
      split at blocks
      · obtain rfl := Except.ok.inj blocks
        rfl
      · obtain ⟨list, _, done⟩ := bind_ok.mp blocks
        obtain rfl := Except.ok.inj done
        rfl
      · obtain rfl := Except.ok.inj blocks
        rfl
      · obtain rfl := Except.ok.inj blocks
        rfl
      · obtain ⟨table, _, done⟩ := bind_ok.mp blocks
        obtain rfl := Except.ok.inj done
        rfl
    rw [same]
    exact supplied.alerts

theorem run_supplied (run : (machine F).Run (·.Supply C) {} v) : v.Supplied C := by
  have unset : ∀ user ∈ ([] : List UserModel), Carries C user := fun _ member =>
    absurd member List.not_mem_nil
  refine run.invariant (I := Supplied C) ⟨unset, unset, fun _ member => absurd member List.not_mem_nil⟩ ?_
  intro v ev v' supplied _ supply ran
  have edited := (react_edited ran).result
  have all := Searchable.edit_all (UserList.Matches F) "" (v.edit F ev)
    (s := v.list.searchable) supplied.array supplied.unfiltered (by
      intro friends load
      cases ev with
      | fetchFriends result =>
        cases load
        cases result with
        | none => exact fun _ member => absurd member List.not_mem_nil
        | some friends' => exact supply.carries
      | main =>
        unfold edit at load
        dsimp only at load
        split at load
        · cases load
        · cases load
      | _ => cases load)
  rw [← edited] at all
  exact ⟨all.1, all.2, react_alerts supplied ran⟩

theorem Supplied.runs (F : Foundation) (supplied : v.Supplied C) :
    (∀ text, ∃ v', v.react F (.textDidChange text) = .ok v') ∧
    (∀ sender, v.list.row sender < v.friendListArray.length →
      ∃ v', v.react F (.unFriend sender) = .ok v') ∧
    (∀ alert < v.alerts.length, ∃ v', v.react F (.removeAction alert) = .ok v') := by
  refine ⟨?_, ?_, ?_⟩
  · intro text
    have named : UserList.Named v.list.unfiltered := fun friend member =>
      (supplied.unfiltered friend member).firstName
    obtain ⟨list, ran⟩ := UserList.textDidChange_runs F FriendBlock.reloadData named text
    exact ⟨_, bind_ok.mpr ⟨list, ran, rfl⟩⟩
  · intro sender inside
    exact ⟨_, bind_ok.mpr ⟨_, item_inside inside, rfl⟩⟩
  · intro alert inside
    obtain ⟨friendId, unwrapped⟩ := unwrap_isSome (supplied.alerts _ (List.getElem_mem inside)).userId
    exact ⟨_, bind_ok.mpr ⟨_, item_inside inside, bind_ok.mpr ⟨friendId, unwrapped, rfl⟩⟩⟩

end FriendViewController

/-- Over records with the fields of a registration: the users' screen accepts a result exactly when
the `USER` node read was not empty; the map shows one marker per user exactly when every user's
picture has been downloaded and decodes; the searches and buttons of both screens always run. -/
theorem consumers_run (C : CoreLocation) (F : Foundation) :
    (∀ c : Call fetchAllUsers, c.Reachable Call.AnyStep → UsersStored C c.delivered →
      ∀ result ∈ c.reports,
        (∀ v : UserViewController, (∃ v', v.fetchAllUser result = .ok v') ↔
          ⟨.users, Json.null⟩ ∉ c.delivered) ∧
        ∀ list, result = some list → ∀ users ⊆ list,
          (GMapViewController.Shows C users ↔ ∀ user ∈ users, Pictured c user)) ∧
    (∀ v, (UserViewController.machine F).Run (·.Supply C) {} v →
      (∀ text, ∃ v', v.react F (.textDidChange text) = .ok v') ∧
      (∀ sender, v.list.row sender < v.userInfoArray.length →
        ∃ v', v.react F (.addFriend sender) = .ok v') ∧
      (∀ alert < v.alerts.length, ∃ v', v.react F (.addAction alert) = .ok v') ∧
      ∀ users ⊆ v.userInfoArray,
        (GMapViewController.Shows C users ↔ ∀ user ∈ users, user.image.isSome)) ∧
    (∀ v, (FriendViewController.machine F).Run (·.Supply C) {} v →
      (∀ text, ∃ v', v.react F (.textDidChange text) = .ok v') ∧
      (∀ sender, v.list.row sender < v.friendListArray.length →
        ∃ v', v.react F (.unFriend sender) = .ok v') ∧
      (∀ alert < v.alerts.length, ∃ v', v.react F (.removeAction alert) = .ok v')) := by
  refine ⟨?_, ?_, ?_⟩
  · intro c reachable stored result reported
    refine ⟨?_, ?_⟩
    · intro v
      rw [← load_none_iff reachable stored reported]
      cases result with
      | none => exact iff_of_false nofun (absurd rfl)
      | some users => exact iff_of_true ⟨_, rfl⟩ nofun
    · rintro list rfl users part
      have carries := UserLoad.carries ⟨c, reachable, stored, reported⟩
      rw [GMapViewController.shows_iff fun user member => (carries user (part member)).location]
      constructor
      · intro shown user member
        exact (image_iff_pictured reachable reported (part member)).mp (shown user member)
      · intro pictured user member
        exact (image_iff_pictured reachable reported (part member)).mpr (pictured user member)
  · intro v run
    have supplied := UserViewController.run_supplied run
    obtain ⟨searches, adds, confirms⟩ := supplied.runs F
    refine ⟨searches, adds, confirms, ?_⟩
    intro users part
    exact GMapViewController.shows_iff fun user member => (supplied.array user (part member)).location
  · intro v run
    exact (FriendViewController.run_supplied run).runs F

/-- Ann's registration. -/
def annInfo : UserModel where
  firstName := some "Ann"
  lastName := some "Lee"
  emailId := some "ann@mail"
  address := some "Elm Street 1"
  phoneNumber := some "555"
  password := some "secret"
  latitude := some "37.3"
  longitude := some "-122.0"

def annRecord : Json := (SignUpNewUser.userInfoDict annInfo).nodeFrom

/-- Ann is the one user; `storage` holds the pictures. -/
def annAlone (storage : String → Option UIImage) : Backend where
  database := .obj [("USER", .obj [("a", annRecord)])]
  storage := storage

def loadAnn : List (Device.Choice backend) :=
  let respond := policy true sampleAccount
  [.start .fetchAllUsers (), .serve 0 0 respond, .deliver 0 0, .serve 0 0 respond, .deliver 0 0,
    .block, .block]

/-- Ann fills in the form and submits it, her location arrives, and the registration runs. -/
theorem ann_registered : ∃ v : SignUpViewController,
    (SignUpViewController.machine .texts ⟨[]⟩).Run Machine.AnyEvent {} v ∧
      v.registered = [⟨annInfo, ⟨[]⟩⟩] := by
  let M := SignUpViewController.machine .texts ⟨[]⟩
  have first : M.Run Machine.AnyEvent {} _ :=
    .step (i := .textFieldDidEndEditing 0 annInfo.firstName) .refl trivial trivial rfl
  have last : M.Run Machine.AnyEvent {} _ :=
    .step (i := .textFieldDidEndEditing 1 annInfo.lastName) first trivial trivial rfl
  have email : M.Run Machine.AnyEvent {} _ :=
    .step (i := .textFieldDidEndEditing 2 annInfo.emailId) last trivial trivial rfl
  have address : M.Run Machine.AnyEvent {} _ :=
    .step (i := .textFieldDidEndEditing 3 annInfo.address) email trivial trivial rfl
  have phone : M.Run Machine.AnyEvent {} _ :=
    .step (i := .textFieldDidEndEditing 4 annInfo.phoneNumber) address trivial trivial rfl
  have password : M.Run Machine.AnyEvent {} _ :=
    .step (i := .textFieldDidEndEditing 5 annInfo.password) phone trivial trivial rfl
  have tapped : M.Run Machine.AnyEvent {} _ :=
    .step (i := .submitActionBtn) password trivial trivial rfl
  have located : M.Run Machine.AnyEvent {} _ :=
    .step (i := .didUpdateLocations [⟨"37.3", "-122.0"⟩]) tapped ⟨Nat.one_pos, List.cons_ne_nil _ _⟩
      trivial rfl
  have registered : M.Run Machine.AnyEvent {} _ :=
    .step (i := .main) located (List.cons_ne_nil _ _) trivial rfl
  exact ⟨_, registered, rfl⟩

theorem annRecord_stored {c : Call fetchAllUsers} (reachable : c.Reachable Call.AnyStep)
    (read : ⟨.users, Json.obj [("a", annRecord)]⟩ ∈ c.delivered) : UsersStored .texts c.delivered := by
  intro value answered
  obtain rfl : value = .obj [("a", annRecord)] :=
    Call.answer_eq (FetchAllUsers.any_session_unique reachable) (List.mem_append_right _ answered)
      (List.mem_append_right _ read)
  obtain ⟨v, run, registered⟩ := ann_registered
  obtain ⟨record, cast, written⟩ := sign_up_written run ⟨annInfo, ⟨[]⟩⟩
    (registered ▸ List.mem_cons_self)
  obtain rfl := Option.some.inj cast
  refine Or.inr ⟨_, rfl, ?_⟩
  intro user member
  obtain rfl := List.mem_singleton.mp member
  exact written

/-- The model that readers make of Ann's record. -/
def annModel : UserModel := { annInfo with userId := some "a", password := none }

/-- Ann's picture is there, and the map shows her. -/
theorem consumers_run_sample : GMapViewController.Shows .texts [{ annModel with image := some ⟨[1]⟩ }] := by
  let store := annAlone fun _ => some ⟨[1]⟩
  have ran : ((Device.boot store (some sampleAccount)).exec Network.AnyLabel loadAnn).isSome := rfl
  have run := Device.exec_run (Option.some_get ran).symm
  have found : (Option.get _ ran).network.calls[0]? = some ⟨.fetchAllUsers, _⟩ := rfl
  obtain ⟨c, reachable, read, pictured, reports⟩ : ∃ c : Call fetchAllUsers,
      c.Reachable Call.AnyStep ∧ ⟨.users, Json.obj [("a", annRecord)]⟩ ∈ c.delivered ∧
      ⟨.userImage annModel, Download.image ⟨[1]⟩⟩ ∈ c.delivered ∧
      c.reports = [some [{ annModel with image := some ⟨[1]⟩ }]] :=
    ⟨_, run.call_reachable (fun _ _ _ _ _ _ _ => trivial) found, List.mem_cons_self,
      List.mem_cons_of_mem _ List.mem_cons_self, rfl⟩
  have shows := (consumers_run .texts .ascii).1 c reachable (annRecord_stored reachable read) _
    (reports ▸ List.mem_cons_self)
  refine (shows.2 _ rfl _ (List.Subset.refl _)).mpr ?_
  intro user member
  obtain rfl := List.mem_singleton.mp member
  exact ⟨annModel, ⟨[1]⟩, pictured, rfl⟩

/-- With no user at all the result is nil, and without Ann's picture the map stops. -/
theorem consumers_trap :
    (¬ ∀ c : Call fetchAllUsers, c.Reachable Call.AnyStep → UsersStored .texts c.delivered →
      ∀ result ∈ c.reports, ∀ v : UserViewController, ∃ v', v.fetchAllUser result = .ok v') ∧
    (¬ ∀ c : Call fetchAllUsers, c.Reachable Call.AnyStep → UsersStored .texts c.delivered →
      ∀ list, some list ∈ c.reports → GMapViewController.Shows .texts list) := by
  refine ⟨?_, ?_⟩
  · intro accepted
    have ran : ((Device.boot ({} : Backend) (some sampleAccount)).exec Network.AnyLabel
      (loadAnn.take 3)).isSome := rfl
    have run := Device.exec_run (Option.some_get ran).symm
    have found : (Option.get _ ran).network.calls[0]? = some ⟨.fetchAllUsers, _⟩ := rfl
    obtain ⟨c, reachable, delivered, reports⟩ : ∃ c : Call fetchAllUsers,
        c.Reachable Call.AnyStep ∧ c.delivered = [⟨.users, Json.null⟩] ∧ c.reports = [none] :=
      ⟨_, run.call_reachable (fun _ _ _ _ _ _ _ => trivial) found, rfl, rfl⟩
    have stored : UsersStored .texts c.delivered := by
      intro value answered
      rw [delivered] at answered
      cases List.mem_singleton.mp answered
      exact Or.inl rfl
    obtain ⟨v', opened⟩ := accepted c reachable stored none (reports ▸ List.mem_cons_self) {}
    cases opened
  · intro shown
    let store := annAlone fun _ => none
    have ran : ((Device.boot store (some sampleAccount)).exec Network.AnyLabel loadAnn).isSome := rfl
    have run := Device.exec_run (Option.some_get ran).symm
    have found : (Option.get _ ran).network.calls[0]? = some ⟨.fetchAllUsers, _⟩ := rfl
    obtain ⟨c, reachable, read, reports⟩ : ∃ c : Call fetchAllUsers,
        c.Reachable Call.AnyStep ∧ ⟨.users, Json.obj [("a", annRecord)]⟩ ∈ c.delivered ∧
        c.reports = [some [annModel]] :=
      ⟨_, run.call_reachable (fun _ _ _ _ _ _ _ => trivial) found, List.mem_cons_self, rfl⟩
    obtain ⟨markers, opened, _⟩ := shown c reachable (annRecord_stored reachable read) [annModel]
      (reports ▸ List.mem_cons_self)
    cases opened

end SimpleSNS
