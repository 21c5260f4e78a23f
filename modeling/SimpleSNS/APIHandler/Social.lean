import SimpleSNS.Async.History
import SimpleSNS.Json.Table
import SimpleSNS.APIHandler.RoundTrip

/-!
What the app is for, without paths and files: members with a profile, a set of friends and the
posts they have listed, the posts themselves, and pictures. Every request that writes is one
command of this network, and the store represents it along every run.
-/

namespace SimpleSNS
open Async

structure Post where
  description : String
  timeStamp : Rat
  userId : String
  deriving DecidableEq

/-- The location is the one signed up with; a later profile has none. -/
structure Member where
  profile : UserModel := {}
  signedUp : UserModel := {}
  friends : Finset String := ∅
  timeline : Finset String := ∅

structure Social where
  members : String → Member := fun _ => {}
  posts : String → Option Post := fun _ => none
  portraits : String → Option UIImage := fun _ => none
  pictures : String → Option UIImage := fun _ => none

inductive Command where
  | signUp (uid : String) (userInfo : UserModel)
  | save (uid : String) (userInfo : UserModel)
  | befriend (uid friendId : String)
  | unfriend (uid friendId : String)
  | list (uid postKey : String)
  | publish (postKey : String) (post : Post)
  | portrait (uid : String) (img : UIImage)
  | picture (postKey : String) (img : UIImage)
  deriving DecidableEq

namespace Social

def change (s : Social) (uid : String) (update : Member → Member) : Social :=
  { s with members := Function.update s.members uid (update (s.members uid)) }

/-- A sign-up starts the member afresh, without friends and posts. -/
def perform (s : Social) : Command → Social
  | .signUp uid userInfo => s.change uid fun _ => { profile := userInfo, signedUp := userInfo }
  | .save uid userInfo => s.change uid fun m => { m with profile := userInfo }
  | .befriend uid friendId => s.change uid fun m => { m with friends := insert friendId m.friends }
  | .unfriend uid friendId => s.change uid fun m => { m with friends := m.friends.erase friendId }
  | .list uid postKey => s.change uid fun m => { m with timeline := insert postKey m.timeline }
  | .publish postKey post => { s with posts := Function.update s.posts postKey (some post) }
  | .portrait uid img => { s with portraits := Function.update s.portraits uid (some img) }
  | .picture postKey img => { s with pictures := Function.update s.pictures postKey (some img) }

theorem change_members (s : Social) (uid uid' : String) (update : Member → Member) :
    (s.change uid update).members uid' = if uid' = uid then update (s.members uid') else s.members uid' := by
  unfold change
  by_cases same : uid' = uid
  · subst same
    rw [if_pos rfl]
    exact Function.update_self _ _ _
  · rw [if_neg same]
    exact Function.update_of_ne same _ _

end Social

/-- The command that a served request performs; a failed write and a read perform none. -/
def command : (k : Api) → (r : (api k).Request) → (api k).Answer r → Option Command
  | .signUpNewUser, .setValue uid userInfo, none => some (.signUp uid userInfo)
  | .signUpNewUser, .uploadImage userId img, none => some (.portrait userId img)
  | .updateUserInformation, .updateChildValues uid userInfo, none => some (.save uid userInfo)
  | .updateUserInformation, .uploadImage userId img, none => some (.portrait userId img)
  | .addToFriendList, r, none => some (.befriend r.uid r.friendId)
  | .removeFromFriendList, r, none => some (.unfriend r.uid r.friendId)
  | .addNewPost, .setValue postKey description timeStamp userId, none =>
    some (.publish postKey ⟨description, timeStamp, userId⟩)
  | .addNewPost, .addPostStorage postKey img, none => some (.picture postKey img)
  | .addNewPost, .addPostRefCurrentUser uid postKey, none => some (.list uid postKey)
  | _, _, _ => none

/-! ### The members -/

/-- A record as the store keeps a member. -/
structure Keeps (record : Json) (m : Member) : Prop where
  profile : Holds record m.profile m.signedUp
  friends : Json.KeySet (.str "Friend Id") m.friends (record.getImmediateChild "FRIENDS")
  timeline : Json.KeySet (.str "postKey") m.timeline (record.getImmediateChild "POST")

namespace Keeps

variable {record : Json} {m : Member}

theorem signUp (userInfo : UserModel) :
    Keeps (SignUpNewUser.userInfoDict userInfo).nodeFrom { profile := userInfo, signedUp := userInfo } := by
  have unique : ((nullable (profileFields userInfo) ++
      [("Coordinate", coordinate userInfo)]).map Prod.fst).Nodup := by
    simp [nullable, profileFields]
  have nothing : ∀ list ∈ ["FRIENDS", "POST"],
      (SignUpNewUser.userInfoDict userInfo).nodeFrom.getImmediateChild list = .null := by
    intro list known
    have absent : list ∉ (nullable (profileFields userInfo) ++
        [("Coordinate", coordinate userInfo)]).map Prod.fst := by
      revert list
      simp [nullable, profileFields]
    rw [SignUpNewUser.userInfoDict, Json.nodeFrom_getImmediateChild unique, Json.lookup_absent absent]
    exact Json.nodeFrom_null
  refine ⟨signedUp_holds userInfo, ?_, ?_⟩
  · rw [nothing "FRIENDS" (by decide)]
    exact Json.Table.empty _
  · rw [nothing "POST" (by decide)]
    exact Json.Table.empty _

theorem save (keeps : Keeps record m) (userInfo : UserModel) :
    Keeps (record.updateChildren (nullable (profileFields userInfo))) { m with profile := userInfo } := by
  have beside : ∀ list ∈ ["FRIENDS", "POST"], list ∉ (profileFields userInfo).map Prod.fst := by
    simp [profileFields]
  refine ⟨saved_holds keeps.profile userInfo, ?_, ?_⟩
  · rw [saved_other record userInfo (beside "FRIENDS" (by decide))]
    exact keeps.friends
  · rw [saved_other record userInfo (beside "POST" (by decide))]
    exact keeps.timeline

/-- The friends are written in a child of their own. -/
theorem befriending (keeps : Keeps record m) {friends : Finset String} {key : String} {v : Json}
    (written : Json.KeySet (.str "Friend Id") friends
      ((record.getImmediateChild "FRIENDS").updateImmediateChild key v)) :
    Keeps (record.updateChild ["FRIENDS", key] v) { m with friends := friends } := by
  refine ⟨keeps.profile.congr fun name known => list_beside (by decide) record v key known, ?_, ?_⟩
  · rw [Json.updateChild_cons, Json.updateImmediateChild_self]
    exact written
  · rw [Json.updateChild_cons, Json.updateImmediateChild_other _ (by decide)]
    exact keeps.timeline

theorem list (keeps : Keeps record m) (postKey : String) :
    Keeps (record.updateChild ["POST", postKey] (.str "postKey"))
      { m with timeline := insert postKey m.timeline } := by
  refine ⟨keeps.profile.congr fun name known => list_beside (by decide) record _ postKey known, ?_, ?_⟩
  · rw [Json.updateChild_cons, Json.updateImmediateChild_other _ (by decide)]
    exact keeps.friends
  · rw [Json.updateChild_cons, Json.updateImmediateChild_self]
    exact keeps.timeline.insert postKey

end Keeps

/-- What a command does to the record of its member. -/
def Command.record : Command → Option (String × (Json → Json))
  | .signUp uid userInfo => some (uid, fun _ => (SignUpNewUser.userInfoDict userInfo).nodeFrom)
  | .save uid userInfo => some (uid, fun record => record.updateChildren (nullable (profileFields userInfo)))
  | .befriend uid friendId =>
    some (uid, fun record => record.updateChild ["FRIENDS", friendId] (.str "Friend Id"))
  | .unfriend uid friendId => some (uid, fun record => record.updateChild ["FRIENDS", friendId] .null)
  | .list uid postKey => some (uid, fun record => record.updateChild ["POST", postKey] (.str "postKey"))
  | .publish _ _ | .portrait _ _ | .picture _ _ => none

theorem recordWrite_command (k : Api) (r : (api k).Request) (a : (api k).Answer r) :
    recordWrite k r a = (command k r a).bind Command.record := by
  cases k with
  | signUpNewUser => cases r <;> cases a <;> rfl
  | updateUserInformation => cases r <;> cases a <;> rfl
  | addToFriendList => cases a <;> rfl
  | removeFromFriendList => cases a <;> rfl
  | addNewPost => cases r <;> cases a <;> rfl
  | _ => rfl

theorem keeps_change {s : Social} {record : Json} {uid uid' : String} {update : Member → Member}
    {change : Json → Json} (keeps : Keeps record (s.members uid))
    (changed : Keeps record (s.members uid) → Keeps (change record) (update (s.members uid))) :
    Keeps (recordAfter (some (uid', change)) record uid) ((s.change uid' update).members uid) := by
  rw [Social.change_members]
  by_cases same : uid = uid'
  · subst same
    rw [recordAfter_self, if_pos rfl]
    exact changed keeps
  · rw [recordAfter_other (Ne.symm same), if_neg same]
    exact keeps

/-- A command changes the record as it changes the member. -/
theorem perform_keeps {s : Social} {record : Json} {uid : String}
    (keeps : Keeps record (s.members uid)) (c : Command) :
    Keeps (recordAfter c.record record uid) ((s.perform c).members uid) := by
  cases c with
  | signUp uid' userInfo =>
    rw [Command.record, Social.perform]
    exact keeps_change keeps fun _ => .signUp userInfo
  | save uid' userInfo =>
    rw [Command.record, Social.perform]
    exact keeps_change keeps fun keeps => keeps.save userInfo
  | befriend uid' friendId =>
    rw [Command.record, Social.perform]
    exact keeps_change keeps fun keeps => keeps.befriending (keeps.friends.insert friendId)
  | unfriend uid' friendId =>
    rw [Command.record, Social.perform]
    exact keeps_change keeps fun keeps => keeps.befriending (keeps.friends.erase friendId)
  | list uid' postKey =>
    rw [Command.record, Social.perform]
    exact keeps_change keeps fun keeps => keeps.list postKey
  | publish postKey post => exact keeps
  | portrait uid' img => exact keeps
  | picture postKey img => exact keeps

/-! ### Posts and pictures -/

def Post.record (post : Post) : Json := AddNewPost.postRecord post.description post.timeStamp post.userId

theorem Post.record_stored (post : Post) : post.record.nodeFrom = post.record := by
  simp [Post.record, AddNewPost.postRecord, Json.nodeFrom, Json.fieldsFrom, Json.children]

def postNode (w : Backend) : Json := w.database.getChild ["POST"]

theorem posts_apart {database v : Json} {uid : String} (path : List String) :
    (database.updateChild (userPath uid ++ path) v).getChild ["POST"] = database.getChild ["POST"] := by
  have apart : Json.Apart (userPath uid ++ path) ["POST"] := Or.inl (by decide)
  exact Json.getChild_updateChild_apart _ _ apart

/-- Only a published post changes `POST`, and it changes its own child. -/
def Command.post (before : Json) : Command → Json
  | .publish postKey post => before.updateImmediateChild postKey post.record
  | _ => before

theorem serve_posts {w w' : Backend} {k : Api} {r : (api k).Request} {a : (api k).Answer r}
    (served : backend.serve w k r a w') :
    postNode w' = (command k r a).elim (postNode w) (Command.post (postNode w)) := by
  have unchanged : w' = w → postNode w' = postNode w := congrArg postNode
  cases k with
  | signUpNewUser =>
    cases r with
    | createUser email password => exact congrArg (Json.getChild · ["POST"]) (createUser_database served)
    | uploadImage userId img =>
      have same : postNode w' = postNode w := served.keeps postNode rfl
      cases a <;> exact same
    | setValue uid userInfo =>
      cases a with
      | none => exact (congrArg postNode served).trans (posts_apart [])
      | some error => exact unchanged served
  | updateUserInformation =>
    cases r with
    | uploadImage userId img =>
      have same : postNode w' = postNode w := served.keeps postNode rfl
      cases a <;> exact same
    | updateChildValues uid userInfo =>
      cases a with
      | some error => exact unchanged served
      | none =>
        have apart : Json.Apart (userPath uid) ["POST"] := Or.inl (by decide)
        exact (congrArg postNode served).trans (Json.getChild_updates_apart _ apart _)
  | addToFriendList =>
    cases a with
    | none => exact (congrArg postNode served).trans (posts_apart ["FRIENDS", r.friendId])
    | some error => exact unchanged served
  | removeFromFriendList =>
    cases a with
    | none => exact (congrArg postNode served).trans (posts_apart ["FRIENDS", r.friendId])
    | some error => exact unchanged served
  | addNewPost =>
    cases r with
    | addPostStorage postKey img =>
      have same : postNode w' = postNode w := served.keeps postNode rfl
      cases a <;> exact same
    | addPostRefCurrentUser uid postKey =>
      cases a with
      | none => exact (congrArg postNode served).trans (posts_apart ["POST", postKey])
      | some error => exact unchanged served
    | setValue postKey description timeStamp userId =>
      cases a with
      | some error => exact unchanged served
      | none =>
        have written := Json.getChild_updateChild_above w.database
          (Post.record ⟨description, timeStamp, userId⟩).nodeFrom ["POST"] [postKey]
        rw [Json.updateChild_cons, Json.updateChild_nil, Post.record_stored] at written
        refine (congrArg postNode served).trans (Eq.trans ?_ written)
        show _ = (w.database.updateChild _ (Post.record _)).getChild _
        rw [← Post.record_stored]
        rfl
  | fetchCurrentUser => exact unchanged served.1
  | fetchAllUsers => exact unchanged (FetchAllUsers.serve_same served)
  | fetchFriendList => exact unchanged (FetchFriendList.serve_same served)
  | fetchAllPost => exact unchanged (FetchAllPost.serve_same served)

/-- The file that a command uploads. -/
def Command.file : Command → Option (String × UIImage)
  | .portrait uid img => some (userImageName uid, img)
  | .picture postKey img => some (postImageName postKey, img)
  | _ => none

def fileAfter (file : Option (String × UIImage)) (before : String → Option UIImage) (name : String) :
    Option UIImage :=
  match file with
  | some (written, img) => if name = written then some img else before name
  | none => before name

theorem serve_storage {w w' : Backend} {k : Api} {r : (api k).Request} {a : (api k).Answer r}
    (served : backend.serve w k r a w') (name : String) :
    w'.storage name = fileAfter ((command k r a).bind Command.file) w.storage name := by
  have unchanged : w' = w → w'.storage name = w.storage name := fun same => same ▸ rfl
  cases k with
  | signUpNewUser =>
    cases r with
    | createUser email password => cases served <;> rfl
    | uploadImage userId img =>
      cases a with
      | none => exact congrArg (Backend.storage · name) served
      | some error => exact unchanged served
    | setValue uid userInfo =>
      have same : w'.storage = w.storage := served.keeps Backend.storage rfl
      cases a <;> exact congrFun same name
  | updateUserInformation =>
    cases r with
    | uploadImage userId img =>
      cases a with
      | none => exact congrArg (Backend.storage · name) served
      | some error => exact unchanged served
    | updateChildValues uid userInfo =>
      have same : w'.storage = w.storage := served.keeps Backend.storage rfl
      cases a <;> exact congrFun same name
  | addToFriendList =>
    have same : w'.storage = w.storage := served.keeps Backend.storage rfl
    cases a <;> exact congrFun same name
  | removeFromFriendList =>
    have same : w'.storage = w.storage := served.keeps Backend.storage rfl
    cases a <;> exact congrFun same name
  | addNewPost =>
    cases r with
    | addPostStorage postKey img =>
      cases a with
      | none => exact congrArg (Backend.storage · name) served
      | some error => exact unchanged served
    | setValue postKey description timeStamp userId =>
      have same : w'.storage = w.storage := served.keeps Backend.storage rfl
      cases a <;> exact congrFun same name
    | addPostRefCurrentUser uid postKey =>
      have same : w'.storage = w.storage := served.keeps Backend.storage rfl
      cases a <;> exact congrFun same name
  | fetchCurrentUser => exact unchanged served.1
  | fetchAllUsers => exact unchanged (FetchAllUsers.serve_same served)
  | fetchFriendList => exact unchanged (FetchFriendList.serve_same served)
  | fetchAllPost => exact unchanged (FetchAllPost.serve_same served)

/-- Portraits and pictures of posts lie in different folders. -/
theorem folders_apart (uid postKey : String) : userImageName uid ≠ postImageName postKey := by
  intro same
  have characters := congrArg String.toList same
  simp [userImageName, postImageName, String.toList_append] at characters

theorem fileAfter_one {file : String → String} (inj : ∀ x y, file x = file y → x = y)
    {before : String → Option UIImage} {shown : String → Option UIImage}
    (stored : ∀ x, before (file x) = shown x) (key : String) (img : UIImage) (x : String) :
    fileAfter (some (file key, img)) before (file x) = Function.update shown key (some img) x := by
  by_cases same : x = key
  · subst same
    rw [Function.update_self]
    exact if_pos rfl
  · rw [Function.update_of_ne same, ← stored x]
    exact if_neg fun names => same (inj _ _ names)

theorem fileAfter_other {written name : String} (apart : name ≠ written) (img : UIImage)
    (before : String → Option UIImage) : fileAfter (some (written, img)) before name = before name :=
  if_neg apart

/-! ### The store as the network it represents -/

structure Stores (w : Backend) (s : Social) : Prop where
  users : Users w.database
  members : ∀ uid, Keeps (record w uid) (s.members uid)
  posts : Json.Table Post.record s.posts (postNode w)
  portraits : ∀ uid, w.storage (userImageName uid) = s.portraits uid
  pictures : ∀ postKey, w.storage (postImageName postKey) = s.pictures postKey

theorem stores_empty : Stores {} {} := by
  have blank : Keeps .null {} := by
    refine ⟨⟨?_, rfl⟩, Json.Table.empty _, Json.Table.empty _⟩
    intro name value field
    have unset : ∀ field ∈ profileFields {}, field.2 = none := by simp [profileFields]
    obtain rfl : value = none := unset _ field
    rfl
  refine ⟨Or.inl (Json.null_getChild _), fun uid => ?_, Json.Table.empty _, fun _ => rfl, fun _ => rfl⟩
  exact (Json.null_getChild (userPath uid)).symm ▸ blank

theorem perform_posts {s : Social} {before : Json} (table : Json.Table Post.record s.posts before)
    (c : Command) : Json.Table Post.record (s.perform c).posts (c.post before) := by
  cases c with
  | publish postKey post => exact table.update postKey (some post)
  | _ => exact table

theorem perform_portraits {s : Social} {before : String → Option UIImage}
    (stored : ∀ uid, before (userImageName uid) = s.portraits uid) (c : Command) (uid : String) :
    fileAfter c.file before (userImageName uid) = (s.perform c).portraits uid := by
  cases c with
  | portrait uid' img => exact fileAfter_one (fun _ _ => userImageName_inj) stored uid' img uid
  | picture postKey img =>
    rw [Command.file, fileAfter_other (folders_apart uid postKey)]
    exact stored uid
  | _ => exact stored uid

theorem perform_pictures {s : Social} {before : String → Option UIImage}
    (stored : ∀ postKey, before (postImageName postKey) = s.pictures postKey) (c : Command)
    (postKey : String) :
    fileAfter c.file before (postImageName postKey) = (s.perform c).pictures postKey := by
  cases c with
  | portrait uid img =>
    rw [Command.file, fileAfter_other (Ne.symm (folders_apart uid postKey))]
    exact stored postKey
  | picture postKey' img => exact fileAfter_one (fun _ _ => postImageName_inj) stored postKey' img postKey
  | _ => exact stored postKey

theorem serve_stores {w w' : Backend} {s : Social} {k : Api} {r : (api k).Request}
    {a : (api k).Answer r} (stores : Stores w s) (served : backend.serve w k r a w') :
    Stores w' ((command k r a).elim s s.perform) := by
  have users := serve_users stores.users served
  have records := serve_record served
  have all_posts := serve_posts served
  have files := serve_storage served
  rw [recordWrite_command] at records
  cases performed : command k r a with
  | none =>
    simp only [performed, Option.bind_none, Option.elim_none] at records all_posts files
    refine ⟨users, ?_, all_posts ▸ stores.posts, ?_, ?_⟩
    · intro uid
      rw [records uid]
      exact stores.members uid
    · intro uid
      rw [files]
      exact stores.portraits uid
    · intro postKey
      rw [files]
      exact stores.pictures postKey
  | some c =>
    simp only [performed, Option.bind_some, Option.elim_some] at records all_posts files
    refine ⟨users, ?_, all_posts ▸ perform_posts stores.posts c, ?_, ?_⟩
    · intro uid
      rw [records uid]
      exact perform_keeps (stores.members uid) c
    · intro uid
      rw [files]
      exact perform_portraits stores.portraits c uid
    · intro postKey
      rw [files]
      exact perform_pictures stores.pictures c postKey

/-- The network that the backend is the store of. -/
def social : Refinement backend Social Command where
  Represents := Stores
  perform := Social.perform
  command := command
  serves := serve_stores

/-- The step that performs a command: one kind of request, or for a portrait one of two. -/
def Command.By (e : Session) (i : Nat) (l : Network.Label api) : Command → Prop
  | .signUp uid userInfo => l = .call e i .signUpNewUser (.serve (.setValue uid userInfo) none)
  | .save uid userInfo => l = .call e i .updateUserInformation (.serve (.updateChildValues uid userInfo) none)
  | .befriend uid friendId => l = .call e i .addToFriendList (.serve ⟨uid, friendId⟩ none)
  | .unfriend uid friendId => l = .call e i .removeFromFriendList (.serve ⟨uid, friendId⟩ none)
  | .list uid postKey => l = .call e i .addNewPost (.serve (.addPostRefCurrentUser uid postKey) none)
  | .publish postKey post => l = .call e i .addNewPost
      (.serve (.setValue postKey post.description post.timeStamp post.userId) none)
  | .portrait uid img => l = .call e i .signUpNewUser (.serve (.uploadImage uid img) none) ∨
      l = .call e i .updateUserInformation (.serve (.uploadImage uid img) none)
  | .picture postKey img => l = .call e i .addNewPost (.serve (.addPostStorage postKey img) none)

theorem performed_by {l : Network.Label api} {c : Command} (performed : social.performed l = some c) :
    ∃ e i, c.By e i l := by
  rcases l with _ | ⟨e, i, k, ev⟩
  · cases performed
  refine ⟨e, i, ?_⟩
  cases ev with
  | deliver r a => cases performed
  | block b => cases performed
  | serve r a =>
    cases k with
    | signUpNewUser =>
      cases r <;> cases a <;> cases performed
      · rfl
      · exact Or.inl rfl
    | updateUserInformation =>
      cases r <;> cases a <;> cases performed
      · rfl
      · exact Or.inr rfl
    | addToFriendList =>
      cases a <;> cases performed
      rfl
    | removeFromFriendList =>
      cases a <;> cases performed
      rfl
    | addNewPost => cases r <;> cases a <;> cases performed <;> rfl
    | _ => cases performed

/-- The network after a run on an empty store. -/
abbrev after (labels : List (Network.Label api)) : Social := social.replay {} labels

/-- Along every run the store represents the commands that were performed, in their order. -/
theorem trace_stores {s : Network api Backend} {labels : List (Network.Label api)}
    (trace : Network.Trace backend { world := {} } labels s) : Stores s.world (after labels) :=
  social.trace trace stores_empty

end SimpleSNS
