import SimpleSNS.APIHandler.FetchAllPost
import SimpleSNS.APIHandler.FetchUsers
import SimpleSNS.APIHandler.Writers
import SimpleSNS.Async.Schedule

/-!
The API handler as one family of programs, and the services behind it: the database tree, the
storage and the accounts. A write that fails has no effect.
-/

namespace SimpleSNS
open Async

inductive Api where
  | signUpNewUser
  | fetchCurrentUser
  | fetchAllUsers
  | fetchFriendList
  | fetchAllPost
  | updateUserInformation
  | addToFriendList
  | removeFromFriendList
  | addNewPost
  deriving DecidableEq

abbrev api : Api → Program Session
  | .signUpNewUser => signUpNewUser
  | .fetchCurrentUser => fetchCurrentUser
  | .fetchAllUsers => fetchAllUsers
  | .fetchFriendList => fetchFriendList
  | .fetchAllPost => fetchAllPost
  | .updateUserInformation => updateUserInformation
  | .addToFriendList => addToFriendList
  | .removeFromFriendList => removeFromFriendList
  | .addNewPost => addNewPost

structure Backend where
  database : Json := .null
  storage : String → Option UIImage := fun _ => none
  accounts : List (String × Account) := []

namespace Backend

def setValue (w : Backend) (path : List String) (value : Json) : Backend :=
  { w with database := w.database.updateChild path value.nodeFrom }

def updateChildValues (w : Backend) (path : List String) (fields : List (String × Json)) : Backend :=
  { w with
    database := fields.foldl (fun database field =>
      database.updateChild (path ++ [field.1]) field.2.nodeFrom) w.database }

def removeValue (w : Backend) (path : List String) : Backend :=
  { w with database := w.database.updateChild path .null }

def putData (w : Backend) (name : String) (img : UIImage) : Backend :=
  { w with storage := fun file => if file = name then some img else w.storage file }

/-- A write either is applied or fails without effect. -/
def Write (w applied w' : Backend) : Option Error → Prop
  | none => w' = applied
  | some _ => w' = w

/-- What a write would leave as it is stays as it is, whether the write is applied or fails. -/
theorem Write.keeps {α : Type} {w applied w' : Backend} {error : Option Error}
    (served : w.Write applied w' error) (part : Backend → α) (same : part applied = part w) :
    part w' = part w := by
  cases error with
  | none =>
    rw [show w' = applied from served]
    exact same
  | some error => rw [show w' = w from served]

/-- A download finds the stored picture or fails. -/
def GetData (w : Backend) (name : String) (w' : Backend) : Download → Prop
  | .image img => w' = w ∧ w.storage name = some img
  | .undecodable => False
  | .failed _ => w' = w

/-- A read answers with the node as it is. -/
def Observe (w : Backend) (path : List String) (w' : Backend) (value : Json) : Prop :=
  w' = w ∧ value = w.database.getChild path

def Registered (w : Backend) (email : String) : Prop := email ∈ w.accounts.map Prod.fst

/-- Auth refuses an e-mail that has an account and otherwise creates a fresh uid, or fails. -/
inductive CreateUser (w : Backend) (email : String) : Backend → Option String × Option Error → Prop
  | created (account : Account) (unregistered : ¬ w.Registered email)
      (fresh : account ∉ w.accounts.map Prod.snd) :
      CreateUser w email { w with accounts := (email, account) :: w.accounts }
        (some account.uid, none)
  | failed (error : Error) : CreateUser w email w (none, some error)

end Backend

/-! ### The services of each function -/

def SignUpNewUser.Serve (w w' : Backend) : (r : Request) → Answer r → Prop
  | .createUser email _, answer => w.CreateUser email w' answer
  | .setValue uid userInfo, error => w.Write (w.setValue (userPath uid) (userInfoDict userInfo)) w' error
  | .uploadImage userId img, error => w.Write (w.putData (userImageName userId) img) w' error

def UpdateUserInformation.Serve (w w' : Backend) : Request → Option Error → Prop
  | .updateChildValues uid userInfo, error =>
    w.Write (w.updateChildValues (userPath uid) (nullable (profileFields userInfo))) w' error
  | .uploadImage userId img, error => w.Write (w.putData (userImageName userId) img) w' error

def friendsPath (uid : String) : List String := userPath uid ++ ["FRIENDS"]

def FriendList.ServeAdd (w w' : Backend) (r : Request) (error : Option Error) : Prop :=
  w.Write (w.updateChildValues (friendsPath r.uid) [(r.friendId, .str "Friend Id")]) w' error

def FriendList.ServeRemove (w w' : Backend) (r : Request) (error : Option Error) : Prop :=
  w.Write (w.removeValue (friendsPath r.uid ++ [r.friendId])) w' error

def AddNewPost.Serve (w w' : Backend) : Request → Option Error → Prop
  | .setValue postKey description timeStamp userId, error =>
    w.Write (w.setValue (postPath postKey) (postRecord description timeStamp userId)) w' error
  | .addPostStorage postKey img, error => w.Write (w.putData (postImageName postKey) img) w' error
  | .addPostRefCurrentUser uid postKey, error =>
    w.Write (w.updateChildValues (userPath uid ++ ["POST"]) [(postKey, .str "postKey")]) w' error

def FetchCurrentUser.Serve (w w' : Backend) (r : Request) (value : Json) : Prop :=
  match r with
  | .record uid => w.Observe (userPath uid) w' value

def FetchAllUsers.Serve (w w' : Backend) : (r : Request) → Answer r → Prop
  | .users, value => w.Observe ["USER"] w' value
  | .userImage userModel, img => w.GetData (userImageName (userModel.userId.getD "")) w' img

def FetchFriendList.Serve (w w' : Backend) : (r : Request) → Answer r → Prop
  | .friends uid, value => w.Observe (friendsPath uid) w' value
  | .record friend, value => w.Observe (userPath friend) w' value
  | .userImage userModel, img => w.GetData (userImageName (userModel.userId.getD "")) w' img

def FetchAllPost.Serve (w w' : Backend) : (r : Request) → Answer r → Prop
  | .posts, value => w.Observe ["POST"] w' value
  | .postUserName _ userId, value => w.Observe (userPath userId ++ ["First Name"]) w' value
  | .postUserImage _ userId, img => w.GetData (userImageName userId) w' img
  | .postImage _ imageRef, img => w.GetData (postImageName imageRef) w' img

def backend : Service api Backend where
  serve w k r a w' :=
    match k, r, a with
    | .signUpNewUser, r, a => SignUpNewUser.Serve w w' r a
    | .fetchCurrentUser, r, a => FetchCurrentUser.Serve w w' r a
    | .fetchAllUsers, r, a => FetchAllUsers.Serve w w' r a
    | .fetchFriendList, r, a => FetchFriendList.Serve w w' r a
    | .fetchAllPost, r, a => FetchAllPost.Serve w w' r a
    | .updateUserInformation, r, a => UpdateUserInformation.Serve w w' r a
    | .addToFriendList, r, a => FriendList.ServeAdd w w' r a
    | .removeFromFriendList, r, a => FriendList.ServeRemove w w' r a
    | .addNewPost, r, a => AddNewPost.Serve w w' r a

/-! ### Deterministic services -/

/-- A write that succeeds or not. -/
def Backend.write (succeeds : Bool) (w applied : Backend) : Option Error × Backend :=
  if succeeds then (none, applied) else (some ⟨"permission denied"⟩, w)

theorem Backend.write_spec (succeeds : Bool) (w applied : Backend) :
    w.Write applied (Backend.write succeeds w applied).2 (Backend.write succeeds w applied).1 := by
  cases succeeds <;> rfl

def Backend.download (succeeds : Bool) (w : Backend) (name : String) : Download :=
  match succeeds, w.storage name with
  | true, some img => .image img
  | _, _ => .failed ⟨"object not found"⟩

theorem Backend.download_spec (succeeds : Bool) (w : Backend) (name : String) :
    w.GetData name w (w.download succeeds name) := by
  unfold Backend.download
  split
  · rename_i img stored
    exact ⟨rfl, stored⟩
  · rfl

/-- Auth hands out `account` when that is possible. -/
def Backend.createUser (succeeds : Bool) (w : Backend) (email : String) (account : Account) :
    (Option String × Option Error) × Backend :=
  if succeeds = true ∧ email ∉ w.accounts.map Prod.fst ∧ account ∉ w.accounts.map Prod.snd then
    ((some account.uid, none), { w with accounts := (email, account) :: w.accounts })
  else ((none, some ⟨"email already in use"⟩), w)

theorem Backend.createUser_spec (succeeds : Bool) (w : Backend) (email : String)
    (account : Account) : w.CreateUser email (w.createUser succeeds email account).2
      (w.createUser succeeds email account).1 := by
  unfold Backend.createUser
  split
  · rename_i possible
    exact .created account possible.2.1 possible.2.2
  · exact .failed _

/-- Requests succeed, as far as the store lets them, or all fail; reads never fail. -/
def respond (succeeds : Bool) (account : Account) (w : Backend) :
    (k : Api) → (r : (api k).Request) → (api k).Answer r × Backend
  | .signUpNewUser, .createUser email _ => w.createUser succeeds email account
  | .signUpNewUser, .setValue uid userInfo =>
    w.write succeeds (w.setValue (userPath uid) (SignUpNewUser.userInfoDict userInfo))
  | .signUpNewUser, .uploadImage userId img =>
    w.write succeeds (w.putData (userImageName userId) img)
  | .fetchCurrentUser, .record uid => (w.database.getChild (userPath uid), w)
  | .fetchAllUsers, .users => (w.database.getChild ["USER"], w)
  | .fetchAllUsers, .userImage userModel =>
    (w.download succeeds (userImageName (userModel.userId.getD "")), w)
  | .fetchFriendList, .friends uid => (w.database.getChild (friendsPath uid), w)
  | .fetchFriendList, .record friend => (w.database.getChild (userPath friend), w)
  | .fetchFriendList, .userImage userModel =>
    (w.download succeeds (userImageName (userModel.userId.getD "")), w)
  | .fetchAllPost, .posts => (w.database.getChild ["POST"], w)
  | .fetchAllPost, .postUserName _ userId =>
    (w.database.getChild (userPath userId ++ ["First Name"]), w)
  | .fetchAllPost, .postUserImage _ userId => (w.download succeeds (userImageName userId), w)
  | .fetchAllPost, .postImage _ imageRef => (w.download succeeds (postImageName imageRef), w)
  | .updateUserInformation, .updateChildValues uid userInfo =>
    w.write succeeds (w.updateChildValues (userPath uid) (nullable (profileFields userInfo)))
  | .updateUserInformation, .uploadImage userId img =>
    w.write succeeds (w.putData (userImageName userId) img)
  | .addToFriendList, r =>
    w.write succeeds (w.updateChildValues (friendsPath r.uid) [(r.friendId, .str "Friend Id")])
  | .removeFromFriendList, r => w.write succeeds (w.removeValue (friendsPath r.uid ++ [r.friendId]))
  | .addNewPost, .setValue postKey description timeStamp userId =>
    w.write succeeds
      (w.setValue (postPath postKey) (AddNewPost.postRecord description timeStamp userId))
  | .addNewPost, .addPostStorage postKey img =>
    w.write succeeds (w.putData (postImageName postKey) img)
  | .addNewPost, .addPostRefCurrentUser uid postKey =>
    w.write succeeds (w.updateChildValues (userPath uid ++ ["POST"]) [(postKey, .str "postKey")])

/-- The account of the sample runs. -/
def sampleAccount : Account := ⟨"u", by decide⟩

def policy (succeeds : Bool) (account : Account) : Policy backend where
  answer := respond succeeds account
  permitted := by
    intro w k r
    cases k with
    | signUpNewUser =>
      cases r with
      | createUser => exact w.createUser_spec _ _ _
      | setValue => exact w.write_spec _ _
      | uploadImage => exact w.write_spec _ _
    | fetchCurrentUser => exact ⟨rfl, rfl⟩
    | fetchAllUsers =>
      cases r with
      | users => exact ⟨rfl, rfl⟩
      | userImage => exact w.download_spec _ _
    | fetchFriendList =>
      cases r with
      | friends => exact ⟨rfl, rfl⟩
      | record => exact ⟨rfl, rfl⟩
      | userImage => exact w.download_spec _ _
    | fetchAllPost =>
      cases r with
      | posts => exact ⟨rfl, rfl⟩
      | postUserName => exact ⟨rfl, rfl⟩
      | postUserImage => exact w.download_spec _ _
      | postImage => exact w.download_spec _ _
    | updateUserInformation =>
      cases r with
      | updateChildValues => exact w.write_spec _ _
      | uploadImage => exact w.write_spec _ _
    | addToFriendList => exact w.write_spec _ _
    | removeFromFriendList => exact w.write_spec _ _
    | addNewPost =>
      cases r with
      | setValue => exact w.write_spec _ _
      | addPostStorage => exact w.write_spec _ _
      | addPostRefCurrentUser => exact w.write_spec _ _

end SimpleSNS
