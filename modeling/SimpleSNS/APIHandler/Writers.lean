import SimpleSNS.Async.Program
import SimpleSNS.Models

/-!
The writers: `signUpNewUser`, `updateUserInformation`, `addToFriendList`,
`removeFromFriendList` and `addNewPost`. A write is answered with an error or with none. An
upload unwraps the JPEG data of its picture before it is sent.
-/

namespace SimpleSNS
open Async

/-- What `uploadImage` hands to its completion: the name of the file, or the error. -/
abbrev Uploaded := Option String × Option Error

def uploadImage (userId : String) : Option Error → Uploaded
  | none => (some (userImageName userId), none)
  | some error => (none, some error)

namespace SignUpNewUser

structure Input where
  userInfo : UserModel
  userImg : UIImage
  deriving DecidableEq

inductive Request where
  | createUser (email password : String)
  | setValue (uid : String) (userInfo : UserModel)
  | uploadImage (userId : String) (img : UIImage)
  deriving DecidableEq

/-- Auth answers with a result and an error, of which it sets one. -/
def Answer : Request → Type
  | .createUser _ _ => Option String × Option Error
  | .setValue _ _ => Option Error
  | .uploadImage _ _ => Option Error

/-- The closures capture `userInfo` and `userImg`; `user` is captured by the inner ones. -/
structure Vars where
  input : Input

abbrev State := Frame Vars Request Empty Uploaded

/-- The record written for a new user. -/
def userInfoDict (userInfo : UserModel) : Json :=
  .obj (nullable (profileFields userInfo) ++ [("Coordinate", coordinate userInfo)])

def start (_ : Session) (input : Input) : Except Trap State := do
  let emailId ← unwrap input.userInfo.emailId
  let password ← unwrap input.userInfo.password
  return { vars := ⟨input⟩, sent := [.createUser emailId password] }

def reply (_ : Session) (v : Vars) : (r : Request) → Answer r → Except Trap State
  | .createUser _ _, (result, error) =>
    match error with
    | none =>
      match result with
      | none => .ok { vars := v }
      | some uid => .ok { vars := v, sent := [.setValue uid v.input.userInfo] }
    | some error => .ok { vars := v, reported := [(none, some error)] }
  | .setValue uid _, error =>
    match error with
    | none => do
      let _ ← unwrap v.input.userImg.jpeg
      return { vars := v, sent := [.uploadImage uid v.input.userImg] }
    | some error => .ok { vars := v, reported := [(none, some error)] }
  | .uploadImage userId _, error => .ok { vars := v, reported := [uploadImage userId error] }

theorem reply_uploads {e : Session} {v : Vars} (uid : String) (userInfo : UserModel) {f : State}
    (ran : reply e v (.setValue uid userInfo) none = .ok f) :
    f = { vars := v, sent := [.uploadImage uid v.input.userImg] } := by
  obtain ⟨_, _, same⟩ := bind_ok.mp ran
  exact (Except.ok.inj same).symm

/-- The callbacks of a sign-up write what was submitted, for the uid they were given. -/
theorem reply_vars (e : Session) {v : Vars} {r : Request} {a : Answer r} {f : State}
    (ran : reply e v r a = .ok f) : f.vars = v ∧ (f.sent = [] ∨
      (∃ uid, f.sent = [.setValue uid v.input.userInfo]) ∨
      ∃ uid, f.sent = [.uploadImage uid v.input.userImg]) := by
  cases r with
  | uploadImage userId img => cases ran; exact ⟨rfl, Or.inl rfl⟩
  | createUser email password =>
    obtain ⟨result, error⟩ := a
    cases error with
    | some error => cases ran; exact ⟨rfl, Or.inl rfl⟩
    | none =>
      cases result with
      | none => cases ran; exact ⟨rfl, Or.inl rfl⟩
      | some uid => cases ran; exact ⟨rfl, Or.inr (Or.inl ⟨uid, rfl⟩)⟩
  | setValue uid userInfo =>
    cases a with
    | some error => cases ran; exact ⟨rfl, Or.inl rfl⟩
    | none =>
      obtain rfl := reply_uploads uid userInfo ran
      exact ⟨rfl, Or.inr (Or.inr ⟨uid, rfl⟩)⟩

end SignUpNewUser

abbrev signUpNewUser : Program Session where
  Input := SignUpNewUser.Input
  Vars := SignUpNewUser.Vars
  Request := SignUpNewUser.Request
  Answer := SignUpNewUser.Answer
  Block := Empty
  Report := Uploaded
  start := SignUpNewUser.start
  reply := SignUpNewUser.reply
  block := fun _ _ b => nomatch b

namespace UpdateUserInformation

structure Input where
  updatedUserInfo : UserModel
  updateProfileImg : UIImage
  deriving DecidableEq

inductive Request where
  | updateChildValues (uid : String) (updatedUserInfo : UserModel)
  | uploadImage (userId : String) (img : UIImage)
  deriving DecidableEq

structure Vars where
  input : Input

abbrev State := Frame Vars Request Empty Uploaded

def start (session : Session) (input : Input) : Except Trap State :=
  .ok {
    vars := ⟨input⟩
    sent := [.updateChildValues (getCurrentUid session) input.updatedUserInfo] }

/-- The uid of the picture is read again here. -/
def reply (session : Session) (v : Vars) : (r : Request) → Option Error → Except Trap State
  | .updateChildValues _ _, none => do
    let _ ← unwrap v.input.updateProfileImg.jpeg
    return { vars := v, sent := [.uploadImage (getCurrentUid session) v.input.updateProfileImg] }
  | .updateChildValues _ _, some error => .ok { vars := v, reported := [(none, some error)] }
  | .uploadImage userId _, error => .ok { vars := v, reported := [uploadImage userId error] }

theorem reply_uploads {e : Session} {v : Vars} (uid : String) (updatedUserInfo : UserModel) {f : State}
    (ran : reply e v (.updateChildValues uid updatedUserInfo) none = .ok f) :
    f = { vars := v, sent := [.uploadImage (getCurrentUid e) v.input.updateProfileImg] } := by
  obtain ⟨_, _, same⟩ := bind_ok.mp ran
  exact (Except.ok.inj same).symm

theorem reply_vars {e : Session} {v : Vars} {r : Request} {a : Option Error} {f : State}
    (ran : reply e v r a = .ok f) : f.vars = v := by
  cases r with
  | uploadImage userId img =>
    obtain rfl := Except.ok.inj ran
    rfl
  | updateChildValues uid updatedUserInfo =>
    cases a with
    | some error =>
      obtain rfl := Except.ok.inj ran
      rfl
    | none =>
      obtain rfl := reply_uploads uid updatedUserInfo ran
      rfl

end UpdateUserInformation

abbrev updateUserInformation : Program Session where
  Input := UpdateUserInformation.Input
  Vars := UpdateUserInformation.Vars
  Request := UpdateUserInformation.Request
  Answer := fun _ => Option Error
  Block := Empty
  Report := Uploaded
  start := UpdateUserInformation.start
  reply := UpdateUserInformation.reply
  block := fun _ _ b => nomatch b

namespace FriendList

/-- A write at `USER/<uid>/FRIENDS/<friendId>`. -/
structure Request where
  uid : String
  friendId : String
  deriving DecidableEq

/-- The one value that both results of a write are handed over as. -/
inductive Result where
  | reference
  | error (error : Error)
  deriving DecidableEq

abbrev State := Frame Unit Request Empty Result

def start (session : Session) (friendId : String) : Except Trap State :=
  .ok { vars := (), sent := [⟨getCurrentUid session, friendId⟩] }

def onWritten : Option Error → State
  | none => { vars := (), reported := [.reference] }
  | some error => { vars := (), reported := [.error error] }

end FriendList

abbrev addToFriendList : Program Session where
  Input := String
  Vars := Unit
  Request := FriendList.Request
  Answer := fun _ => Option Error
  Block := Empty
  Report := FriendList.Result
  start := FriendList.start
  reply := fun _ _ _ error => .ok (FriendList.onWritten error)
  block := fun _ _ b => nomatch b

abbrev removeFromFriendList : Program Session where
  Input := String
  Vars := Unit
  Request := FriendList.Request
  Answer := fun _ => Option Error
  Block := Empty
  Report := FriendList.Result
  start := FriendList.start
  reply := fun _ _ _ error => .ok (FriendList.onWritten error)
  block := fun _ _ b => nomatch b

namespace AddNewPost

/-- `postKey` is what `childByAutoId` hands out, `time` the clock. -/
structure Input where
  postString : String
  postImg : UIImage
  postKey : String
  time : Rat
  deriving DecidableEq

inductive Request where
  | setValue (postKey : String) (description : String) (timeStamp : Rat) (userId : String)
  | addPostStorage (postKey : String) (img : UIImage)
  | addPostRefCurrentUser (uid postKey : String)
  deriving DecidableEq

inductive Block where
  | complete
  deriving DecidableEq

structure Vars where
  input : Input
  postDispatchGroup : DispatchGroup Block := .new

abbrev State := Frame Vars Request Block (Option Error)

/-- The record of a new post. -/
def postRecord (description : String) (timeStamp : Rat) (userId : String) : Json :=
  .obj [("Description", .str description), ("timeStamp", .num timeStamp),
    ("User Id", .str userId), ("isLike", .bool false)]

def start (session : Session) (input : Input) : Except Trap State :=
  .ok {
    vars := { input := input }
    sent := [.setValue input.postKey input.postString input.time (getCurrentUid session)] }

/-- Each half of the join leaves the group on success and reports its error otherwise. -/
def onHalf (v : Vars) : Option Error → Except Trap State
  | none => do
    let (group, released) ← v.postDispatchGroup.leave
    return { vars := { v with postDispatchGroup := group }, queued := released }
  | some error => .ok { vars := v, reported := [some error] }

/-- The callback of the post, once both halves are on their way. -/
def joining (session : Session) (v : Vars) : State :=
  let entered := v.postDispatchGroup.enter.enter
  let (group, released) := entered.notify .complete
  { vars := { v with postDispatchGroup := group }
    sent := [.addPostStorage v.input.postKey v.input.postImg,
      .addPostRefCurrentUser (getCurrentUid session) v.input.postKey]
    queued := released }

/-- The uid of the author's list is read again here. -/
def onSetValue (session : Session) (v : Vars) : Option Error → Except Trap State
  | none => do
    let _ ← unwrap v.input.postImg.jpeg
    userChild (getCurrentUid session)
    return joining session v
  | some error => .ok { vars := v, reported := [some error] }

theorem onSetValue_ok {session : Session} {v : Vars} {f : State}
    (ran : onSetValue session v none = .ok f) : f = joining session v := by
  obtain ⟨_, _, ran⟩ := bind_ok.mp ran
  obtain ⟨_, _, ran⟩ := bind_ok.mp ran
  exact (Except.ok.inj ran).symm

def reply (session : Session) (v : Vars) : (r : Request) → Option Error → Except Trap State
  | .setValue _ _ _ _, error => onSetValue session v error
  | .addPostStorage _ _, error => onHalf v error
  | .addPostRefCurrentUser _ _, error => onHalf v error

def block (_ : Session) (v : Vars) : Block → Except Trap State
  | .complete => .ok { vars := v, reported := [none] }

end AddNewPost

abbrev addNewPost : Program Session where
  Input := AddNewPost.Input
  Vars := AddNewPost.Vars
  Request := AddNewPost.Request
  Answer := fun _ => Option Error
  Block := AddNewPost.Block
  Report := Option Error
  start := AddNewPost.start
  reply := AddNewPost.reply
  block := AddNewPost.block

end SimpleSNS
