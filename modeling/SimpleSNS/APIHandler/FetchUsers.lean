import SimpleSNS.Async.Program
import SimpleSNS.Models

/-!
The readers of `USER`: `fetchCurrentUser`, `fetchAllUsers` and `fetchFriendList`. The image
callback of a user captures that user's model, so the model travels with the request.
-/

namespace SimpleSNS
open Async

namespace FetchCurrentUser

inductive Request where
  | record (uid : String)
  deriving DecidableEq

abbrev State := Frame Unit Request Empty (Option UserModel)

def start (session : Session) (_ : Unit) : Except Trap State :=
  .ok { vars := (), sent := [.record (getCurrentUid session)] }

/-- The uid of the model is read again here. -/
def onRecord (session : Session) (value : Json) : State :=
  match value.dict? with
  | some userInfoDict =>
    { vars := (), reported := [some (UserModel.decode (getCurrentUid session) userInfoDict)] }
  | none => { vars := (), reported := [none] }

end FetchCurrentUser

abbrev fetchCurrentUser : Program Session where
  Input := Unit
  Vars := Unit
  Request := FetchCurrentUser.Request
  Answer := fun _ => Json
  Block := Empty
  Report := Option UserModel
  start := FetchCurrentUser.start
  reply := fun session _ _ value => .ok (FetchCurrentUser.onRecord session value)
  block := fun _ _ b => nomatch b

namespace FetchAllUsers

inductive Request where
  | users
  | userImage (userModel : UserModel)
  deriving DecidableEq

def Answer : Request → Type
  | .users => Json
  | .userImage _ => Download

inductive Block where
  | leaveUserGroup
  | complete
  deriving DecidableEq

structure Vars where
  fetchUserGroup : DispatchGroup Block := .new
  fetchUserComponentsGroup : DispatchGroup Block := .new
  userInfoArray : List UserModel := []

abbrev State := Frame Vars Request Block (Option (List UserModel))

def start (_ : Session) (_ : Unit) : Except Trap State :=
  .ok { vars := { fetchUserGroup := DispatchGroup.new.enter }, sent := [.users] }

def forUser (s : State) (user : String × Dict Json) : State :=
  let userModel := UserModel.decode user.1 user.2
  { s with
    vars := { s.vars with fetchUserComponentsGroup := s.vars.fetchUserComponentsGroup.enter }
    sent := s.sent ++ [.userImage userModel] }

/-- A value event passes no previous sibling, so the test of the block's second argument
against nil succeeds. -/
def onUsers (v : Vars) (value : Json) : State :=
  match value.dictDict? with
  | some users =>
    let s := users.entries.foldl forUser { vars := v }
    let (components, released) := s.vars.fetchUserComponentsGroup.notify .leaveUserGroup
    let (user, released') := s.vars.fetchUserGroup.notify .complete
    { s with
      vars := { s.vars with fetchUserComponentsGroup := components, fetchUserGroup := user }
      queued := s.queued ++ released ++ released' }
  | none => { vars := v, reported := [none] }

/-- The signed-in user is left out, as known when the picture arrives. -/
def onUserImage (session : Session) (v : Vars) (userModel : UserModel) (img : Download) :
    Except Trap State := do
  let userModel := match img with
    | .image img => { userModel with image := some img }
    | _ => userModel
  let array := if userModel.userId ≠ some (getCurrentUid session)
    then v.userInfoArray ++ [userModel] else v.userInfoArray
  let (group, released) ← v.fetchUserComponentsGroup.leave
  return {
    vars := { v with userInfoArray := array, fetchUserComponentsGroup := group }
    queued := released }

def reply (session : Session) (v : Vars) : (r : Request) → Answer r → Except Trap State
  | .users, value => .ok (onUsers v value)
  | .userImage userModel, img => onUserImage session v userModel img

def block (_ : Session) (v : Vars) : Block → Except Trap State
  | .leaveUserGroup => do
    let (group, released) ← v.fetchUserGroup.leave
    return { vars := { v with fetchUserGroup := group }, queued := released }
  | .complete => .ok { vars := v, reported := [some v.userInfoArray] }

end FetchAllUsers

abbrev fetchAllUsers : Program Session where
  Input := Unit
  Vars := FetchAllUsers.Vars
  Request := FetchAllUsers.Request
  Answer := FetchAllUsers.Answer
  Block := FetchAllUsers.Block
  Report := Option (List UserModel)
  start := FetchAllUsers.start
  reply := FetchAllUsers.reply
  block := FetchAllUsers.block

namespace FetchFriendList

inductive Request where
  | friends (uid : String)
  | record (friend : String)
  | userImage (userModel : UserModel)
  deriving DecidableEq

def Answer : Request → Type
  | .friends _ => Json
  | .record _ => Json
  | .userImage _ => Download

inductive Block where
  | complete
  deriving DecidableEq

structure Vars where
  friendArray : List UserModel := []
  friendListdispatchGroup : DispatchGroup Block := .new

abbrev State := Frame Vars Request Block (Option (List UserModel))

def start (session : Session) (_ : Unit) : Except Trap State :=
  .ok { vars := {}, sent := [.friends (getCurrentUid session)] }

/-- The notify block is registered inside the loop, once for each friend. -/
def forFriend (s : State) (friend : String × String) : State :=
  let entered := s.vars.friendListdispatchGroup.enter
  let (group, released) := entered.notify .complete
  { s with
    vars := { s.vars with friendListdispatchGroup := group }
    sent := s.sent ++ [.record friend.1]
    queued := s.queued ++ released }

def onFriends (v : Vars) (value : Json) : State :=
  match value.stringDict? with
  | some friends => friends.entries.foldl forFriend { vars := v }
  | none => { vars := v, reported := [none] }

/-- A friend without a record returns here, with the group still entered. -/
def onRecord (v : Vars) (friend : String) (value : Json) : State :=
  match value.dict? with
  | none => { vars := v }
  | some singleFriend =>
    { vars := v, sent := [.userImage (UserModel.decode friend singleFriend)] }

/-- Only a picture that decodes appends the friend and leaves the group. -/
def onUserImage (v : Vars) (userModel : UserModel) : Download → Except Trap State
  | .image img => do
    let (group, released) ← v.friendListdispatchGroup.leave
    return {
      vars := { friendArray := v.friendArray ++ [{ userModel with image := some img }]
                friendListdispatchGroup := group }
      queued := released }
  | _ => .ok { vars := v }

def reply (_ : Session) (v : Vars) : (r : Request) → Answer r → Except Trap State
  | .friends _, value => .ok (onFriends v value)
  | .record friend, value => .ok (onRecord v friend value)
  | .userImage userModel, img => onUserImage v userModel img

def block (_ : Session) (v : Vars) : Block → Except Trap State
  | .complete => .ok { vars := v, reported := [some v.friendArray] }

end FetchFriendList

abbrev fetchFriendList : Program Session where
  Input := Unit
  Vars := FetchFriendList.Vars
  Request := FetchFriendList.Request
  Answer := FetchFriendList.Answer
  Block := FetchFriendList.Block
  Report := Option (List UserModel)
  start := FetchFriendList.start
  reply := FetchFriendList.reply
  block := FetchFriendList.block

end SimpleSNS
