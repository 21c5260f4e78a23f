import Mathlib.Data.List.Sort
import Mathlib.Logic.Function.Basic
import SimpleSNS.Async.Program
import SimpleSNS.Models

/-!
`fetchAllPost`: one read of `POST`, then three lookups for each post. One group counts the
lookups of all posts and gets one notify block per post; a second group counts those blocks.
The variable `postInfo` of an iteration is shared by the three callbacks and the notify block
of that iteration, so it is a box, named by the key of the post.
-/

namespace SimpleSNS.FetchAllPost
open Async

inductive Request where
  | posts
  | postUserName (post userId : String)
  | postUserImage (post userId : String)
  | postImage (post imageRef : String)
  deriving DecidableEq

def Answer : Request → Type
  | .posts => Json
  | .postUserName _ _ => Json
  | .postUserImage _ _ => Download
  | .postImage _ _ => Download

inductive Block where
  | appendPost (post : String)
  | complete
  deriving DecidableEq

structure Vars where
  dispatchGroup : DispatchGroup Block := .new
  postDispatchGroup : DispatchGroup Block := .new
  postInfoArray : List UserPost := []
  postInfo : String → PostDetail := fun _ => {}

abbrev State := Frame Vars Request Block (List UserPost)

/-- `postInfo` as the loop creates it. -/
def postDetail (post : String × Dict Json) : PostDetail :=
  { description := (post.2.get? "Description").bind Json.string?
    imageRef := some post.1
    like := none
    timestamp := (post.2.get? "timeStamp").bind Json.double?
    userId := (post.2.get? "User Id").bind Json.string?
    postImage := none
    postUserImage := none
    name := none
    isLike := (post.2.get? "isLike").bind Json.bool? }

/-- The newest post first; a post without a timestamp counts as 0. -/
def newer (x y : UserPost) : Bool :=
  decide ((y.postDetail.timestamp.getD 0) ≤ (x.postDetail.timestamp.getD 0))

def start (_ : Session) (_ : Unit) : Except Trap State :=
  .ok { vars := {}, sent := [.posts] }

def forPost (s : State) (post : String × Dict Json) : Except Trap State := do
  let v := { s.vars with
    postDispatchGroup := s.vars.postDispatchGroup.enter
    postInfo := Function.update s.vars.postInfo post.1 (postDetail post) }
  let v := { v with dispatchGroup := v.dispatchGroup.enter }
  let userId ← unwrap (v.postInfo post.1).userId
  userChild userId
  let v := { v with dispatchGroup := v.dispatchGroup.enter }
  let v := { v with dispatchGroup := v.dispatchGroup.enter }
  let imageRef ← unwrap (v.postInfo post.1).imageRef
  let (group, released) := v.dispatchGroup.notify (.appendPost post.1)
  return { s with
    vars := { v with dispatchGroup := group }
    sent := s.sent ++ [.postUserName post.1 userId, .postUserImage post.1 userId,
      .postImage post.1 imageRef]
    queued := s.queued ++ released }

def onPosts (v : Vars) (value : Json) : Except Trap State :=
  match value.dictDict? with
  | some posts => do
    let s ← posts.entries.foldlM forPost { vars := v }
    let (group, released) := s.vars.postDispatchGroup.notify .complete
    return { s with
      vars := { s.vars with postDispatchGroup := group }, queued := s.queued ++ released }
  | none => .ok { vars := v }

/-- Each lookup writes its own field of the box and leaves the group. -/
def onLookup (v : Vars) (post : String) (postInfo : PostDetail) : Except Trap State := do
  let (group, released) ← v.dispatchGroup.leave
  return {
    vars := { v with
      postInfo := Function.update v.postInfo post postInfo, dispatchGroup := group }
    queued := released }

def reply (_ : Session) (v : Vars) : (r : Request) → Answer r → Except Trap State
  | .posts, value => onPosts v value
  | .postUserName post _, name =>
    onLookup v post { v.postInfo post with name := Json.string? name }
  | .postUserImage post _, img =>
    onLookup v post { v.postInfo post with
      postUserImage := match img with
        | .failed _ => (v.postInfo post).postUserImage
        | img => img.image? }
  | .postImage post _, img =>
    onLookup v post { v.postInfo post with
      postImage := match img with
        | .failed _ => (v.postInfo post).postImage
        | img => img.image? }

def block (_ : Session) (v : Vars) : Block → Except Trap State
  | .appendPost post => do
    let currentPostInfo : UserPost := ⟨some post, v.postInfo post⟩
    let (group, released) ← v.postDispatchGroup.leave
    return {
      vars := { v with
        postInfoArray := v.postInfoArray ++ [currentPostInfo], postDispatchGroup := group }
      queued := released }
  | .complete =>
    let sorted := v.postInfoArray.mergeSort newer
    .ok { vars := { v with postInfoArray := sorted }, reported := [sorted] }

end FetchAllPost

/-- `completion` is given the list of posts. -/
abbrev fetchAllPost : Async.Program Session where
  Input := Unit
  Vars := FetchAllPost.Vars
  Request := FetchAllPost.Request
  Answer := FetchAllPost.Answer
  Block := FetchAllPost.Block
  Report := List UserPost
  start := FetchAllPost.start
  reply := FetchAllPost.reply
  block := FetchAllPost.block

end SimpleSNS
