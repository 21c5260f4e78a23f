import SimpleSNS.APIHandler.Readers
import SimpleSNS.APIHandler.UserSessions

/-!
The list of all users from end to end: whoever had anything stored when `USER` was read, without the
account that looks.
-/

namespace SimpleSNS.FetchAllUsers
open Async

variable {s : Network api Backend} {labels : List (Network.Label api)} {i : Nat}
  {c : Call fetchAllUsers} {uid : String}

/-- An entry of the list: a member as it was when the users were read, with the portrait that its own
download has found since. -/
structure Shows (labels before : List (Network.Label api)) (delivered : Replies fetchAllUsers)
    (uid : String) (userModel : UserModel) : Prop where
  model : userModel = { ((after before).members uid).model uid with image := userModel.image }
  portrait : ∃ (requested : UserModel) (img : Download), requested.userId = some uid ∧
    ⟨.userImage requested, img⟩ ∈ delivered ∧ userModel.image = img.image? ∧
    Downloaded labels before (fun network => network.portraits uid) img

end SimpleSNS.FetchAllUsers
