import Mathlib.Data.Finset.Card
import SimpleSNS.APIHandler.Readers
import SimpleSNS.APIHandler.FriendJoin

/-!
The friend list from end to end: the friends an account had when they were read, each as that friend
had saved and signed up when its own record was read, with the portrait it had after that.
-/

namespace SimpleSNS.FetchFriendList
open Async

variable {s : Network api Backend} {labels : List (Network.Label api)} {i : Nat}
  {c : Call fetchFriendList}

/-- An entry of the list: the friend's own profile and portrait, both seen since `before`. -/
def Shows (labels before : List (Network.Label api)) (friend : String) (userModel : UserModel) : Prop :=
  ∃ seen shown img, before <+: seen ∧ seen <+: shown ∧ shown <+: labels ∧
    (after shown).portraits friend = some img ∧
    userModel = { ((after seen).members friend).model friend with image := some img }

end SimpleSNS.FetchFriendList
