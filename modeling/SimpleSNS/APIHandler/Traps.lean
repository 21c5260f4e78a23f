import SimpleSNS.APIHandler.Feed
import SimpleSNS.APIHandler.FriendFanIn
import SimpleSNS.APIHandler.UserSessions

/-!
What stops the program once a call of the handler has started. Every group is entered before it is
left, in any session; what is left are the unwrapped JPEG data of a picture, and the paths that the
database raises for.
-/

namespace SimpleSNS
open Async

namespace AddNewPost

/-- The group has been entered for every half that is still to be answered. -/
def Entered (c : Call addNewPost) : Prop :=
  c.outstanding.countP isHalf ≤ c.vars.postDispatchGroup.count

variable {c c' : Call addNewPost} {e : Session}

end AddNewPost

end SimpleSNS
