import SimpleSNS.APIHandler.Readers
import SimpleSNS.APIHandler.PostFanIn
import SimpleSNS.APIHandler.Timelines

/-!
The feed from end to end. Whatever was published is stored with the uid it was published under, so
a call that reads the posts stops only on a post of nobody; and what a call hands over are the posts
as they were when `POST` was read.
-/

namespace SimpleSNS.FetchAllPost
open Async

/-- Every stored post is one that was published. -/
theorem stored_posts {w : Backend} {network : Social} (stores : Stores w network)
    {posts : Dict (Dict Json)} (cast : (postNode w).dictDict? = some posts) (postKey : String) :
    posts.get? postKey = (network.posts postKey).map Post.dict := by
  rcases stores.posts_read with ⟨_, refused⟩ | ⟨d, found, _, read⟩
  · rw [cast] at refused
    cases refused
  · rw [cast] at found
    obtain rfl := Option.some.inj found
    exact read postKey

theorem stored_post {w : Backend} {network : Social} (stores : Stores w network)
    {posts : Dict (Dict Json)} (cast : (postNode w).dictDict? = some posts)
    {entry : String × Dict Json} (listed : entry ∈ posts.entries) :
    ∃ post, network.posts entry.1 = some post ∧ entry = (entry.1, post.dict) := by
  have found : posts.get? entry.1 = some entry.2 := Dict.get?_some_iff.mpr listed
  rw [stored_posts stores cast] at found
  obtain ⟨post, published, same⟩ := Option.map_eq_some_iff.mp found
  exact ⟨post, published, Prod.ext rfl same.symm⟩

/-! ### One call -/

variable {s : Network api Backend} {labels : List (Network.Label api)} {i : Nat} {c : Call fetchAllPost}

/-- One entry of the feed: the post as it was published, a name that was the author's at some moment since
the posts were read, and the pictures that its own downloads have found. -/
structure Shows (labels before : List (Network.Label api)) (delivered : Replies fetchAllPost)
    (postKey : String) (post : Post) (x : UserPost) : Prop where
  postId : x.postId = some postKey
  detail : x.postDetail = { post.shown postKey with
    name := x.postDetail.name
    postUserImage := x.postDetail.postUserImage
    postImage := x.postDetail.postImage }
  name : ∃ seen, before <+: seen ∧ seen <+: labels ∧
    x.postDetail.name = ((after seen).members post.userId).profile.firstName
  portrait : ∃ img : Download, ⟨.postUserImage postKey post.userId, img⟩ ∈ delivered ∧
    x.postDetail.postUserImage = img.image? ∧
    Downloaded labels before (fun network => network.portraits post.userId) img
  picture : ∃ img : Download, ⟨.postImage postKey postKey, img⟩ ∈ delivered ∧
    x.postDetail.postImage = img.image? ∧
    Downloaded labels before (fun network => network.pictures postKey) img

end SimpleSNS.FetchAllPost
