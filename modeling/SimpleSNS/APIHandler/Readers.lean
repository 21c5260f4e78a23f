import SimpleSNS.APIHandler.Pending
import SimpleSNS.APIHandler.Social

/-!
What the readers are served, in terms of the network that the store represents: a member's record
decodes to the profile last saved and the location signed up with, the friends and the posts are read
as they were left, and a picture that is found is the one uploaded last.
-/

namespace SimpleSNS
open Async

/-- The model that a reader builds of a member. -/
def Member.model (m : Member) (uid : String) : UserModel := SimpleSNS.profile uid m.profile m.signedUp

/-- There is nothing that a record could hold. -/
def Member.Blank (m : Member) : Prop :=
  (∀ field ∈ profileFields m.profile, field.2 = none) ∧ m.signedUp.latitude = none ∧
    m.signedUp.longitude = none ∧ m.friends = ∅ ∧ m.timeline = ∅

theorem str_nonnull {α : Type} (text : String) (_ : α) : Json.str text ≠ .null := fun same => nomatch same

theorem keySet_null {text : String} {s : Finset String} {j : Json}
    (table : Json.KeySet (.str text) s j) : j = .null ↔ s = ∅ := by
  rw [Json.Table.absent (str_nonnull text) table, Finset.eq_empty_iff_forall_notMem]
  exact forall_congr' fun _ => Json.listed_none

theorem Keeps.blank_iff {record : Json} {m : Member} (keeps : Keeps record m) :
    SimpleSNS.Blank m.profile m.signedUp record ↔ m.Blank := by
  unfold SimpleSNS.Blank Member.Blank
  rw [keySet_null keeps.friends, keySet_null keeps.timeline]

/-! ### Posts -/

theorem postFields_nodup (post : Post) :
    (([("Description", .str post.description), ("timeStamp", .num post.timeStamp),
      ("User Id", .str post.userId), ("isLike", .bool false)] : List (String × Json)).map Prod.fst).Nodup := by
  simp

/-- The dictionary that a post is read as. -/
def Post.dict (post : Post) : Dict Json where
  entries := [("Description", .str post.description), ("timeStamp", .num post.timeStamp),
    ("User Id", .str post.userId), ("isLike", .bool false)]
  unique := postFields_nodup post

theorem Post.record_dict (post : Post) : post.record.dict? = some post.dict := by
  unfold Post.record AddNewPost.postRecord Json.dict?
  exact dif_pos (postFields_nodup post)

theorem Post.record_nonnull (post : Post) : post.record ≠ .null := fun same => nomatch same

/-- A post as the loop of `fetchAllPost` shows it, before its lookups. -/
def Post.shown (post : Post) (postKey : String) : PostDetail where
  description := some post.description
  imageRef := some postKey
  timestamp := some post.timeStamp
  userId := some post.userId
  isLike := some false

namespace Stores

variable {w : Backend} {s : Social} (stores : Stores w s)
include stores

/-- The friends of a member are read as they were left; no friends are no dictionary. -/
theorem friends_read (uid : String) :
    (s.members uid).friends = ∅ ∧ (w.database.getChild (friendsPath uid)).stringDict? = none ∨
      ∃ d, (w.database.getChild (friendsPath uid)).stringDict? = some d ∧ d.entries ≠ [] ∧
        ∀ friendId, friendId ∈ d.keys ↔ friendId ∈ (s.members uid).friends := by
  have path : w.database.getChild (friendsPath uid) = (record w uid).getImmediateChild "FRIENDS" := by
    simp [friendsPath, userPath, record]
  rw [path]
  rcases (stores.members uid).friends.stringDict? with ⟨missing, empty⟩ | found
  · exact Or.inl ⟨empty, by rw [missing]; rfl⟩
  · exact Or.inr found

/-- A record decodes to the member's model, and a blank member has none. -/
theorem record_read (uid : String) :
    (s.members uid).Blank ∧ (record w uid).dict? = none ∨
      ¬ (s.members uid).Blank ∧ ∃ d, (record w uid).dict? = some d ∧
        UserModel.decode uid d = (s.members uid).model uid := by
  have keeps := stores.members uid
  have node := stores.users.record uid
  have missing_iff := (keeps.profile.null_iff node).trans keeps.blank_iff
  rcases node.dict? with ⟨missing, refused⟩ | ⟨d, cast, same⟩
  · exact Or.inl ⟨missing_iff.mp missing, refused⟩
  · refine Or.inr ⟨?_, d, cast, keeps.profile.decoded cast uid⟩
    intro blank
    rw [missing_iff.mpr blank] at cast
    cases cast

theorem firstName_read (uid : String) :
    Json.string? (w.database.getChild (userPath uid ++ ["First Name"])) =
      (s.members uid).profile.firstName := by
  have path : w.database.getChild (userPath uid ++ ["First Name"]) =
      (record w uid).getImmediateChild "First Name" := by
    simp [userPath, record]
  have stored := (stores.members uid).profile.fields "First Name" _ List.mem_cons_self
  rw [path, stored, string?_stored]

/-- The posts are read as a dictionary with exactly their keys; no posts are no dictionary. -/
theorem posts_read : (∀ postKey, s.posts postKey = none) ∧ (postNode w).dictDict? = none ∨
    ∃ d, (postNode w).dictDict? = some d ∧ d.entries ≠ [] ∧
      ∀ postKey, d.get? postKey = (s.posts postKey).map Post.dict := by
  rcases stores.posts.cast Post.record_nonnull Json.dict? Post.record_dict
    with ⟨missing, none_posted⟩ | found
  · exact Or.inl ⟨none_posted, by rw [missing]; rfl⟩
  · exact Or.inr found

end Stores

/-- A download finds what is stored, or fails. -/
theorem Backend.GetData.outcome {w w' : Backend} {name : String} {img : Download}
    (served : w.GetData name w' img) :
    (∃ shown, img = .image shown ∧ w.storage name = some shown) ∨ ∃ error, img = .failed error := by
  cases img with
  | image shown => exact Or.inl ⟨shown, rfl, served.2⟩
  | undecodable => exact served.elim
  | failed error => exact Or.inr ⟨error, rfl⟩

/-- A download of what was stored at some moment since `before`, or one that failed. -/
def Downloaded (labels before : List (Network.Label api)) (stored : Social → Option UIImage) (img : Download) :
    Prop :=
  ∃ seen, before <+: seen ∧ seen <+: labels ∧
    ((∃ shown, img = .image shown ∧ stored (after seen) = some shown) ∨ ∃ error, img = .failed error)

/-- In a run of a patient app, whatever a read may be answered while no write waits follows from the
commands performed so far: friends and posts are read exactly as they were left, a record decodes to the
profile saved last with the location signed up with, and each file is the picture uploaded last. -/
theorem store_reads {s : Network api Backend} {labels : List (Network.Label api)}
    (observed : Observed labels s) (acknowledged : Acknowledged s) :
    (∀ uid value, IsName uid → Reads s (friendsPath uid) value →
      ((after labels).members uid).friends = ∅ ∧ value.stringDict? = none ∨
        ∃ d, value.stringDict? = some d ∧ d.entries ≠ [] ∧
          ∀ friendId, friendId ∈ d.keys ↔ friendId ∈ ((after labels).members uid).friends) ∧
    (∀ uid value, IsName uid → Reads s (userPath uid) value →
      ((after labels).members uid).Blank ∧ value.dict? = none ∨
        ¬ ((after labels).members uid).Blank ∧ ∃ d, value.dict? = some d ∧
          UserModel.decode uid d = ((after labels).members uid).model uid) ∧
    (∀ uid value, IsName uid → Reads s (userPath uid ++ ["First Name"]) value →
      value.string? = ((after labels).members uid).profile.firstName) ∧
    (∀ value, Reads s ["POST"] value →
      (∀ postKey, (after labels).posts postKey = none) ∧ value.dictDict? = none ∨
        ∃ d, value.dictDict? = some d ∧ d.entries ≠ [] ∧
          ∀ postKey, d.get? postKey = ((after labels).posts postKey).map Post.dict) ∧
    (∀ uid, s.world.storage (userImageName uid) = (after labels).portraits uid) ∧
    (∀ postKey, s.world.storage (postImageName postKey) = (after labels).pictures postKey) := by
  obtain ⟨trace, keys⟩ := observed_trace observed
  have stores := trace_stores trace
  refine ⟨?_, ?_, ?_, ?_, stores.portraits, stores.pictures⟩
  · intro uid value named reads
    obtain rfl := reads.acknowledged acknowledged (friends_names named) keys
    exact stores.friends_read uid
  · intro uid value named reads
    obtain rfl := reads.acknowledged acknowledged (user_names named) keys
    exact stores.record_read uid
  · intro uid value named reads
    obtain rfl := reads.acknowledged acknowledged (below_names (user_names named) (by decide)) keys
    exact stores.firstName_read uid
  · intro value reads
    obtain rfl := reads.acknowledged acknowledged (by decide) keys
    exact stores.posts_read

/-- Ann befriends `v`, and that is what her friends are read as. -/
theorem store_reads_sample : ∃ (s : Network api Backend) (d : Dict String),
    (s.world.database.getChild (friendsPath "u")).stringDict? = some d ∧
      ∀ friendId, friendId ∈ d.keys ↔ friendId = "v" := by
  let opened : Network.Label api := .start (some sampleAccount) .addToFriendList "v"
  let written : Network.Label api := .call none 0 .addToFriendList (.serve ⟨"u", "v"⟩ none)
  let answered : Network.Label api := .call none 0 .addToFriendList (.deliver ⟨"u", "v"⟩ none)
  have started : Observed [opened] _ := .step (l := opened) .refl ⟨trivial, trivial⟩ (.start _ _ _ rfl)
  have patient : ∀ s, Answered s written ∧ Patient s written := by
    intro s
    refine ⟨?_, ?_, ?_⟩
    · intro path value read
      cases read
    · show ∀ id ∈ ["u", "v"], IsName id
      decide
    · intro read
      cases read
  have served : Observed [opened, written] _ :=
    .step (l := written) started (patient _)
      (.call 0 rfl (.serve _ (.refl _)) (serve_client (k := .addToFriendList) rfl))
  have told : Observed [opened, written, answered] _ :=
    .step (l := answered) served ⟨trivial, trivial⟩ (.call 0 rfl (.deliver (.refl _) rfl) rfl)
  have friends : ((after [opened, written, answered]).members "u").friends = {"v"} := rfl
  rcases (store_reads told rfl).1 "u" _ (by decide) (.store _) with ⟨empty, _⟩ | ⟨d, cast, _, keys⟩
  · rw [friends] at empty
    exact absurd empty (Finset.singleton_ne_empty "v")
  · refine ⟨_, d, cast, ?_⟩
    intro friendId
    rw [keys friendId, friends, Finset.mem_singleton]

end SimpleSNS
