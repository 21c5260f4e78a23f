import SimpleSNS.APIHandler.Handler

/-!
What a call of `fetchAllPost` goes through once `POST` has been read. While lookups are
outstanding the first group counts exactly them; the last one queues one block per post, the
second group counts the blocks that have not run, and the last of these queues the completion.
-/

namespace SimpleSNS.FetchAllPost
open Async

/-- The user whose name and picture are looked up for a post. -/
def author (post : String × Dict Json) : String := ((post.2.get? "User Id").bind Json.string?).getD ""

def lookups (post : String × Dict Json) : List Request :=
  [.postUserName post.1 (author post), .postUserImage post.1 (author post),
    .postImage post.1 post.1]

def allLookups (posts : List (String × Dict Json)) : List Request := posts.flatMap lookups

/-- The record names its author by a string that the database takes as a path. -/
def HasAuthor (post : String × Dict Json) : Prop :=
  ∃ userId, post.2.get? "User Id" = some (.str userId) ∧ FValidation.isValidPathString userId = true

theorem string?_some {value : Option Json} {s : String} (read : value.bind Json.string? = some s) :
    value = some (.str s) := by
  obtain ⟨j, rfl, cast⟩ := Option.bind_eq_some_iff.mp read
  cases j with
  | str s' => rw [Option.some.inj cast]
  | _ => cases cast

theorem author_of {post : String × Dict Json} {userId : String}
    (names : post.2.get? "User Id" = some (.str userId)) : author post = userId := by
  rw [author, names]
  rfl

theorem HasAuthor.userId {post : String × Dict Json} (has : HasAuthor post) :
    (postDetail post).userId = some (author post) ∧ FValidation.isValidPathString (author post) = true := by
  obtain ⟨userId, names, valid⟩ := has
  rw [author_of names]
  refine ⟨?_, valid⟩
  show (post.2.get? "User Id").bind Json.string? = some userId
  rw [names]
  rfl

theorem mem_lookups {post : String × Dict Json} {r : Request} :
    r ∈ lookups post ↔ r = .postUserName post.1 (author post) ∨
      r = .postUserImage post.1 (author post) ∨ r = .postImage post.1 post.1 := by
  simp [lookups]

theorem allLookups_length (posts : List (String × Dict Json)) :
    (allLookups posts).length = 3 * posts.length := by
  simp [allLookups, lookups, List.length_flatMap, Nat.mul_comm]

theorem lookups_apart {x y : String × Dict Json} (different : x.1 ≠ y.1) {r : Request}
    (member : r ∈ lookups x) : r ∉ lookups y := by
  rw [mem_lookups] at member ⊢
  rcases member with rfl | rfl | rfl <;> simp [different]

theorem allLookups_nodup {posts : List (String × Dict Json)}
    (unique : (posts.map Prod.fst).Nodup) : (Request.posts :: allLookups posts).Nodup := by
  rw [List.nodup_cons]
  refine ⟨?_, ?_⟩
  · intro member
    obtain ⟨post, _, found⟩ := List.mem_flatMap.mp member
    simp [mem_lookups] at found
  · induction posts with
    | nil => simp [allLookups]
    | cons post rest ih =>
      obtain ⟨fresh, unique⟩ := List.nodup_cons.mp unique
      show (lookups post ++ allLookups rest).Nodup
      rw [List.nodup_append']
      refine ⟨by simp [lookups], ih unique, ?_⟩
      intro r here later
      obtain ⟨other, member, found⟩ := List.mem_flatMap.mp later
      refine lookups_apart ?_ here found
      intro same
      exact fresh (same ▸ List.mem_map_of_mem member)

/-! ### The loop over the posts -/

/-- The loop has run over `posts` between `s` and `s'`. -/
structure Entered (s : State) (posts : List (String × Dict Json)) (s' : State) : Prop where
  count : s'.vars.dispatchGroup.count = s.vars.dispatchGroup.count + 3 * posts.length
  pending : s'.vars.dispatchGroup.pending =
    s.vars.dispatchGroup.pending ++ posts.map fun post => .appendPost post.1
  postCount : s'.vars.postDispatchGroup.count = s.vars.postDispatchGroup.count + posts.length
  postPending : s'.vars.postDispatchGroup.pending = s.vars.postDispatchGroup.pending
  array : s'.vars.postInfoArray = s.vars.postInfoArray
  info : (posts.map Prod.fst).Nodup →
    ∀ post ∈ posts, s'.vars.postInfo post.1 = postDetail post
  other : ∀ key, key ∉ posts.map Prod.fst → s'.vars.postInfo key = s.vars.postInfo key
  sent : s'.sent = s.sent ++ allLookups posts
  queued : s'.queued = s.queued
  reported : s'.reported = s.reported

theorem forPost_entered (s : State) {post : String × Dict Json} (has : HasAuthor post) :
    ∃ s', forPost s post = .ok s' ∧ Entered s [post] s' := by
  obtain ⟨known, valid⟩ := has.userId
  have ran : forPost s post = .ok
      { s with
        vars := { s.vars with
          postDispatchGroup := s.vars.postDispatchGroup.enter
          postInfo := Function.update s.vars.postInfo post.1 (postDetail post)
          dispatchGroup := (s.vars.dispatchGroup.enter.enter.enter.notify (.appendPost post.1)).1 }
        sent := s.sent ++ lookups post
        queued := s.queued ++
          (s.vars.dispatchGroup.enter.enter.enter.notify (.appendPost post.1)).2 } := by
    unfold forPost
    simp only [Function.update_self, known, unwrap_some, bind, Except.bind, lookups, userChild_valid valid]
    rfl
  have positive : 0 < s.vars.dispatchGroup.enter.enter.enter.count := by simp
  refine ⟨_, ran, ?_, ?_, ?_, rfl, rfl, ?_, ?_, ?_, ?_, rfl⟩
  · simp
  · simpa using DispatchGroup.notify_pending positive (.appendPost post.1)
  · rfl
  · intro _ x member
    obtain rfl := List.mem_singleton.mp member
    exact Function.update_self _ _ _
  · intro key absent
    exact Function.update_of_ne (by simpa using absent) _ _
  · simp [allLookups]
  · simp [DispatchGroup.notify_released positive]

theorem Entered.trans {s s₁ s₂ : State} {post : String × Dict Json}
    {rest : List (String × Dict Json)} (first : Entered s [post] s₁) (second : Entered s₁ rest s₂) :
    Entered s (post :: rest) s₂ := by
  refine ⟨?_, ?_, ?_, second.postPending.trans first.postPending, second.array.trans first.array,
    ?_, ?_, ?_, second.queued.trans first.queued, second.reported.trans first.reported⟩
  · rw [second.count, first.count]
    simp only [List.length_cons, List.length_nil]
    omega
  · rw [second.pending, first.pending, List.append_assoc]
    rfl
  · rw [second.postCount, first.postCount]
    simp only [List.length_cons, List.length_nil]
    omega
  · intro unique x member
    obtain ⟨fresh, unique⟩ := List.nodup_cons.mp unique
    rcases List.mem_cons.mp member with rfl | later
    · rw [second.other _ fresh]
      exact first.info (by simp) x (by simp)
    · exact second.info unique x later
  · intro key absent
    simp only [List.map_cons, List.mem_cons, not_or] at absent
    rw [second.other key absent.2]
    exact first.other key (by simpa using absent.1)
  · rw [second.sent, first.sent, List.append_assoc]
    simp [allLookups]

/-- The loop finishes when every post names its author. -/
theorem forPosts_entered (s : State) {posts : List (String × Dict Json)}
    (have_authors : ∀ post ∈ posts, HasAuthor post) :
    ∃ s', posts.foldlM forPost s = .ok s' ∧ Entered s posts s' := by
  induction posts generalizing s with
  | nil => exact ⟨s, rfl, by simp, by simp, by simp, rfl, rfl, by simp, by simp, by simp [allLookups], rfl, rfl⟩
  | cons post rest ih =>
    obtain ⟨s₁, ran, first⟩ := forPost_entered s (have_authors post List.mem_cons_self)
    obtain ⟨s₂, ran_rest, second⟩ := ih s₁ fun x member => have_authors x (List.mem_cons_of_mem _ member)
    refine ⟨s₂, ?_, first.trans second⟩
    rw [List.foldlM_cons, ran]
    exact ran_rest

theorem forPost_author {s s' : State} {post : String × Dict Json} (ran : forPost s post = .ok s') :
    HasAuthor post := by
  unfold forPost at ran
  cases known : (postDetail post).userId with
  | none =>
    simp only [Function.update_self, known] at ran
    cases ran
  | some userId =>
    simp only [Function.update_self, known, unwrap_some] at ran
    obtain ⟨_, unwrapped, ran⟩ := bind_ok.mp ran
    obtain rfl := Except.ok.inj unwrapped
    obtain ⟨_, named, _⟩ := bind_ok.mp ran
    exact ⟨userId, string?_some known, userChild_ok named⟩

/-- Conversely, a loop that finishes has met no post without an author. -/
theorem forPosts_authors {s s' : State} {posts : List (String × Dict Json)}
    (ran : posts.foldlM forPost s = .ok s') : ∀ post ∈ posts, HasAuthor post := by
  induction posts generalizing s with
  | nil => simp
  | cons post rest ih =>
    rw [List.foldlM_cons] at ran
    cases first : forPost s post with
    | error t => rw [first] at ran; cases ran
    | ok s₁ =>
      rw [first] at ran
      intro x member
      rcases List.mem_cons.mp member with rfl | later
      · exact forPost_author first
      · exact ih ran x later

/-! ### The callbacks of the lookups -/

/-- `postInfo` of one iteration with the answers delivered so far filled in. -/
def filled (delivered : Replies fetchAllPost) (post : String × Dict Json) : PostDetail :=
  { postDetail post with
    name := (answerTo delivered (.postUserName post.1 (author post))).bind Json.string?
    postUserImage :=
      (answerTo delivered (.postUserImage post.1 (author post))).bind Download.image?
    postImage := (answerTo delivered (.postImage post.1 post.1)).bind Download.image? }

/-- A post as the completion is given it: the fields of its own record, and the answers to its own lookups. -/
structure Delivered (delivered : Replies fetchAllPost) (post : String × Dict Json) (x : UserPost) : Prop where
  postId : x.postId = some post.1
  description : x.postDetail.description = (post.2.get? "Description").bind Json.string?
  imageRef : x.postDetail.imageRef = some post.1
  like : x.postDetail.like = none
  timestamp : x.postDetail.timestamp = (post.2.get? "timeStamp").bind Json.double?
  userId : x.postDetail.userId = some (author post)
  isLike : x.postDetail.isLike = (post.2.get? "isLike").bind Json.bool?
  name : x.postDetail.name =
    (answerTo delivered (.postUserName post.1 (author post))).bind Json.string?
  postUserImage : x.postDetail.postUserImage =
    (answerTo delivered (.postUserImage post.1 (author post))).bind Download.image?
  postImage : x.postDetail.postImage =
    (answerTo delivered (.postImage post.1 post.1)).bind Download.image?

theorem filled_delivered (delivered : Replies fetchAllPost) {post : String × Dict Json} (has : HasAuthor post) :
    Delivered delivered post ⟨some post.1, filled delivered post⟩ where
  postId := rfl
  description := rfl
  imageRef := rfl
  like := rfl
  timestamp := rfl
  userId := has.userId.1
  isLike := rfl
  name := rfl
  postUserImage := rfl
  postImage := rfl

theorem filled_nothing {delivered : Replies fetchAllPost} {post : String × Dict Json}
    (unanswered : ∀ r ∈ lookups post, r ∉ delivered.map Sigma.fst) :
    filled delivered post = postDetail post := by
  have none_of : ∀ r ∈ lookups post, answerTo delivered r = none :=
    fun r member => answerTo_eq_none.mpr (unanswered r member)
  have name := none_of (.postUserName post.1 (author post)) (by simp [lookups])
  have userImage := none_of (.postUserImage post.1 (author post)) (by simp [lookups])
  have image := none_of (.postImage post.1 post.1) (by simp [lookups])
  simp only [filled, name, userImage, image]
  rfl

theorem filled_other {delivered : Replies fetchAllPost} {post : String × Dict Json} {r : Request}
    (elsewhere : r ∉ lookups post) (a : Answer r) :
    filled (delivered ++ [⟨r, a⟩]) post = filled delivered post := by
  simp only [mem_lookups, not_or] at elsewhere
  obtain ⟨name, userImage, image⟩ := elsewhere
  simp only [filled, answerTo_append_other name, answerTo_append_other userImage,
    answerTo_append_other image]

/-- Each callback turns the box into the box with one more answer, and leaves the group. -/
theorem reply_lookup {e : Session} {v : Vars} {delivered : Replies fetchAllPost}
    {post : String × Dict Json} {r : Request} {a : Answer r} (member : r ∈ lookups post)
    (fresh : r ∉ delivered.map Sigma.fst) (info : v.postInfo post.1 = filled delivered post) :
    reply e v r a = onLookup v post.1 (filled (delivered ++ [⟨r, a⟩]) post) := by
  have unanswered := answerTo_eq_none.mpr fresh
  have answered := answerTo_append_self fresh a
  rcases mem_lookups.mp member with rfl | rfl | rfl
  · simp only [reply, info, filled, answered]
    rw [answerTo_append_other (by simp), answerTo_append_other (by simp)]
    rfl
  · simp only [reply, info, filled, answered, unanswered]
    rw [answerTo_append_other (by simp), answerTo_append_other (by simp)]
    cases a <;> rfl
  · simp only [reply, info, filled, answered, unanswered]
    rw [answerTo_append_other (by simp), answerTo_append_other (by simp)]
    cases a <;> rfl

/-! ### The phases of a call -/

/-- The post a notify block appends. -/
def postOf (info : String → PostDetail) (post : String × Dict Json) : UserPost :=
  ⟨some post.1, info post.1⟩

inductive Phase (c : Call fetchAllPost) (posts : List (String × Dict Json)) : Prop where
  | gathering (lookingUp : c.outstanding ≠ [])
      (count : c.vars.dispatchGroup.count = c.outstanding.length)
      (pending : c.vars.dispatchGroup.pending = posts.map fun post => .appendPost post.1)
      (postCount : c.vars.postDispatchGroup.count = posts.length)
      (postPending : c.vars.postDispatchGroup.pending = [.complete])
      (array : c.vars.postInfoArray = []) (queue : c.queue = []) (reports : c.reports = [])
  | appending (done rest : List (String × Dict Json)) (split : posts = done ++ rest)
      (more : rest ≠ []) (closed : c.outstanding = [])
      (postCount : c.vars.postDispatchGroup.count = rest.length)
      (postPending : c.vars.postDispatchGroup.pending = [.complete])
      (array : c.vars.postInfoArray = done.map (postOf c.vars.postInfo))
      (queue : c.queue = rest.map fun post => .appendPost post.1) (reports : c.reports = [])
  | completing (closed : c.outstanding = [])
      (array : c.vars.postInfoArray = posts.map (postOf c.vars.postInfo))
      (queue : c.queue = [.complete]) (reports : c.reports = [])
  | completed (closed : c.outstanding = []) (queue : c.queue = [])
      (reports : c.reports = [(posts.map (postOf c.vars.postInfo)).mergeSort newer])

/-- `POST` has been read as `posts`. -/
structure Gathered (c : Call fetchAllPost) (posts : Dict (Dict Json)) : Prop where
  authors : ∀ post ∈ posts.entries, HasAuthor post
  requests : c.requests.Perm (.posts :: allLookups posts.entries)
  info : ∀ post ∈ posts.entries, c.vars.postInfo post.1 = filled c.delivered post
  phase : Phase c posts.entries

inductive Progress (c : Call fetchAllPost) : Prop where
  | reading (vars : c.vars = {}) (requests : c.requests.Perm [.posts]) (delivered : c.delivered = [])
      (queue : c.queue = []) (reports : c.reports = [])
  | refused (value : Json) (delivered : c.delivered = [⟨.posts, value⟩])
      (cast : value.dictDict? = none) (requests : c.requests.Perm [.posts])
      (queue : c.queue = []) (reports : c.reports = [])
  | gathered (value : Json) (posts : Dict (Dict Json)) (delivered : ⟨.posts, value⟩ ∈ c.delivered)
      (cast : value.dictDict? = some posts) (gathered : Gathered c posts)

theorem Phase.served {c : Call fetchAllPost} {posts : List (String × Dict Json)} {r : Request}
    {rest : List Request} (a : Answer r) (sent : c.waiting.Perm (r :: rest))
    (phase : Phase c posts) : Phase (c.served rest r a) posts := by
  have same := Call.outstanding_served a sent
  cases phase with
  | gathering lookingUp count pending postCount postPending array queue reports =>
    exact .gathering (fun none => lookingUp (same.symm.trans (none ▸ .refl _)).eq_nil)
      (count.trans same.length_eq.symm) pending postCount postPending array queue reports
  | appending done rest split more closed postCount postPending array queue reports =>
    exact .appending done rest split more (same.trans (closed ▸ .refl _)).eq_nil postCount
      postPending array queue reports
  | completing closed array queue reports =>
    exact .completing (same.trans (closed ▸ .refl _)).eq_nil array queue reports
  | completed closed queue reports =>
    exact .completed (same.trans (closed ▸ .refl _)).eq_nil queue reports

theorem Gathered.unique {c : Call fetchAllPost} {posts : Dict (Dict Json)}
    (gathered : Gathered c posts) : c.requests.Nodup :=
  gathered.requests.nodup_iff.mpr (allLookups_nodup posts.unique)

theorem Gathered.pending_lookup {c : Call fetchAllPost} {posts : Dict (Dict Json)} {value : Json}
    (gathered : Gathered c posts) (read : ⟨.posts, value⟩ ∈ c.delivered) {r : Request}
    {a : Answer r} (arrived : ⟨r, a⟩ ∈ c.replies) : ∃ post ∈ posts.entries, r ∈ lookups post := by
  have sent := gathered.requests.mem_iff.mp (Call.reply_mem_requests arrived)
  have fresh := Call.reply_fresh gathered.unique arrived
  rcases List.mem_cons.mp sent with rfl | lookup
  · exact absurd (List.mem_map.mpr ⟨_, read, rfl⟩) fresh
  · obtain ⟨post, member, found⟩ := List.mem_flatMap.mp lookup
    exact ⟨post, member, found⟩

/-- While a reply is outstanding the call is gathering, and the group is not at zero. -/
theorem Phase.balanced {c : Call fetchAllPost} {posts : List (String × Dict Json)}
    (phase : Phase c posts) {r : Request} {a : Answer r} (arrived : ⟨r, a⟩ ∈ c.replies) :
    0 < c.vars.dispatchGroup.count := by
  have pending := Call.outstanding_ne_nil arrived
  cases phase with
  | gathering lookingUp count => exact count ▸ List.length_pos_iff.mpr lookingUp
  | appending _ _ _ _ closed => exact absurd closed pending
  | completing closed => exact absurd closed pending
  | completed closed => exact absurd closed pending

theorem Gathered.deliver {c c' : Call fetchAllPost} {posts : Dict (Dict Json)} {value : Json}
    (e : Session) {r : Request} {a : Answer r} {rest : Replies fetchAllPost}
    {f : fetchAllPost.Frame} (gathered : Gathered c posts)
    (read : ⟨.posts, value⟩ ∈ c.delivered) (arrived : c.replies.Perm (⟨r, a⟩ :: rest))
    (ran : reply e c.vars r a = .ok f) (next : c' = (c.took rest r a).absorb f) :
    Gathered c' posts := by
  have member : ⟨r, a⟩ ∈ c.replies := arrived.mem_iff.mpr List.mem_cons_self
  obtain ⟨post, listed, lookup⟩ := gathered.pending_lookup read member
  have fresh := Call.reply_fresh gathered.unique member
  rw [reply_lookup lookup fresh (gathered.info post listed)] at ran
  obtain ⟨group, released, left, shape⟩ :=
    DispatchGroup.leave_cases (gathered.phase.balanced member)
  cases gathered.phase with
  | appending done rest split more closed => exact absurd closed (Call.outstanding_ne_nil member)
  | completing closed => exact absurd closed (Call.outstanding_ne_nil member)
  | completed closed => exact absurd closed (Call.outstanding_ne_nil member)
  | gathering lookingUp count pending postCount postPending array queue reports =>
    unfold onLookup at ran
    rw [left] at ran
    obtain rfl := Except.ok.inj ran
    have fewer : c.outstanding.Perm (r :: c'.outstanding) := by
      rw [next]
      exact Call.deliver_outstanding arrived rfl
    have lower : c.outstanding.length = c'.outstanding.length + 1 := fewer.length_eq
    have delivered : c'.delivered = c.delivered ++ [⟨r, a⟩] := by rw [next]; rfl
    have info : c'.vars.postInfo = Function.update c.vars.postInfo post.1
        (filled (c.delivered ++ [⟨r, a⟩]) post) := by rw [next]; rfl
    refine ⟨gathered.authors, ?_, ?_, ?_⟩
    · rw [next]
      refine (Call.deliver_requests arrived _).trans ?_
      simpa using gathered.requests
    · intro x listed_x
      rw [info, delivered]
      by_cases key : x.1 = post.1
      · obtain rfl := Dict.eq_of_key listed_x listed key
        exact Function.update_self _ _ _
      · rw [Function.update_of_ne key, gathered.info x listed_x]
        exact (filled_other (lookups_apart (Ne.symm key) lookup) a).symm
    · have group_after : c'.vars.dispatchGroup = group := by rw [next]; rfl
      have post_group : c'.vars.postDispatchGroup = c.vars.postDispatchGroup := by rw [next]; rfl
      have array_after : c'.vars.postInfoArray = [] := by rw [next]; exact array
      have queue_after : c'.queue = released := by
        rw [next]
        show c.queue ++ released = released
        rw [queue, List.nil_append]
      have reports_after : c'.reports = [] := by
        rw [next]
        show c.reports ++ [] = []
        rw [reports, List.nil_append]
      rcases shape with ⟨one, rfl⟩ | ⟨rfl, left_count, more, kept⟩
      · have closed : c'.outstanding = [] := List.length_eq_zero_iff.mp (by omega)
        exact .appending [] posts.entries rfl (List.ne_nil_of_mem listed) closed
          (by rw [post_group, postCount]) (by rw [post_group, postPending]) array_after
          (queue_after.trans pending) reports_after
      · have unfinished : c'.outstanding ≠ [] := by
          intro closed
          rw [closed] at lower
          simp only [List.length_nil] at lower
          omega
        exact .gathering unfinished (by rw [group_after]; omega)
          (by rw [group_after, kept, pending]) (by rw [post_group, postCount])
          (by rw [post_group, postPending]) array_after queue_after reports_after

theorem Gathered.block {c c' : Call fetchAllPost} {posts : Dict (Dict Json)} (e : Session)
    {b : Block} {rest : List Block} {f : fetchAllPost.Frame} (gathered : Gathered c posts)
    (first : c.queue = b :: rest) (ran : FetchAllPost.block e c.vars b = .ok f)
    (next : c' = (c.popped rest).absorb f) : Gathered c' posts := by
  have delivered : c'.delivered = c.delivered := by rw [next]; rfl
  cases gathered.phase with
  | gathering _ _ _ _ _ _ queue => rw [queue] at first; cases first
  | completed _ queue => rw [queue] at first; cases first
  | completing closed array queue reports =>
    rw [queue] at first
    obtain ⟨rfl, rfl⟩ := List.cons.inj first
    obtain rfl := Except.ok.inj ran
    have info : c'.vars.postInfo = c.vars.postInfo := by rw [next]; rfl
    have requests : c'.outstanding = c.outstanding ∧ c'.requests = c.requests := by
      rw [next]
      exact Call.block_requests _ _ _ rfl
    refine ⟨gathered.authors, requests.2 ▸ gathered.requests, ?_, ?_⟩
    · intro post listed
      rw [info, delivered]
      exact gathered.info post listed
    · refine .completed (requests.1.trans closed) (by rw [next]; rfl) ?_
      rw [info, ← array, next]
      show c.reports ++ _ = _
      rw [reports]
      rfl
  | appending done more split nonempty closed postCount postPending array queue reports =>
    obtain ⟨post, later, rfl⟩ := List.exists_cons_of_ne_nil nonempty
    rw [queue, List.map_cons] at first
    obtain ⟨rfl, rfl⟩ := List.cons.inj first
    have positive : 0 < c.vars.postDispatchGroup.count := by
      rw [postCount, List.length_cons]
      omega
    obtain ⟨group, released, left, shape⟩ := DispatchGroup.leave_cases positive
    simp only [FetchAllPost.block, left] at ran
    obtain rfl := Except.ok.inj ran
    have info : c'.vars.postInfo = c.vars.postInfo := by rw [next]; rfl
    have group_after : c'.vars.postDispatchGroup = group := by rw [next]; rfl
    have requests : c'.outstanding = c.outstanding ∧ c'.requests = c.requests := by
      rw [next]
      exact Call.block_requests _ _ _ rfl
    have array_after : c'.vars.postInfoArray = (done ++ [post]).map (postOf c'.vars.postInfo) := by
      rw [info, List.map_append, ← array, next]
      rfl
    have reports_after : c'.reports = [] := by
      rw [next]
      show c.reports ++ [] = []
      rw [reports, List.nil_append]
    have queue_after : c'.queue = later.map (fun post => .appendPost post.1) ++ released := by
      rw [next]
      rfl
    have resplit : posts.entries = (done ++ [post]) ++ later := by
      rw [split, List.append_assoc]
      rfl
    rw [List.length_cons] at postCount
    refine ⟨gathered.authors, requests.2 ▸ gathered.requests, ?_, ?_⟩
    · intro x listed
      rw [info, delivered]
      exact gathered.info x listed
    · rcases shape with ⟨one, rfl⟩ | ⟨rfl, left_count, some_left, kept⟩
      · obtain rfl : later = [] := List.length_eq_zero_iff.mp (by omega)
        rw [List.append_nil] at resplit
        exact .completing (requests.1.trans closed) (resplit ▸ array_after)
          (queue_after.trans postPending) reports_after
      · have unfinished : later ≠ [] := by
          rintro rfl
          simp only [List.length_nil] at postCount
          omega
        exact .appending (done ++ [post]) later resplit unfinished (requests.1.trans closed)
          (by rw [group_after]; omega) (by rw [group_after, kept, postPending]) array_after
          (queue_after.trans (List.append_nil _)) reports_after

/-- A dictionary of posts is looped over; then the second group is given its block. -/
theorem onPosts_some {v : Vars} {value : Json} {posts : Dict (Dict Json)} {f : State}
    (cast : value.dictDict? = some posts) (ran : onPosts v value = .ok f) :
    (∀ post ∈ posts.entries, HasAuthor post) ∧
      ∃ s, Entered { vars := v } posts.entries s ∧ f = { s with
        vars := { s.vars with
          postDispatchGroup := (s.vars.postDispatchGroup.notify .complete).1 }
        queued := s.queued ++ (s.vars.postDispatchGroup.notify .complete).2 } := by
  unfold onPosts at ran
  simp only [cast] at ran
  obtain ⟨s, looped, same⟩ := bind_ok.mp ran
  have authors := forPosts_authors looped
  obtain ⟨s', looped', entered⟩ := forPosts_entered ({ vars := v } : State) authors
  obtain rfl := Except.ok.inj (looped.symm.trans looped')
  exact ⟨authors, s, entered, (Except.ok.inj same).symm⟩

theorem onPosts_progress {c c' : Call fetchAllPost} {value : Json}
    {rest : Replies fetchAllPost} {f : fetchAllPost.Frame} (vars : c.vars = {})
    (requests : c.requests.Perm [.posts]) (delivered : c.delivered = []) (queue : c.queue = [])
    (reports : c.reports = []) (arrived : c.replies.Perm (⟨.posts, value⟩ :: rest))
    (ran : onPosts c.vars value = .ok f) (next : c' = (c.took rest .posts value).absorb f) :
    Progress c' := by
  obtain ⟨delivered_after, requests_after, length_after⟩ :=
    Call.deliver_first requests delivered arrived f
  rw [← next] at delivered_after requests_after length_after
  have queue_after : c'.queue = f.queued := by
    rw [next]
    show c.queue ++ f.queued = _
    rw [queue, List.nil_append]
  have reports_after : c'.reports = f.reported := by
    rw [next]
    show c.reports ++ f.reported = _
    rw [reports, List.nil_append]
  have vars_after : c'.vars = f.vars := by rw [next]; rfl
  rw [vars] at ran
  cases cast : value.dictDict? with
  | none =>
    unfold onPosts at ran
    rw [cast] at ran
    obtain rfl := Except.ok.inj ran
    exact .refused value delivered_after cast requests_after queue_after reports_after
  | some posts =>
    obtain ⟨authors, s, entered, rfl⟩ := onPosts_some cast ran
    have lookups_sent : s.sent = allLookups posts.entries := entered.sent
    have nothing_queued : s.queued = [] := entered.queued
    have nothing_reported : s.reported = [] := entered.reported
    have post_count : s.vars.postDispatchGroup.count = posts.entries.length := by
      rw [entered.postCount]
      exact Nat.zero_add _
    have post_pending : s.vars.postDispatchGroup.pending = [] := entered.postPending
    have info_after : c'.vars.postInfo = s.vars.postInfo := by rw [vars_after]
    rw [lookups_sent] at requests_after length_after
    rw [allLookups_length] at length_after
    refine .gathered value posts (delivered_after ▸ List.mem_cons_self) cast
      ⟨authors, requests_after, ?_, ?_⟩
    · intro post listed
      rw [info_after, delivered_after, entered.info posts.unique post listed]
      refine (filled_nothing ?_).symm
      intro r lookup
      rcases mem_lookups.mp lookup with rfl | rfl | rfl <;> simp
    · by_cases none_posted : posts.entries = []
      · have zero : s.vars.postDispatchGroup.count = 0 := by rw [post_count, none_posted, List.length_nil]
        have closed : c'.outstanding = [] :=
          List.length_eq_zero_iff.mp (by rw [length_after, none_posted, List.length_nil])
        rw [DispatchGroup.notify_zero zero] at queue_after vars_after
        refine .completing closed ?_ ?_ (reports_after.trans nothing_reported)
        · rw [vars_after, none_posted]
          exact entered.array
        · rw [queue_after]
          show s.queued ++ [Block.complete] = _
          rw [nothing_queued]
          rfl
      · have some_posted : 0 < posts.entries.length := List.length_pos_iff.mpr none_posted
        have positive : 0 < s.vars.postDispatchGroup.count := by omega
        refine .gathering ?_ ?_ ?_ ?_ ?_ ?_ ?_ (reports_after.trans nothing_reported)
        · intro closed
          rw [closed] at length_after
          simp only [List.length_nil] at length_after
          omega
        · rw [vars_after, length_after]
          exact entered.count.trans (Nat.zero_add _)
        · rw [vars_after]
          exact entered.pending
        · rw [vars_after]
          exact (DispatchGroup.notify_count _ _).trans post_count
        · rw [vars_after]
          refine (DispatchGroup.notify_pending positive _).trans ?_
          rw [post_pending]
          rfl
        · rw [vars_after]
          exact entered.array
        · rw [queue_after]
          show s.queued ++ _ = _
          rw [nothing_queued, DispatchGroup.notify_released positive]
          rfl

theorem step_progress {c c' : Call fetchAllPost} {e : Session} {ev : Call.Event fetchAllPost}
    (progress : Progress c) (stepped : c.Step e ev c') : Progress c' := by
  cases stepped with
  | @serve r rest a sent =>
    cases progress with
    | reading vars requests delivered queue reports =>
      exact .reading vars ((Call.requests_served a sent).trans requests) delivered queue reports
    | refused value delivered cast requests queue reports =>
      exact .refused value delivered cast ((Call.requests_served a sent).trans requests) queue reports
    | gathered value posts read cast gathered =>
      exact .gathered value posts read cast ⟨gathered.authors,
        (Call.requests_served a sent).trans gathered.requests, gathered.info,
        gathered.phase.served a sent⟩
  | @deliver r a rest f arrived ran =>
    have member : ⟨r, a⟩ ∈ c.replies := arrived.mem_iff.mpr List.mem_cons_self
    have sent : r ∈ c.requests := Call.reply_mem_requests member
    cases progress with
    | reading vars requests delivered queue reports =>
      obtain rfl := List.mem_singleton.mp (requests.mem_iff.mp sent)
      exact onPosts_progress vars requests delivered queue reports arrived ran rfl
    | refused value delivered cast requests queue reports =>
      have fresh := Call.reply_fresh (requests.nodup_iff.mpr (by simp)) member
      obtain rfl := List.mem_singleton.mp (requests.mem_iff.mp sent)
      rw [delivered] at fresh
      exact absurd (by simp) fresh
    | gathered value posts read cast gathered =>
      exact .gathered value posts (List.mem_append_left _ read) cast
        (gathered.deliver e read arrived ran rfl)
  | @block b rest f first ran =>
    cases progress with
    | reading vars requests delivered queue reports => rw [queue] at first; cases first
    | refused value delivered cast requests queue reports => rw [queue] at first; cases first
    | gathered value posts read cast gathered =>
      exact .gathered value posts read cast (gathered.block e first ran rfl)

theorem reachable_progress {A : Session → Call fetchAllPost → Call.Event fetchAllPost → Prop}
    {c : Call fetchAllPost} (reachable : c.Reachable A) : Progress c := by
  induction reachable with
  | start ran =>
    obtain rfl := Except.ok.inj ran
    exact .reading rfl (.refl _) rfl rfl rfl
  | step _ _ stepped ih => exact step_progress ih stepped

/-! ### What stops a call -/

theorem onPosts_ok {v : Vars} {value : Json} {posts : Dict (Dict Json)}
    (cast : value.dictDict? = some posts) (authors : ∀ post ∈ posts.entries, HasAuthor post) :
    ∃ s, onPosts v value = .ok s := by
  obtain ⟨s, looped, _⟩ := forPosts_entered ({ vars := v } : State) authors
  simp only [onPosts, cast, looped]
  exact ⟨_, rfl⟩

/-- No group is ever left at zero: a call stops only on a post without an author. -/
theorem traps_cause {c : Call fetchAllPost} (progress : Progress c) {e : Session} {t : Trap}
    (trapped : c.Traps e t) :
    ∃ value posts, ⟨.posts, value⟩ ∈ c.replies ∧ value.dictDict? = some posts ∧
      ∃ post ∈ posts.entries, ¬ HasAuthor post := by
  cases trapped with
  | @deliver r a arrived ran =>
    have sent : r ∈ c.requests := Call.reply_mem_requests arrived
    cases progress with
    | reading vars requests delivered queue reports =>
      obtain rfl := List.mem_singleton.mp (requests.mem_iff.mp sent)
      cases cast : Json.dictDict? a with
      | none => simp only [reply, onPosts, cast] at ran; cases ran
      | some posts =>
        refine ⟨a, posts, arrived, cast, ?_⟩
        by_contra none_missing
        have authors : ∀ post ∈ posts.entries, HasAuthor post := by
          intro post listed
          by_contra missing
          exact none_missing ⟨post, listed, missing⟩
        obtain ⟨s, fine⟩ := onPosts_ok (v := c.vars) cast authors
        exact absurd (fine.symm.trans ran) (by simp)
    | refused value delivered cast requests queue reports =>
      have fresh := Call.reply_fresh (requests.nodup_iff.mpr (by simp)) arrived
      obtain rfl := List.mem_singleton.mp (requests.mem_iff.mp sent)
      rw [delivered] at fresh
      exact absurd (by simp) fresh
    | gathered value posts read cast gathered =>
      obtain ⟨post, listed, lookup⟩ := gathered.pending_lookup read arrived
      have fresh := Call.reply_fresh gathered.unique arrived
      obtain ⟨group, released, left, _⟩ :=
        DispatchGroup.leave_cases (gathered.phase.balanced arrived)
      have stopped : reply e c.vars r a = .error t := ran
      rw [reply_lookup lookup fresh (gathered.info post listed), onLookup, left] at stopped
      cases stopped
  | @block b rest first ran =>
    cases progress with
    | reading vars requests delivered queue reports => rw [queue] at first; cases first
    | refused value delivered cast requests queue reports => rw [queue] at first; cases first
    | gathered value posts read cast gathered =>
      cases gathered.phase with
      | gathering _ _ _ _ _ _ queue => rw [queue] at first; cases first
      | completed _ queue => rw [queue] at first; cases first
      | completing closed array queue reports =>
        rw [queue] at first
        obtain ⟨rfl, rfl⟩ := List.cons.inj first
        cases ran
      | appending done more split nonempty closed postCount postPending array queue reports =>
        obtain ⟨post, later, rfl⟩ := List.exists_cons_of_ne_nil nonempty
        rw [queue, List.map_cons] at first
        obtain ⟨rfl, rfl⟩ := List.cons.inj first
        have positive : 0 < c.vars.postDispatchGroup.count := by
          rw [postCount, List.length_cons]
          omega
        obtain ⟨group, released, left, _⟩ := DispatchGroup.leave_cases positive
        have stopped : FetchAllPost.block e c.vars (.appendPost post.1) = .error t := ran
        simp only [FetchAllPost.block, left] at stopped
        cases stopped

theorem newer_trans (x y z : UserPost) (xy : newer x y = true) (yz : newer y z = true) :
    newer x z = true := by
  simp only [newer, decide_eq_true_eq] at *
  exact Rat.le_trans yz xy

theorem newer_total (x y : UserPost) : (newer x y || newer y x) = true := by
  simp only [newer, Bool.or_eq_true, decide_eq_true_eq]
  exact Rat.le_total

theorem Gathered.read_eq {c : Call fetchAllPost} {posts : Dict (Dict Json)} {value value' : Json}
    (gathered : Gathered c posts) (read : ⟨.posts, value⟩ ∈ c.delivered)
    (read' : ⟨.posts, value'⟩ ∈ c.answers) : value = value' :=
  Call.answer_eq gathered.unique (List.mem_append_right _ read) read'

theorem Progress.unique {c : Call fetchAllPost} (progress : Progress c) : c.requests.Nodup := by
  cases progress with
  | reading _ requests => exact requests.nodup_iff.mpr (by simp)
  | refused _ _ _ requests => exact requests.nodup_iff.mpr (by simp)
  | gathered _ _ _ _ gathered => exact gathered.unique

/-- Once every callback has run and the queue is empty, the completion has been called with
the filled-in posts, the newest first. -/
theorem Gathered.finished {c : Call fetchAllPost} {posts : Dict (Dict Json)}
    (gathered : Gathered c posts) (closed : c.outstanding = []) (drained : c.queue = []) :
    ∃ list, c.reports = [list] ∧
      list.Perm (posts.entries.map fun post => ⟨some post.1, filled c.delivered post⟩) ∧
      list.Pairwise (fun x y =>
        y.postDetail.timestamp.getD 0 ≤ x.postDetail.timestamp.getD 0) := by
  cases gathered.phase with
  | gathering lookingUp => exact absurd closed lookingUp
  | completing _ _ queue => rw [queue] at drained; cases drained
  | appending done rest split more _ _ _ _ queue =>
    rw [queue] at drained
    exact absurd (List.map_eq_nil_iff.mp drained) more
  | completed _ _ reports =>
    have boxes : posts.entries.map (postOf c.vars.postInfo) =
        posts.entries.map fun post => ⟨some post.1, filled c.delivered post⟩ := by
      apply List.map_congr_left
      intro post listed
      rw [postOf, gathered.info post listed]
    refine ⟨_, reports, ?_, ?_⟩
    · rw [← boxes]
      exact List.mergeSort_perm _ _
    · have sorted := List.pairwise_mergeSort newer_trans newer_total
        (posts.entries.map (postOf c.vars.postInfo))
      apply sorted.imp
      intro x y first
      simpa [newer] using first

theorem Gathered.reports_once {c : Call fetchAllPost} {posts : Dict (Dict Json)}
    (gathered : Gathered c posts) :
    c.reports = [] ∨ c.reports.length = 1 ∧ c.outstanding = [] := by
  cases gathered.phase with
  | gathering _ _ _ _ _ _ _ reports => exact Or.inl reports
  | appending _ _ _ _ _ _ _ _ _ reports => exact Or.inl reports
  | completing _ _ _ reports => exact Or.inl reports
  | completed closed _ reports => exact Or.inr ⟨by rw [reports]; rfl, closed⟩

/-- When no request is outstanding, every lookup of every post has been answered. -/
theorem Gathered.answered {c : Call fetchAllPost} {posts : Dict (Dict Json)}
    (gathered : Gathered c posts) (closed : c.outstanding = []) {post : String × Dict Json}
    (listed : post ∈ posts.entries) {r : Request} (lookup : r ∈ lookups post) :
    ∃ a, answerTo c.delivered r = some a := by
  have sent : r ∈ c.requests := gathered.requests.mem_iff.mpr
    (List.mem_cons_of_mem _ (List.mem_flatMap.mpr ⟨post, listed, lookup⟩))
  rw [Call.requests, closed, List.nil_append] at sent
  cases known : answerTo c.delivered r with
  | some a => exact ⟨a, rfl⟩
  | none => exact absurd sent (answerTo_eq_none.mp known)

/-- For any services and any other calls on the device: a call that reads posts with authors
never stops, and completes once, after the last lookup, with each post once, its record and its answers. -/
theorem fetchAllPost_fan_in {W : Type} {S : Service api W} {w : W} {session : Session}
    {d : Device api W} (run : Device.Run S Network.AnyLabel (.boot w session) d) {i : Nat}
    {c : Call fetchAllPost} (found : d.network.calls[i]? = some ⟨.fetchAllPost, c⟩) {value : Json}
    {posts : Dict (Dict Json)} (read : ⟨.posts, value⟩ ∈ c.answers)
    (cast : value.dictDict? = some posts) (authors : ∀ post ∈ posts.entries, HasAuthor post) :
    (∀ e t, ¬ c.Traps e t) ∧
    c.reports.length ≤ 1 ∧
    (c.reports ≠ [] → c.outstanding = [] ∧
      ∀ post ∈ posts.entries, ∀ r ∈ lookups post, r ∈ c.delivered.map Sigma.fst) ∧
    (c.outstanding = [] → d.order = [] →
      ∃ list, c.reports = [list] ∧
        (list.map UserPost.postId).Perm (posts.entries.map fun post => some post.1) ∧
        (∀ x ∈ list, ∃ post ∈ posts.entries, Delivered c.delivered post x) ∧
        list.Pairwise (fun x y =>
          y.postDetail.timestamp.getD 0 ≤ x.postDetail.timestamp.getD 0) ∧
        ∀ post ∈ posts.entries, ∀ r ∈ lookups post, ∃ a, answerTo c.delivered r = some a) := by
  have progress : Progress c :=
    reachable_progress (A := Call.AnyStep) (run.call_reachable (fun _ _ _ _ _ _ _ => trivial) found)
  have total : ∀ e t, ¬ c.Traps e t := by
    intro e t trapped
    obtain ⟨value', posts', arrived, cast', post, listed, missing⟩ := traps_cause progress trapped
    obtain rfl := Call.answer_eq progress.unique read (List.mem_append_left _ arrived)
    obtain rfl := Option.some.inj (cast.symm.trans cast')
    exact missing (authors post listed)
  refine ⟨total, ?_⟩
  cases progress with
  | reading vars requests delivered queue reports =>
    refine ⟨by simp [reports], fun some_report => absurd reports some_report, ?_⟩
    intro closed
    exact absurd closed (Call.unanswered requests delivered)
  | refused value' delivered cast' requests queue reports =>
    obtain rfl := Call.answer_eq (requests.nodup_iff.mpr (by simp)) read
      (List.mem_append_right _ (delivered ▸ List.mem_cons_self))
    rw [cast'] at cast
    cases cast
  | gathered value' posts' read' cast' gathered =>
    obtain rfl := gathered.read_eq read' read
    obtain rfl := Option.some.inj (cast.symm.trans cast')
    refine ⟨?_, ?_, ?_⟩
    · rcases gathered.reports_once with none_yet | ⟨one, _⟩
      · simp [none_yet]
      · exact one.le
    · intro reported
      rcases gathered.reports_once with none_yet | ⟨_, closed⟩
      · exact absurd none_yet reported
      · refine ⟨closed, fun post listed r lookup => ?_⟩
        obtain ⟨a, known⟩ := gathered.answered closed listed lookup
        exact List.mem_map_of_mem (answerTo_mem known)
    · intro closed drained
      obtain ⟨list, reports, all, sorted⟩ := gathered.finished closed (run.drained drained found)
      refine ⟨list, reports, ?_, ?_, sorted, fun post listed r lookup => gathered.answered closed listed lookup⟩
      · have ids := all.map UserPost.postId
        rwa [List.map_map] at ids
      · intro x member
        obtain ⟨post, listed, rfl⟩ := List.mem_map.mp (all.mem_iff.mp member)
        exact ⟨post, listed, filled_delivered c.delivered (authors post listed)⟩

/-- Two posts by one author; only the first has a picture, and the author has none. -/
def sampleStore : Backend where
  database := .obj [
    ("POST", .obj [
      ("p", .obj [("Description", .str "first"), ("timeStamp", .num 1), ("User Id", .str "u")]),
      ("q", .obj [("Description", .str "second"), ("User Id", .str "u")])]),
    ("USER", .obj [("u", .obj [("First Name", .str "Ann")])])]
  storage := fun name => if name = "Posts/p.png" then some ⟨[1]⟩ else none

def sampleDict : Dict (Dict Json) where
  entries := [
    ("p", ⟨[("Description", .str "first"), ("timeStamp", .num 1), ("User Id", .str "u")], by simp⟩),
    ("q", ⟨[("Description", .str "second"), ("User Id", .str "u")], by simp⟩)]
  unique := by simp

def sampleSchedule : List (Device.Choice backend) :=
  let respond := policy true sampleAccount
  [.start .fetchAllPost (), .serve 0 0 respond, .deliver 0 0] ++
    (List.replicate 6 [.serve 0 0 respond, .deliver 0 0]).flatten ++ [.block, .block, .block]

theorem fetchAllPost_fan_in_sample :
    ∃ (d : Device api Backend) (c : Call fetchAllPost) (list : List UserPost),
      Device.Run backend Network.AnyLabel (.boot sampleStore none) d ∧
      d.network.calls[0]? = some ⟨.fetchAllPost, c⟩ ∧ c.outstanding = [] ∧ d.order = [] ∧
      c.reports = [list] ∧ list.length = 2 := by
  have ran : ((Device.boot sampleStore none).exec Network.AnyLabel sampleSchedule).isSome := rfl
  have run := Device.exec_run (Option.some_get ran).symm
  have found : (Option.get _ ran).network.calls[0]? = some ⟨.fetchAllPost, _⟩ := rfl
  have authors : ∀ post ∈ sampleDict.entries, HasAuthor post := by
    intro post listed
    simp only [sampleDict, List.mem_cons, List.not_mem_nil, or_false] at listed
    rcases listed with rfl | rfl <;> exact ⟨"u", rfl, by decide⟩
  have cast : (sampleStore.database.getChild ["POST"]).dictDict? = some sampleDict := rfl
  have fan_in := fetchAllPost_fan_in run found (List.mem_append_right _ List.mem_cons_self) cast authors
  obtain ⟨list, reports, ids, _⟩ := fan_in.2.2.2 rfl rfl
  have count := ids.length_eq
  rw [List.length_map] at count
  exact ⟨_, _, list, run, found, rfl, rfl, reports, count⟩

/-- A post whose author has no uid stops the call before its lookups are sent. -/
theorem fetchAllPost_raises :
    ¬ ∀ (w : Backend) (d : Device api Backend) (c : Call fetchAllPost) (value : Json) (posts : Dict (Dict Json)),
      Device.Run backend Network.AnyLabel (.boot w none) d → d.network.calls[0]? = some ⟨.fetchAllPost, c⟩ →
      ⟨.posts, value⟩ ∈ c.answers → value.dictDict? = some posts →
      (∀ post ∈ posts.entries, ∃ userId, post.2.get? "User Id" = some (.str userId)) →
      ∀ e t, ¬ c.Traps e t := by
  intro never
  let post : String × Dict Json := ("p", ⟨[("User Id", .str "")], by simp⟩)
  let store : Backend := { database := .obj [("POST", .obj [("p", .obj post.2.entries)])] }
  let schedule : List (Device.Choice backend) := [.start .fetchAllPost (), .serve 0 0 (policy true sampleAccount)]
  have ran : ((Device.boot store none).exec Network.AnyLabel schedule).isSome := rfl
  have run := Device.exec_run (Option.some_get ran).symm
  have found : (Option.get _ ran).network.calls[0]? = some ⟨.fetchAllPost, _⟩ := rfl
  have named : ∀ x ∈ [post], ∃ userId, x.2.get? "User Id" = some (.str userId) := by
    intro x listed
    obtain rfl := List.mem_singleton.mp listed
    exact ⟨"", rfl⟩
  refine never store _ _ _ ⟨[post], List.nodup_singleton _⟩ run found List.mem_cons_self rfl named none
    (.invalidPath "") (.deliver List.mem_cons_self rfl)

end SimpleSNS.FetchAllPost
