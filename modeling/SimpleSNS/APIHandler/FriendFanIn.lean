import SimpleSNS.APIHandler.Handler

/-!
What a call of `fetchFriendList` goes through once the friends have been read. The group counts
the friends without a picture; it holds one notify block per friend, all released together by
the last picture that decodes, or never.
-/

namespace SimpleSNS.FetchFriendList
open Async

/-- The request for a friend's picture, when the friend has a record. -/
def picture (friend : String) (value : Json) : List Request :=
  match value.dict? with
  | some singleFriend => [.userImage (UserModel.decode friend singleFriend)]
  | none => []

/-- What a picture appends to the array. -/
def appended (userModel : UserModel) (img : Download) : List UserModel :=
  match img.image? with
  | some img => [{ userModel with image := some img }]
  | none => []

/-- The request that an answer leads to. -/
def leadsTo : (r : Request) → Answer r → List Request
  | .friends _, _ => []
  | .record friend, value => picture friend value
  | .userImage _, _ => []

/-- What an answer appends to the array. -/
def appends : (r : Request) → Answer r → List UserModel
  | .friends _, _ => []
  | .record _, _ => []
  | .userImage userModel, img => appended userModel img

def asked (delivered : Replies fetchFriendList) : List Request :=
  delivered.flatMap fun answered => leadsTo answered.1 answered.2

def listed (delivered : Replies fetchFriendList) : List UserModel :=
  delivered.flatMap fun answered => appends answered.1 answered.2

theorem asked_append (delivered : Replies fetchFriendList) (r : Request) (a : Answer r) :
    asked (delivered ++ [⟨r, a⟩]) = asked delivered ++ leadsTo r a := by
  simp [asked]

theorem listed_append (delivered : Replies fetchFriendList) (r : Request) (a : Answer r) :
    listed (delivered ++ [⟨r, a⟩]) = listed delivered ++ appends r a := by
  simp [listed]

/-- A friend whose record and picture both arrived. -/
def Healthy (delivered : Replies fetchFriendList) (friend : String) : Prop :=
  ∃ (value : Json) (singleFriend : Dict Json) (img : UIImage),
    ⟨.record friend, value⟩ ∈ delivered ∧ value.dict? = some singleFriend ∧
      ⟨.userImage (UserModel.decode friend singleFriend), Download.image img⟩ ∈ delivered

theorem mem_picture {friend : String} {value : Json} {r : Request} (member : r ∈ picture friend value) :
    ∃ singleFriend, value.dict? = some singleFriend ∧
      r = .userImage (UserModel.decode friend singleFriend) := by
  unfold picture at member
  cases cast : value.dict? with
  | none => rw [cast] at member; cases member
  | some singleFriend =>
    rw [cast] at member
    exact ⟨singleFriend, rfl, List.mem_singleton.mp member⟩

/-- A requested picture belongs to a friend whose record has been delivered. -/
theorem mem_asked {delivered : Replies fetchFriendList} {r : Request} (member : r ∈ asked delivered) :
    ∃ friend value singleFriend, ⟨.record friend, value⟩ ∈ delivered ∧
      Json.dict? value = some singleFriend ∧
      r = .userImage (UserModel.decode friend singleFriend) := by
  obtain ⟨⟨r', a⟩, arrived, led⟩ := List.mem_flatMap.mp member
  cases r' with
  | friends uid => cases led
  | userImage userModel => cases led
  | record friend =>
    obtain ⟨singleFriend, cast, rfl⟩ := mem_picture led
    exact ⟨friend, a, singleFriend, arrived, cast, rfl⟩

/-! ### Counting -/

def isRecord : Request → Bool
  | .record _ => true
  | _ => false

def isPicture : Request → Bool
  | .userImage _ => true
  | _ => false

theorem picture_counts (friend : String) (value : Json) :
    (picture friend value).countP isPicture = (picture friend value).length ∧
      (picture friend value).countP isRecord = 0 ∧ (picture friend value).length ≤ 1 := by
  unfold picture
  cases value.dict? with
  | none => exact ⟨rfl, rfl, Nat.zero_le 1⟩
  | some singleFriend => exact ⟨rfl, rfl, Nat.le_refl 1⟩

theorem leadsTo_counts (r : Request) (a : Answer r) :
    (leadsTo r a).countP isPicture = (leadsTo r a).length ∧ (leadsTo r a).countP isRecord = 0 ∧
      (leadsTo r a).length ≤ [r].countP isRecord := by
  cases r with
  | friends uid => exact ⟨rfl, rfl, Nat.le_refl 0⟩
  | userImage userModel => exact ⟨rfl, rfl, Nat.le_refl 0⟩
  | record friend => exact picture_counts friend a

theorem appended_length (userModel : UserModel) (img : Download) :
    (appended userModel img).length ≤ 1 := by
  unfold appended
  split
  · exact Nat.le_refl 1
  · exact Nat.zero_le 1

theorem appends_length (r : Request) (a : Answer r) :
    (appends r a).length ≤ [r].countP isPicture := by
  cases r with
  | friends uid => exact Nat.le_refl 0
  | record friend => exact Nat.le_refl 0
  | userImage userModel => exact appended_length userModel a

theorem asked_counts (delivered : Replies fetchFriendList) :
    (asked delivered).countP isPicture = (asked delivered).length ∧
      (asked delivered).countP isRecord = 0 ∧
      (asked delivered).length ≤ (delivered.map Sigma.fst).countP isRecord := by
  induction delivered with
  | nil => decide
  | cons answered rest ih =>
    obtain ⟨pictures, records, length⟩ := leadsTo_counts answered.1 answered.2
    have split : asked (answered :: rest) = leadsTo answered.1 answered.2 ++ asked rest := rfl
    rw [List.countP_cons, List.countP_nil] at length
    rw [split, List.countP_append, List.countP_append, List.length_append, List.map_cons,
      List.countP_cons]
    omega

theorem listed_length (delivered : Replies fetchFriendList) :
    (listed delivered).length ≤ (delivered.map Sigma.fst).countP isPicture := by
  induction delivered with
  | nil => decide
  | cons answered rest ih =>
    have length := appends_length answered.1 answered.2
    have split : listed (answered :: rest) = appends answered.1 answered.2 ++ listed rest := rfl
    rw [List.countP_cons, List.countP_nil] at length
    rw [split, List.length_append, List.map_cons, List.countP_cons]
    omega

/-! ### The loop over the friends -/

def records (friends : List (String × String)) : List Request :=
  friends.map fun friend => .record friend.1

theorem records_counts (friends : List (String × String)) :
    (records friends).countP isRecord = friends.length ∧ (records friends).countP isPicture = 0 := by
  induction friends with
  | nil => decide
  | cons friend rest ih =>
    have split : records (friend :: rest) = .record friend.1 :: records rest := rfl
    rw [split, List.countP_cons, List.countP_cons, List.length_cons, ih.1, ih.2]
    exact ⟨rfl, rfl⟩

theorem records_nodup {friends : List (String × String)} (unique : (friends.map Prod.fst).Nodup)
    (uid : String) : (Request.friends uid :: records friends).Nodup := by
  rw [List.nodup_cons]
  refine ⟨by simp [records], ?_⟩
  have keys : records friends = (friends.map Prod.fst).map Request.record := by
    rw [List.map_map]
    rfl
  rw [keys]
  apply List.Nodup.map _ unique
  intro x y same
  exact Request.record.inj same

structure Entered (s : State) (friends : List (String × String)) (s' : State) : Prop where
  count : s'.vars.friendListdispatchGroup.count =
    s.vars.friendListdispatchGroup.count + friends.length
  pending : s'.vars.friendListdispatchGroup.pending =
    s.vars.friendListdispatchGroup.pending ++ List.replicate friends.length .complete
  array : s'.vars.friendArray = s.vars.friendArray
  sent : s'.sent = s.sent ++ records friends
  queued : s'.queued = s.queued
  reported : s'.reported = s.reported

theorem forFriends_entered (s : State) (friends : List (String × String)) :
    Entered s friends (friends.foldl forFriend s) := by
  induction friends generalizing s with
  | nil => exact ⟨rfl, by simp, rfl, by simp [records], rfl, rfl⟩
  | cons friend rest ih =>
    have positive : 0 < s.vars.friendListdispatchGroup.enter.count := Nat.succ_pos _
    have later := ih (forFriend s friend)
    rw [List.foldl_cons]
    refine ⟨?_, ?_, later.array, ?_, ?_, later.reported⟩
    · rw [later.count]
      simp only [forFriend, DispatchGroup.notify_count, DispatchGroup.enter_count, List.length_cons]
      omega
    · rw [later.pending]
      simp only [forFriend, DispatchGroup.notify_pending positive, DispatchGroup.enter_pending,
        List.append_assoc, List.length_cons, List.replicate_succ]
      rfl
    · rw [later.sent]
      simp [forFriend, records]
    · rw [later.queued]
      simp [forFriend, DispatchGroup.notify_released positive]

/-! ### The phases of a call -/

inductive Phase (c : Call fetchFriendList) (n : Nat) : Prop where
  | waiting (open_entries : n = 0 ∨ (listed c.delivered).length < n)
      (count : c.vars.friendListdispatchGroup.count + (listed c.delivered).length = n)
      (pending : c.vars.friendListdispatchGroup.pending = List.replicate n .complete)
      (queue : c.queue = []) (reports : c.reports = [])
  | releasing (left : Nat) (bound : left ≤ n) (all : (listed c.delivered).length = n)
      (count : c.vars.friendListdispatchGroup.count = 0)
      (queue : c.queue = List.replicate left .complete)
      (reports : c.reports = List.replicate (n - left) (some (listed c.delivered)))

/-- The friends of `uid` have been read. -/
structure Gathered (c : Call fetchFriendList) (uid : String) (friends : Dict String) : Prop where
  unique : c.requests.Nodup
  requests : c.requests.Perm (.friends uid :: (records friends.entries ++ asked c.delivered))
  array : c.vars.friendArray = listed c.delivered
  phase : Phase c friends.entries.length

inductive Progress (c : Call fetchFriendList) : Prop where
  | reading (uid : String) (vars : c.vars = {}) (requests : c.requests.Perm [.friends uid])
      (delivered : c.delivered = []) (queue : c.queue = []) (reports : c.reports = [])
  | refused (uid : String) (value : Json) (delivered : c.delivered = [⟨.friends uid, value⟩])
      (cast : value.stringDict? = none) (outstanding : c.outstanding = []) (queue : c.queue = [])
      (reports : c.reports = [none])
  | gathered (uid : String) (value : Json) (friends : Dict String)
      (delivered : ⟨.friends uid, value⟩ ∈ c.delivered) (cast : value.stringDict? = some friends)
      (gathered : Gathered c uid friends)

variable {c : Call fetchFriendList} {uid : String} {friends : Dict String}

theorem Phase.served {n : Nat} {r : Request} {rest : List Request} (a : Answer r)
    (phase : Phase c n) : Phase (c.served rest r a) n := by
  cases phase with
  | waiting open_entries count pending queue reports =>
    exact .waiting open_entries count pending queue reports
  | releasing left bound all count queue reports =>
    exact .releasing left bound all count queue reports

/-- An answer that appends nothing changes nothing but the requests. -/
theorem Phase.kept {n : Nat} {r : Request} {a : Answer r} {rest : Replies fetchFriendList}
    {sent : List Request} (phase : Phase c n) (nothing : appends r a = []) :
    Phase ((c.took rest r a).absorb { vars := c.vars, sent := sent }) n := by
  have same : listed (c.delivered ++ [⟨r, a⟩]) = listed c.delivered := by
    rw [listed_append, nothing, List.append_nil]
  cases phase with
  | waiting open_entries count pending queue reports =>
    refine .waiting ?_ ?_ pending ?_ ?_
    · show n = 0 ∨ (listed (c.delivered ++ [⟨r, a⟩])).length < n
      rw [same]
      exact open_entries
    · show _ + (listed (c.delivered ++ [⟨r, a⟩])).length = n
      rw [same]
      exact count
    · show c.queue ++ [] = []
      rw [queue, List.nil_append]
    · show c.reports ++ [] = []
      rw [reports, List.nil_append]
  | releasing left bound all count queue reports =>
    refine .releasing left bound ?_ count ?_ ?_
    · show (listed (c.delivered ++ [⟨r, a⟩])).length = n
      rw [same]
      exact all
    · show c.queue ++ [] = _
      rw [queue, List.append_nil]
    · show c.reports ++ [] = List.replicate _ (some (listed (c.delivered ++ [⟨r, a⟩])))
      rw [reports, List.append_nil, same]

/-- A picture that decodes leaves the group, which is not at zero. -/
theorem Phase.left {n : Nat} {r : Request} {a : Answer r} {rest : Replies fetchFriendList}
    {userModel : UserModel} {group : DispatchGroup Block} {released : List Block} (phase : Phase c n)
    (one : appends r a = [userModel])
    (left : c.vars.friendListdispatchGroup.leave = .ok (group, released)) :
    Phase ((c.took rest r a).absorb {
      vars := { friendArray := c.vars.friendArray ++ [userModel], friendListdispatchGroup := group }
      queued := released }) n := by
  have longer : (listed (c.delivered ++ [⟨r, a⟩])).length = (listed c.delivered).length + 1 := by
    rw [listed_append, one, List.length_append]
    rfl
  cases phase with
  | releasing _ _ _ zero =>
    rw [DispatchGroup.leave_zero zero] at left
    cases left
  | waiting open_entries count pending queue reports =>
    have positive : 0 < c.vars.friendListdispatchGroup.count := by
      apply Nat.pos_of_ne_zero
      intro zero
      rw [DispatchGroup.leave_zero zero] at left
      cases left
    obtain ⟨group', released', left', shape⟩ := DispatchGroup.leave_cases positive
    obtain ⟨rfl, rfl⟩ := Prod.mk.inj (Except.ok.inj (left.symm.trans left'))
    have reports_after : c.reports ++ [] = [] := by rw [reports, List.nil_append]
    rcases shape with ⟨last, rfl⟩ | ⟨rfl, lower, more, kept⟩
    · have emptied : group.count = 0 := by
        rw [DispatchGroup.leave_last last] at left
        obtain ⟨rfl, -⟩ := Prod.mk.inj (Except.ok.inj left)
        rfl
      refine .releasing n (Nat.le_refl n) ?_ emptied ?_ ?_
      · show (listed (c.delivered ++ [⟨r, a⟩])).length = n
        omega
      · show c.queue ++ c.vars.friendListdispatchGroup.pending = _
        rw [queue, pending, List.nil_append]
      · show c.reports ++ [] = _
        rw [reports_after, Nat.sub_self]
        rfl
    · refine .waiting (Or.inr ?_) ?_ (kept.trans pending) ?_ reports_after
      · show (listed (c.delivered ++ [⟨r, a⟩])).length < n
        omega
      · show group.count + (listed (c.delivered ++ [⟨r, a⟩])).length = n
        omega
      · show c.queue ++ [] = []
        rw [queue, List.nil_append]

theorem reply_userImage (e : Session) (v : Vars) (userModel : UserModel) (img : Download) :
    appended userModel img = [] ∧ reply e v (.userImage userModel) img = .ok { vars := v } ∨
    ∃ pictured, appended userModel img = [pictured] ∧
      reply e v (.userImage userModel) img = (do
        let (group, released) ← v.friendListdispatchGroup.leave
        return {
          vars := { friendArray := v.friendArray ++ [pictured], friendListdispatchGroup := group }
          queued := released }) := by
  cases img with
  | image img => exact Or.inr ⟨_, rfl, rfl⟩
  | undecodable => exact Or.inl ⟨rfl, rfl⟩
  | failed error => exact Or.inl ⟨rfl, rfl⟩

theorem Gathered.requests_after {r : Request} {a : Answer r} {rest : Replies fetchFriendList}
    {f : fetchFriendList.Frame} (gathered : Gathered c uid friends)
    (arrived : c.replies.Perm (⟨r, a⟩ :: rest)) (led : f.sent = leadsTo r a) :
    ((c.took rest r a).absorb f).requests.Perm
      (.friends uid :: (records friends.entries ++ asked (c.delivered ++ [⟨r, a⟩]))) := by
  refine (Call.deliver_requests arrived f).trans ?_
  rw [led, asked_append, ← List.append_assoc, ← List.cons_append]
  exact gathered.requests.append_right _

theorem Gathered.unique_after {r : Request} {a : Answer r} {rest : Replies fetchFriendList}
    {f : fetchFriendList.Frame} (gathered : Gathered c uid friends)
    (arrived : c.replies.Perm (⟨r, a⟩ :: rest)) (led : f.sent = leadsTo r a) :
    ((c.took rest r a).absorb f).requests.Nodup := by
  have fresh := Call.reply_fresh gathered.unique (arrived.mem_iff.mpr List.mem_cons_self)
  rw [(Call.deliver_requests arrived f).nodup_iff, led]
  cases r with
  | friends uid' => rw [leadsTo, List.append_nil]; exact gathered.unique
  | userImage userModel => rw [leadsTo, List.append_nil]; exact gathered.unique
  | record friend =>
    show (c.requests ++ picture friend a).Nodup
    unfold picture
    cases cast : Json.dict? a with
    | none => rw [List.append_nil]; exact gathered.unique
    | some singleFriend =>
      rw [(List.perm_append_singleton _ _).nodup_iff, List.nodup_cons]
      refine ⟨?_, gathered.unique⟩
      intro again
      have sent := gathered.requests.mem_iff.mp again
      simp only [List.mem_cons, reduceCtorEq, false_or, List.mem_append] at sent
      rcases sent with record | pictured
      · simp [records] at record
      · obtain ⟨friend', value, singleFriend', delivered, _, same⟩ := mem_asked pictured
        have ids := congrArg UserModel.userId (Request.userImage.inj same)
        obtain rfl : friend = friend' := Option.some.inj ids
        exact fresh (List.mem_map_of_mem delivered)

theorem Gathered.deliver (e : Session) {value : Json} {r : Request} {a : Answer r}
    {rest : Replies fetchFriendList} {f : fetchFriendList.Frame} (gathered : Gathered c uid friends)
    (read : ⟨.friends uid, value⟩ ∈ c.delivered) (arrived : c.replies.Perm (⟨r, a⟩ :: rest))
    (ran : reply e c.vars r a = .ok f) :
    Gathered ((c.took rest r a).absorb f) uid friends := by
  have member : ⟨r, a⟩ ∈ c.replies := arrived.mem_iff.mpr List.mem_cons_self
  have fresh := Call.reply_fresh gathered.unique member
  cases r with
  | friends uid' =>
    have sent := gathered.requests.mem_iff.mp (Call.reply_mem_requests member)
    rcases List.mem_cons.mp sent with same | later
    · rw [same] at fresh
      exact absurd (List.mem_map.mpr ⟨_, read, rfl⟩) fresh
    · rcases List.mem_append.mp later with record | pictured
      · simp [records] at record
      · obtain ⟨_, _, _, _, _, same⟩ := mem_asked pictured
        cases same
  | record friend =>
    have frame : f = { vars := c.vars, sent := picture friend a } := by
      have onRecord : reply e c.vars (.record friend) a =
          .ok { vars := c.vars, sent := picture friend a } := by
        unfold picture
        cases cast : Json.dict? a with
        | none => simp only [reply, FetchFriendList.onRecord, cast]
        | some singleFriend => simp only [reply, FetchFriendList.onRecord, cast]
      exact (Except.ok.inj (onRecord.symm.trans ran)).symm
    have led : f.sent = leadsTo (.record friend) a := by rw [frame]; rfl
    refine ⟨gathered.unique_after arrived led, gathered.requests_after arrived led, ?_, ?_⟩
    · rw [frame]
      show c.vars.friendArray = listed (c.delivered ++ [⟨.record friend, a⟩])
      rw [listed_append, gathered.array]
      exact (List.append_nil _).symm
    · rw [frame]
      exact gathered.phase.kept rfl
  | userImage userModel =>
    rcases reply_userImage e c.vars userModel a with ⟨nothing, quiet⟩ | ⟨pictured, one, leaves⟩
    · obtain rfl := Except.ok.inj (quiet.symm.trans ran)
      refine ⟨gathered.unique_after arrived rfl, gathered.requests_after arrived rfl, ?_,
        gathered.phase.kept nothing⟩
      show c.vars.friendArray = listed (c.delivered ++ [⟨.userImage userModel, a⟩])
      rw [listed_append, gathered.array, show appends (.userImage userModel) a = [] from nothing,
        List.append_nil]
    · have stepped := leaves.symm.trans ran
      cases left : c.vars.friendListdispatchGroup.leave with
      | error t => rw [left] at stepped; cases stepped
      | ok result =>
        obtain ⟨group, released⟩ := result
        rw [left] at stepped
        obtain rfl := Except.ok.inj stepped
        refine ⟨gathered.unique_after arrived rfl, gathered.requests_after arrived rfl, ?_,
          gathered.phase.left one left⟩
        show c.vars.friendArray ++ [pictured] = listed (c.delivered ++ [⟨.userImage userModel, a⟩])
        rw [listed_append, gathered.array,
          show appends (.userImage userModel) a = [pictured] from one]

theorem Gathered.block (e : Session) {b : Block} {rest : List Block} {f : fetchFriendList.Frame}
    (gathered : Gathered c uid friends) (first : c.queue = b :: rest)
    (ran : FetchFriendList.block e c.vars b = .ok f) :
    Gathered ((c.popped rest).absorb f) uid friends := by
  obtain rfl : f = { vars := c.vars, reported := [some c.vars.friendArray] } := by
    cases b
    exact (Except.ok.inj ran).symm
  have kept := Call.block_requests c rest
    { vars := c.vars, reported := [some c.vars.friendArray] } rfl
  refine ⟨kept.2 ▸ gathered.unique, .trans (.of_eq kept.2) gathered.requests, gathered.array, ?_⟩
  cases gathered.phase with
  | waiting _ _ _ queue => rw [queue] at first; cases first
  | releasing left bound all count queue reports =>
    cases left with
    | zero => rw [queue] at first; cases first
    | succ left =>
      rw [queue, List.replicate_succ] at first
      obtain ⟨rfl, rfl⟩ := List.cons.inj first
      refine .releasing left (Nat.le_of_succ_le bound) all count (List.append_nil _) ?_
      show c.reports ++ [some c.vars.friendArray] = _
      have one_more : friends.entries.length - left = friends.entries.length - (left + 1) + 1 := by
        omega
      rw [reports, gathered.array, one_more, List.replicate_succ']
      rfl

theorem onFriends_progress {value : Json} {rest : Replies fetchFriendList} (vars : c.vars = {})
    (requests : c.requests.Perm [.friends uid]) (delivered : c.delivered = []) (queue : c.queue = [])
    (reports : c.reports = []) (arrived : c.replies.Perm (⟨.friends uid, value⟩ :: rest)) :
    Progress ((c.took rest (.friends uid) value).absorb (onFriends c.vars value)) := by
  obtain ⟨delivered_after, requests_after, outstanding_after⟩ :=
    Call.deliver_first requests delivered arrived (onFriends c.vars value)
  change c.delivered ++ _ = _ at delivered_after
  cases cast : value.stringDict? with
  | none =>
    have ran : onFriends c.vars value = { vars := c.vars, reported := [none] } := by
      unfold onFriends
      rw [cast]
    rw [ran] at outstanding_after ⊢
    refine .refused uid value delivered_after cast ?_ ?_ ?_
    · exact List.length_eq_zero_iff.mp outstanding_after
    · show c.queue ++ [] = []
      rw [queue, List.nil_append]
    · show c.reports ++ [none] = [none]
      rw [reports, List.nil_append]
  | some friends =>
    have ran : onFriends c.vars value = friends.entries.foldl forFriend { vars := c.vars } := by
      unfold onFriends
      rw [cast]
    have entered := forFriends_entered { vars := c.vars } friends.entries
    rw [← ran] at entered
    generalize onFriends c.vars value = s at entered requests_after ⊢
    have sent : s.sent = records friends.entries := entered.sent
    have requests_final : ((c.took rest (.friends uid) value).absorb s).requests.Perm
        (.friends uid :: records friends.entries) := by
      rw [← sent]
      exact requests_after
    refine .gathered uid value friends (List.mem_append_right _ List.mem_cons_self) cast ⟨?_, ?_, ?_, ?_⟩
    · exact requests_final.nodup_iff.mpr (records_nodup friends.unique uid)
    · show List.Perm _ (.friends uid :: (records friends.entries ++
        asked (c.delivered ++ [⟨.friends uid, value⟩])))
      rw [delivered_after]
      exact requests_final.trans (.of_eq (by simp [asked, leadsTo]))
    · show s.vars.friendArray = listed (c.delivered ++ [⟨.friends uid, value⟩])
      rw [entered.array, vars, delivered_after]
      rfl
    · have none_listed : (listed (c.delivered ++ [⟨.friends uid, value⟩])).length = 0 := by
        rw [delivered_after]
        rfl
      refine .waiting ?_ ?_ ?_ ?_ ?_
      · show _ ∨ (listed (c.delivered ++ [⟨.friends uid, value⟩])).length < _
        omega
      · show s.vars.friendListdispatchGroup.count +
          (listed (c.delivered ++ [⟨.friends uid, value⟩])).length = _
        rw [entered.count, vars, none_listed]
        exact Nat.zero_add _
      · show s.vars.friendListdispatchGroup.pending = _
        rw [entered.pending, vars]
        exact List.nil_append _
      · show c.queue ++ s.queued = []
        rw [queue, entered.queued]
        rfl
      · show c.reports ++ s.reported = []
        rw [reports, entered.reported]
        rfl

theorem step_progress {c' : Call fetchFriendList} {e : Session} {ev : Call.Event fetchFriendList}
    (progress : Progress c) (stepped : c.Step e ev c') : Progress c' := by
  cases stepped with
  | @serve r rest a sent =>
    have same := Call.requests_served a sent
    cases progress with
    | reading uid vars requests delivered queue reports =>
      exact .reading uid vars (same.trans requests) delivered queue reports
    | refused uid value delivered cast outstanding queue reports =>
      exact .refused uid value delivered cast
        ((Call.outstanding_served a sent).trans (.of_eq outstanding)).eq_nil queue reports
    | gathered uid value friends read cast gathered =>
      exact .gathered uid value friends read cast ⟨same.nodup_iff.mpr gathered.unique,
        same.trans gathered.requests, gathered.array, gathered.phase.served a⟩
  | @deliver r a rest f arrived ran =>
    have member : ⟨r, a⟩ ∈ c.replies := arrived.mem_iff.mpr List.mem_cons_self
    cases progress with
    | reading uid vars requests delivered queue reports =>
      have sent : r ∈ c.requests := Call.reply_mem_requests member
      obtain rfl := List.mem_singleton.mp (requests.mem_iff.mp sent)
      obtain rfl := Except.ok.inj ran
      exact onFriends_progress vars requests delivered queue reports arrived
    | refused uid value delivered cast outstanding =>
      exact absurd outstanding (Call.outstanding_ne_nil member)
    | gathered uid value friends read cast gathered =>
      exact .gathered uid value friends (List.mem_append_left _ read) cast
        (gathered.deliver e read arrived ran)
  | @block b rest f first ran =>
    cases progress with
    | reading uid vars requests delivered queue reports => rw [queue] at first; cases first
    | refused uid value delivered cast outstanding queue => rw [queue] at first; cases first
    | gathered uid value friends read cast gathered =>
      exact .gathered uid value friends read cast (gathered.block e first ran)

theorem reachable_progress {A : Session → Call fetchFriendList → Call.Event fetchFriendList → Prop}
    (reachable : c.Reachable A) : Progress c := by
  induction reachable with
  | @start e input f ran =>
    obtain rfl := Except.ok.inj ran
    exact .reading (getCurrentUid e) rfl (.refl _) rfl rfl rfl
  | step _ _ stepped ih => exact step_progress ih stepped

/-! ### How often the completion is called -/

theorem Gathered.listed_le (gathered : Gathered c uid friends) {delivered : Replies fetchFriendList}
    (sublist : (delivered.map Sigma.fst).Subperm c.requests) :
    (listed delivered).length ≤ friends.entries.length := by
  have pictures := listed_length delivered
  have bounded := sublist.countP_le isPicture
  have from_records := asked_counts c.delivered
  have requested := gathered.requests.countP_eq isPicture
  have delivered_records := (List.sublist_append_right c.outstanding
    (c.delivered.map Sigma.fst)).countP_le (p := isRecord)
  have recorded := gathered.requests.countP_eq isRecord
  have entries := records_counts friends.entries
  rw [List.countP_cons, List.countP_append] at requested recorded
  have read_neither : isPicture (.friends uid) = false ∧ isRecord (.friends uid) = false := ⟨rfl, rfl⟩
  simp only [read_neither.1, read_neither.2] at requested recorded
  change _ ≤ c.requests.countP isRecord at delivered_records
  simp at requested recorded
  omega

theorem never_traps (progress : Progress c) (e : Session) (t : Trap) : ¬ c.Traps e t := by
  intro trapped
  cases trapped with
  | @block b rest first ran => cases b; cases ran
  | @deliver r a arrived ran =>
    cases r with
    | friends uid => cases ran
    | record friend => cases ran
    | userImage userModel =>
      rcases reply_userImage e c.vars userModel a with ⟨_, quiet⟩ | ⟨pictured, one, leaves⟩
      · cases quiet.symm.trans ran
      have stepped := leaves.symm.trans ran
      cases left : c.vars.friendListdispatchGroup.leave with
      | ok result => rw [left] at stepped; cases stepped
      | error t' =>
        have zero := (DispatchGroup.leave_error_iff.mp left).1
        cases progress with
        | reading uid vars requests =>
          have sent := requests.mem_iff.mp (Call.reply_mem_requests arrived)
          cases List.mem_singleton.mp sent
        | refused uid value delivered cast outstanding =>
          exact absurd outstanding (Call.outstanding_ne_nil arrived)
        | gathered uid value friends read cast gathered =>
          have full : friends.entries.length ≤ (listed c.delivered).length := by
            cases gathered.phase with
            | waiting _ count => omega
            | releasing _ _ all => omega
          let later : Replies fetchFriendList := c.delivered ++ [⟨.userImage userModel, a⟩]
          have one_more : (later.map Sigma.fst).Subperm c.requests := by
            have pending : Request.userImage userModel ∈ c.outstanding :=
              List.mem_append_right _ (List.mem_map_of_mem arrived)
            rw [List.map_append]
            refine (List.perm_append_comm.subperm).trans ?_
            exact (List.Sublist.append (List.singleton_sublist.mpr pending) (.refl _)).subperm
          have bounded := gathered.listed_le one_more
          rw [listed_append, List.length_append, show appends (.userImage userModel) a = [pictured]
            from one, List.length_singleton] at bounded
          omega

/-- A finished call has completed once for each friend when every friend's picture arrived,
and never otherwise. -/
theorem Gathered.finished (gathered : Gathered c uid friends) (finished : c.Finished) :
    c.reports = if (listed c.delivered).length = friends.entries.length
      then List.replicate friends.entries.length (some (listed c.delivered)) else [] := by
  cases gathered.phase with
  | waiting open_entries count pending queue reports =>
    rw [reports]
    split
    · rename_i all
      have none_listed : friends.entries.length = 0 := by omega
      rw [none_listed]
      rfl
    · rfl
  | releasing left bound all count queue reports =>
    have emptied := finished.2
    rw [queue] at emptied
    obtain rfl : left = 0 := by simpa using emptied
    rw [if_pos all, reports, Nat.sub_zero]

/-- A model with the fields of the friend's own record and the friend's own picture. -/
def OwnModel (delivered : Replies fetchFriendList) (friend : String) (userModel : UserModel) : Prop :=
  ∃ (value : Json) (singleFriend : Dict Json) (img : UIImage),
    ⟨.record friend, value⟩ ∈ delivered ∧ value.dict? = some singleFriend ∧
      ⟨.userImage (UserModel.decode friend singleFriend), Download.image img⟩ ∈ delivered ∧
      UserModel.Reads friend singleFriend userModel ∧ userModel.image = some img

theorem OwnModel.userId {delivered : Replies fetchFriendList} {friend : String} {userModel : UserModel}
    (own : OwnModel delivered friend userModel) : userModel.userId = some friend := by
  obtain ⟨_, _, _, _, _, _, reads, _⟩ := own
  exact reads.userId

theorem Gathered.record_listed (gathered : Gathered c uid friends) {friend : String}
    (sent : .record friend ∈ c.requests) : friend ∈ friends.keys := by
  rcases List.mem_cons.mp (gathered.requests.mem_iff.mp sent) with impossible | later
  · cases impossible
  rcases List.mem_append.mp later with record | pictured
  · simpa [records, Dict.keys] using record
  · obtain ⟨_, _, _, _, _, impossible⟩ := mem_asked pictured
    cases impossible

/-- The picture of a user is asked for with the model of that user's delivered record. -/
theorem Gathered.picture_recorded (gathered : Gathered c uid friends) {userModel : UserModel}
    (sent : .userImage userModel ∈ c.requests) :
    ∃ friend value singleFriend, ⟨.record friend, value⟩ ∈ c.delivered ∧
      Json.dict? value = some singleFriend ∧ userModel = UserModel.decode friend singleFriend := by
  rcases List.mem_cons.mp (gathered.requests.mem_iff.mp sent) with impossible | later
  · cases impossible
  rcases List.mem_append.mp later with record | pictured
  · simp [records] at record
  · obtain ⟨friend, value, singleFriend, recorded, cast, same⟩ := mem_asked pictured
    exact ⟨friend, value, singleFriend, recorded, cast, Request.userImage.inj same⟩

theorem Gathered.listed_own (gathered : Gathered c uid friends) {userModel : UserModel}
    (member : userModel ∈ listed c.delivered) :
    ∃ friend ∈ friends.keys, OwnModel c.delivered friend userModel := by
  obtain ⟨⟨r, a⟩, delivered, adds⟩ := List.mem_flatMap.mp member
  cases r with
  | friends uid' => cases adds
  | record friend => cases adds
  | userImage requested =>
    obtain ⟨friend, value, singleFriend, recorded, cast, rfl⟩ := gathered.picture_recorded
      (Call.delivered_mem_requests (List.mem_map_of_mem delivered))
    refine ⟨friend, gathered.record_listed
      (Call.delivered_mem_requests (List.mem_map_of_mem recorded)), ?_⟩
    change userModel ∈ appended _ a at adds
    cases a with
    | undecodable => cases adds
    | failed error => cases adds
    | image img =>
      obtain rfl := List.mem_singleton.mp adds
      exact ⟨value, singleFriend, img, recorded, cast, delivered, UserModel.decode_reads _ _ _, rfl⟩

/-- The pictures that decoded are those of healthy friends. -/
theorem Gathered.listed_healthy (gathered : Gathered c uid friends) {userModel : UserModel}
    (member : userModel ∈ listed c.delivered) :
    ∃ friend ∈ friends.keys, userModel.userId = some friend ∧ Healthy c.delivered friend := by
  obtain ⟨friend, known, own⟩ := gathered.listed_own member
  have named := own.userId
  obtain ⟨value, singleFriend, img, recorded, cast, pictured, _⟩ := own
  exact ⟨friend, known, named, value, singleFriend, img, recorded, cast, pictured⟩

theorem Gathered.read_eq (gathered : Gathered c uid friends) {uid' : String} {value value' : Json}
    (read : ⟨.friends uid, value⟩ ∈ c.delivered) (read' : ⟨.friends uid', value'⟩ ∈ c.delivered) :
    value' = value := by
  have sent := gathered.requests.mem_iff.mp
    (Call.delivered_mem_requests (List.mem_map_of_mem read'))
  rcases List.mem_cons.mp sent with same | later
  · obtain rfl := Request.friends.inj same
    exact Call.answer_eq gathered.unique (List.mem_append_right _ read')
      (List.mem_append_right _ read)
  rcases List.mem_append.mp later with record | pictured
  · simp [records] at record
  · obtain ⟨_, _, _, _, _, impossible⟩ := mem_asked pictured
    cases impossible

theorem Healthy.listed_ne {delivered : Replies fetchFriendList} {friend : String}
    (healthy : Healthy delivered friend) : listed delivered ≠ [] := by
  obtain ⟨value, singleFriend, img, _, _, pictured⟩ := healthy
  exact List.ne_nil_of_mem (List.mem_flatMap.mpr ⟨_, pictured, List.mem_singleton.mpr rfl⟩)

/-- A call that has finished completed exactly once if and only if the friends could not be
read, or there is one friend and that friend's record and picture arrived. -/
theorem fetchFriendList_once_iff (reachable : c.Reachable Call.AnyStep) (finished : c.Finished) :
    c.reports.length = 1 ↔
      ∃ uid value, ⟨.friends uid, value⟩ ∈ c.delivered ∧ (value.stringDict? = none ∨
        ∃ friends friend, value.stringDict? = some friends ∧ friends.keys = [friend] ∧
          Healthy c.delivered friend) := by
  cases reachable_progress reachable with
  | reading uid vars requests delivered =>
    exact absurd finished.1 (Call.unanswered requests delivered)
  | refused uid value delivered cast _ _ reports =>
    constructor
    · intro _
      exact ⟨uid, value, delivered ▸ List.mem_cons_self, Or.inl cast⟩
    · intro _
      rw [reports]
      rfl
  | gathered uid value friends read cast gathered =>
    have count := gathered.finished finished
    have bounded := gathered.listed_le (List.sublist_append_right c.outstanding _).subperm
    constructor
    · intro once
      split at count
      · rename_i all
        rw [count, List.length_replicate] at once
        obtain ⟨userModel, pictured⟩ := List.length_eq_one_iff.mp (all.trans once)
        obtain ⟨friend, known, _, healthy⟩ :=
          gathered.listed_healthy (pictured ▸ List.mem_singleton_self userModel)
        have keys_length : friends.keys.length = 1 := (List.length_map _).trans once
        obtain ⟨key, only⟩ := List.length_eq_one_iff.mp keys_length
        rw [only] at known
        obtain rfl := List.mem_singleton.mp known
        exact ⟨uid, value, read, Or.inr ⟨friends, friend, cast, only, healthy⟩⟩
      · rw [count] at once
        cases once
    · rintro ⟨uid', value', read', refused | ⟨friends', friend, cast', only, healthy⟩⟩
      · rw [gathered.read_eq read read', cast] at refused
        cases refused
      · rw [gathered.read_eq read read'] at cast'
        obtain rfl := Option.some.inj (cast.symm.trans cast')
        have one_friend : friends.entries.length = 1 := by
          have keys_length := congrArg List.length only
          rwa [Dict.keys, List.length_map] at keys_length
        have some_listed := List.length_pos_iff.mpr healthy.listed_ne
        rw [if_pos (by omega), one_friend] at count
        rw [count]
        rfl

/-- Two friends, both with a record and a picture. -/
def twoFriends : Backend where
  database := .obj [("USER", .obj [
    ("u", .obj [("FRIENDS", .obj [("a", .str "Friend Id"), ("b", .str "Friend Id")])]),
    ("a", .obj [("First Name", .str "Ann")]), ("b", .obj [("First Name", .str "Bob")])])]
  storage := fun _ => some ⟨[1]⟩

def bothDelivered : List (Device.Choice backend) :=
  let respond := policy true sampleAccount
  [.start .fetchFriendList (), .serve 0 0 respond, .deliver 0 0] ++
    (List.replicate 4 [.serve 0 0 respond, .deliver 0 0]).flatten ++ [.block, .block]

/-- Two healthy friends are reported twice. -/
theorem fetchFriendList_reports_twice :
    ¬ ∀ c : Call fetchFriendList, c.Reachable Call.AnyStep → c.Finished → c.reports.length = 1 := by
  intro once
  have ran : ((Device.boot twoFriends (some sampleAccount)).exec Network.AnyLabel
    bothDelivered).isSome := rfl
  have run := Device.exec_run (Option.some_get ran).symm
  have found : (Option.get _ ran).network.calls[0]? = some ⟨.fetchFriendList, _⟩ := rfl
  have reachable := run.call_reachable (fun _ _ _ _ _ _ _ => trivial) found
  have twice := once _ reachable ⟨rfl, rfl⟩
  exact absurd twice (by decide)

/-- The same store with one friend. -/
def oneFriend : Backend where
  database := .obj [("USER", .obj [
    ("u", .obj [("FRIENDS", .obj [("a", .str "Friend Id")])]),
    ("a", .obj [("First Name", .str "Ann")])])]
  storage := fun _ => some ⟨[1]⟩

def oneDelivered : List (Device.Choice backend) :=
  let respond := policy true sampleAccount
  [.start .fetchFriendList ()] ++
    (List.replicate 3 [.serve 0 0 respond, .deliver 0 0]).flatten ++ [.block]

theorem fetchFriendList_once_sample :
    ∃ c : Call fetchFriendList, c.Reachable Call.AnyStep ∧ c.Finished ∧ c.reports.length = 1 := by
  have ran : ((Device.boot oneFriend (some sampleAccount)).exec Network.AnyLabel
    oneDelivered).isSome := rfl
  have run := Device.exec_run (Option.some_get ran).symm
  have found : (Option.get _ ran).network.calls[0]? = some ⟨.fetchFriendList, _⟩ := rfl
  have reachable := run.call_reachable (fun _ _ _ _ _ _ _ => trivial) found
  refine ⟨_, reachable, ⟨rfl, rfl⟩, (fetchFriendList_once_iff reachable ⟨rfl, rfl⟩).mpr ?_⟩
  refine ⟨"u", _, List.mem_cons_self, Or.inr ⟨_, "a", rfl, rfl, ?_⟩⟩
  exact ⟨_, _, ⟨[1]⟩, List.mem_cons_of_mem _ List.mem_cons_self, rfl,
    List.mem_cons_of_mem _ (List.mem_cons_of_mem _ List.mem_cons_self)⟩

end SimpleSNS.FetchFriendList
