import SimpleSNS.APIHandler.PostFanIn
import SimpleSNS.APIHandler.FriendFanIn
import SimpleSNS.APIHandler.PostJoin
import SimpleSNS.APIHandler.SignIn
import SimpleSNS.APIHandler.UserSessions
import SimpleSNS.Async.Relay

/-!
Which calls of the handler complete. `Proceeds` are the answers after which a completion is still to
come; a finished call all of whose answers are such has reported. The session may change at any time.
-/

namespace SimpleSNS
open Async

/-! ### Chains of requests -/

def SignIn.Proceeds (_ : Request) (answer : Option String × Option Error) : Prop :=
  answer.1.isSome ∧ answer.2 = none

/-- A user that signs in is reported without an error. -/
theorem SignIn.relays :
    Relays signIn SignIn.Proceeds (fun _ => True) (fun report => report.2 = none) where
  start e input f ran := by
    obtain rfl := Except.ok.inj ran
    exact Or.inl ⟨_, List.mem_singleton_self _, trivial⟩
  reply e v r answer f _ proceeds ran := by
    obtain rfl := Except.ok.inj ran
    obtain ⟨result, error⟩ := answer
    obtain ⟨found, rfl⟩ := proceeds
    obtain ⟨user, rfl⟩ := Option.isSome_iff_exists.mp found
    exact Or.inr ⟨_, List.mem_singleton_self _, rfl⟩

/-- After any other answer nothing is reported. -/
theorem SignIn.chains : Chains signIn SignIn.Proceeds where
  start e input f ran := by
    obtain rfl := Except.ok.inj ran
    exact ⟨Nat.le_refl 1, rfl⟩
  reply e v r answer f ran := by
    obtain rfl := Except.ok.inj ran
    obtain ⟨result, error⟩ := answer
    cases error with
    | some error => exact ⟨Nat.zero_le 1, fun sent => absurd rfl sent, fun _ => rfl⟩
    | none =>
      cases result with
      | none => exact ⟨Nat.zero_le 1, fun sent => absurd rfl sent, fun _ => rfl⟩
      | some user => exact ⟨Nat.zero_le 1, fun sent => absurd rfl sent, fun bad => absurd ⟨rfl, rfl⟩ bad⟩
  block := inferInstanceAs (IsEmpty Empty)

/-- Auth answers with a result or an error. -/
def SignUpNewUser.Proceeds : (r : Request) → Answer r → Prop
  | .createUser _ _, (result, error) => result.isSome ∨ error.isSome
  | _, _ => True

theorem SignUpNewUser.relays :
    Relays signUpNewUser SignUpNewUser.Proceeds (fun _ => True) (fun _ => True) where
  start e input f ran := by
    obtain ⟨emailId, _, rest⟩ := bind_ok.mp ran
    obtain ⟨password, _, same⟩ := bind_ok.mp rest
    obtain rfl := Except.ok.inj same
    exact Or.inl ⟨_, List.mem_singleton_self _, trivial⟩
  reply e v r answer f _ proceeds ran := by
    cases r with
    | uploadImage userId img =>
      obtain rfl := Except.ok.inj ran
      exact Or.inr ⟨_, List.mem_singleton_self _, trivial⟩
    | setValue uid userInfo =>
      change Option Error at answer
      cases answer with
      | none =>
        obtain rfl := SignUpNewUser.reply_uploads (e := e) uid userInfo ran
        exact Or.inl ⟨_, List.mem_singleton_self _, trivial⟩
      | some error =>
        obtain rfl := Except.ok.inj ran
        exact Or.inr ⟨_, List.mem_singleton_self _, trivial⟩
    | createUser email password =>
      obtain ⟨result, error⟩ := answer
      cases error with
      | some error =>
        obtain rfl := Except.ok.inj ran
        exact Or.inr ⟨_, List.mem_singleton_self _, trivial⟩
      | none =>
        obtain ⟨uid, rfl⟩ : ∃ uid, result = some uid :=
          Option.isSome_iff_exists.mp (proceeds.resolve_right nofun)
        obtain rfl := Except.ok.inj ran
        exact Or.inl ⟨_, List.mem_singleton_self _, trivial⟩

theorem SignUpNewUser.chains : Chains signUpNewUser SignUpNewUser.Proceeds where
  start e input f ran := by
    obtain ⟨emailId, _, rest⟩ := bind_ok.mp ran
    obtain ⟨password, _, same⟩ := bind_ok.mp rest
    obtain rfl := Except.ok.inj same
    exact ⟨Nat.le_refl 1, rfl⟩
  reply e v r answer f ran := by
    cases r with
    | uploadImage userId img =>
      obtain rfl := Except.ok.inj ran
      exact ⟨Nat.zero_le 1, fun sent => absurd rfl sent, fun bad => absurd trivial bad⟩
    | setValue uid userInfo =>
      change Option Error at answer
      cases answer with
      | none =>
        obtain rfl := SignUpNewUser.reply_uploads (e := e) uid userInfo ran
        exact ⟨Nat.le_refl 1, fun _ => ⟨rfl, trivial⟩, fun _ => rfl⟩
      | some error =>
        obtain rfl := Except.ok.inj ran
        exact ⟨Nat.zero_le 1, fun sent => absurd rfl sent, fun bad => absurd trivial bad⟩
    | createUser email password =>
      obtain ⟨result, error⟩ := answer
      cases error with
      | some error =>
        obtain rfl := Except.ok.inj ran
        exact ⟨Nat.zero_le 1, fun sent => absurd rfl sent, fun bad => absurd (Or.inr rfl) bad⟩
      | none =>
        cases result with
        | none =>
          obtain rfl := Except.ok.inj ran
          exact ⟨Nat.zero_le 1, fun sent => absurd rfl sent, fun _ => rfl⟩
        | some uid =>
          obtain rfl := Except.ok.inj ran
          exact ⟨Nat.le_refl 1, fun _ => ⟨rfl, Or.inl rfl⟩, fun _ => rfl⟩
  block := inferInstanceAs (IsEmpty Empty)

theorem UpdateUserInformation.relays :
    Relays updateUserInformation (fun _ _ => True) (fun _ => True) (fun _ => True) where
  start e input f ran := by
    obtain rfl := Except.ok.inj ran
    exact Or.inl ⟨_, List.mem_singleton_self _, trivial⟩
  reply e v r answer f _ _ ran := by
    cases r with
    | uploadImage userId img =>
      obtain rfl := Except.ok.inj ran
      exact Or.inr ⟨_, List.mem_singleton_self _, trivial⟩
    | updateChildValues uid userInfo =>
      cases answer with
      | none =>
        obtain rfl := UpdateUserInformation.reply_uploads uid userInfo ran
        exact Or.inl ⟨_, List.mem_singleton_self _, trivial⟩
      | some error =>
        obtain rfl := Except.ok.inj ran
        exact Or.inr ⟨_, List.mem_singleton_self _, trivial⟩

theorem FetchCurrentUser.relays :
    Relays fetchCurrentUser (fun _ _ => True) (fun _ => True) (fun _ => True) where
  start e input f ran := by
    obtain rfl := Except.ok.inj ran
    exact Or.inl ⟨_, List.mem_singleton_self _, trivial⟩
  reply e v r value f _ _ ran := by
    obtain rfl := Except.ok.inj ran
    right
    unfold FetchCurrentUser.onRecord
    split
    · exact ⟨_, List.mem_singleton_self _, trivial⟩
    · exact ⟨_, List.mem_singleton_self _, trivial⟩

/-! ### Posts -/

def FetchAllPost.Proceeds : (r : Request) → Answer r → Prop
  | .posts, value => (Json.dictDict? value).isSome
  | _, _ => True

theorem FetchAllPost.finished_reported {c : Call fetchAllPost}
    (reachable : c.Reachable (Call.Answered FetchAllPost.Proceeds)) (finished : c.Finished) :
    ∃ list, c.reports = [list] := by
  cases reachable_progress reachable with
  | reading _ requests delivered =>
    exact absurd finished.1 (Call.unanswered requests delivered)
  | refused value delivered cast =>
    have proceeds := reachable.answered ⟨.posts, value⟩ (delivered ▸ List.mem_singleton_self _)
    change (Json.dictDict? value).isSome at proceeds
    rw [cast] at proceeds
    cases proceeds
  | gathered value posts delivered cast gathered =>
    obtain ⟨list, reports, _⟩ := gathered.finished finished.1 finished.2
    exact ⟨list, reports⟩

/-- Posts that cannot be read are not reported. -/
theorem FetchAllPost.silent {A : Session → Call fetchAllPost → Call.Event fetchAllPost → Prop}
    {c : Call fetchAllPost} (reachable : c.Reachable A)
    (excluded : ∃ x ∈ c.delivered, ¬ FetchAllPost.Proceeds x.1 x.2) : c.reports = [] := by
  cases reachable_progress reachable with
  | reading _ _ _ _ reports => exact reports
  | refused _ _ _ _ _ reports => exact reports
  | gathered value posts delivered cast gathered =>
    obtain ⟨⟨r, a⟩, member, bad⟩ := excluded
    cases r with
    | posts =>
      obtain rfl := gathered.read_eq delivered (List.mem_append_right _ member)
      exact absurd (Option.isSome_iff_exists.mpr ⟨posts, cast⟩) bad
    | _ => exact absurd trivial bad

/-! ### Friends -/

namespace FetchFriendList

/-- A list of friends is not empty, each friend has a record, and each picture decodes. -/
def Proceeds : (r : Request) → Answer r → Prop
  | .friends _, value => (Json.stringDict? value).map Dict.entries ≠ some []
  | .record _, value => (Json.dict? value).isSome
  | .userImage _, img => (Download.image? img).isSome

theorem leadsTo_length {r : Request} {a : Answer r} (proceeds : Proceeds r a) :
    (leadsTo r a).length = [r].countP isRecord := by
  cases r with
  | friends uid => rfl
  | userImage userModel => rfl
  | record friend =>
    obtain ⟨singleFriend, cast⟩ := Option.isSome_iff_exists.mp proceeds
    show (picture friend a).length = 1
    unfold picture
    rw [cast]
    rfl

theorem appends_one {r : Request} {a : Answer r} (proceeds : Proceeds r a) :
    (appends r a).length = [r].countP isPicture := by
  cases r with
  | friends uid => rfl
  | record friend => rfl
  | userImage userModel =>
    obtain ⟨img, decoded⟩ := Option.isSome_iff_exists.mp proceeds
    show (appended userModel a).length = 1
    unfold appended
    rw [decoded]
    rfl

theorem whole_lengths {delivered : Replies fetchFriendList}
    (proceeds : ∀ x ∈ delivered, Proceeds x.1 x.2) :
    (asked delivered).length = (delivered.map Sigma.fst).countP isRecord ∧
      (listed delivered).length = (delivered.map Sigma.fst).countP isPicture := by
  induction delivered with
  | nil => exact ⟨rfl, rfl⟩
  | cons answered rest ih =>
    have led := leadsTo_length (proceeds answered List.mem_cons_self)
    have added := appends_one (proceeds answered List.mem_cons_self)
    obtain ⟨records, pictures⟩ := ih fun x member => proceeds x (List.mem_cons_of_mem _ member)
    have asked_split : asked (answered :: rest) = leadsTo answered.1 answered.2 ++ asked rest := rfl
    have listed_split : listed (answered :: rest) = appends answered.1 answered.2 ++ listed rest := rfl
    rw [List.countP_cons, List.countP_nil] at led added
    rw [asked_split, listed_split, List.length_append, List.length_append, List.map_cons,
      List.countP_cons, List.countP_cons]
    omega

/-- Once everything is answered, every friend is listed. -/
theorem Gathered.all_listed {c : Call fetchFriendList} {uid : String} {friends : Dict String}
    (gathered : Gathered c uid friends) (closed : c.outstanding = [])
    (proceeds : ∀ x ∈ c.delivered, Proceeds x.1 x.2) :
    (listed c.delivered).length = friends.entries.length := by
  have all : c.requests = c.delivered.map Sigma.fst := by rw [Call.requests, closed, List.nil_append]
  have recorded := gathered.requests.countP_eq isRecord
  have pictured := gathered.requests.countP_eq isPicture
  obtain ⟨asked_length, listed_length⟩ := whole_lengths proceeds
  obtain ⟨asked_pictures, asked_records, _⟩ := asked_counts c.delivered
  obtain ⟨entries, no_pictures⟩ := records_counts friends.entries
  rw [List.countP_cons, List.countP_append, all] at recorded pictured
  simp only [isRecord, isPicture, Bool.false_eq_true, if_false, Nat.add_zero] at recorded pictured
  omega

theorem finished_reported {c : Call fetchFriendList}
    (reachable : c.Reachable (Call.Answered Proceeds)) (finished : c.Finished) : c.reports ≠ [] := by
  have answered := reachable.answered
  cases reachable_progress reachable with
  | reading uid _ requests delivered =>
    exact absurd finished.1 (Call.unanswered requests delivered)
  | refused _ _ _ _ _ _ reports =>
    rw [reports]
    exact List.cons_ne_nil _ _
  | gathered uid value friends delivered cast gathered =>
    have reports := gathered.finished finished
    rw [if_pos (gathered.all_listed finished.1 answered)] at reports
    have nonempty := answered _ delivered
    change (Json.stringDict? value).map Dict.entries ≠ some [] at nonempty
    rw [cast] at nonempty
    intro none_reported
    rw [none_reported] at reports
    have empty : friends.entries.length = 0 := by simpa using congrArg List.length reports.symm
    exact nonempty (congrArg some (List.length_eq_zero_iff.mp empty))

/-- As many pictures as records, and as many models as pictures: every record and picture is there. -/
theorem lengths_whole {delivered : Replies fetchFriendList}
    (records : (asked delivered).length = (delivered.map Sigma.fst).countP isRecord)
    (pictures : (listed delivered).length = (delivered.map Sigma.fst).countP isPicture) :
    ∀ x ∈ delivered, (leadsTo x.1 x.2).length = [x.1].countP isRecord ∧
      (appends x.1 x.2).length = [x.1].countP isPicture := by
  induction delivered with
  | nil =>
    intro x member
    cases member
  | cons answered rest ih =>
    have led := (leadsTo_counts answered.1 answered.2).2.2
    have added := appends_length answered.1 answered.2
    have rest_led := (asked_counts rest).2.2
    have rest_added := listed_length rest
    have asked_split : asked (answered :: rest) = leadsTo answered.1 answered.2 ++ asked rest := rfl
    have listed_split : listed (answered :: rest) = appends answered.1 answered.2 ++ listed rest := rfl
    rw [List.countP_cons, List.countP_nil] at led added
    rw [asked_split, List.length_append, List.map_cons, List.countP_cons] at records
    rw [listed_split, List.length_append, List.map_cons, List.countP_cons] at pictures
    intro x member
    rcases List.mem_cons.mp member with rfl | later
    · rw [List.countP_cons, List.countP_nil, List.countP_cons, List.countP_nil]
      exact ⟨by omega, by omega⟩
    · exact ih (by omega) (by omega) x later

/-- When every friend is listed, every record and every picture has arrived. -/
theorem Gathered.whole {c : Call fetchFriendList} {uid : String} {friends : Dict String}
    (gathered : Gathered c uid friends) (closed : c.outstanding = [])
    (all : (listed c.delivered).length = friends.entries.length) :
    ∀ x ∈ c.delivered, (leadsTo x.1 x.2).length = [x.1].countP isRecord ∧
      (appends x.1 x.2).length = [x.1].countP isPicture := by
  have delivered : c.requests = c.delivered.map Sigma.fst := by
    rw [Call.requests, closed, List.nil_append]
  have recorded := gathered.requests.countP_eq isRecord
  have pictured := gathered.requests.countP_eq isPicture
  obtain ⟨asked_pictures, asked_records, asked_le⟩ := asked_counts c.delivered
  obtain ⟨entries, no_pictures⟩ := records_counts friends.entries
  have listed_le := listed_length c.delivered
  rw [List.countP_cons, List.countP_append, delivered] at recorded pictured
  simp only [isRecord, isPicture, Bool.false_eq_true, if_false, Nat.add_zero] at recorded pictured
  exact lengths_whole (by omega) (by omega)

/-- Friends of whom one is missing are not reported, and neither is an empty list. -/
theorem silent {A : Session → Call fetchFriendList → Call.Event fetchFriendList → Prop}
    {c : Call fetchFriendList} (reachable : c.Reachable A) (finished : c.Finished)
    (excluded : ∃ x ∈ c.delivered, ¬ Proceeds x.1 x.2) : c.reports = [] := by
  obtain ⟨⟨r, a⟩, member, bad⟩ := excluded
  cases reachable_progress reachable with
  | reading _ _ _ _ _ reports => exact reports
  | refused uid value delivered cast =>
    rw [delivered] at member
    cases List.mem_singleton.mp member
    refine absurd ?_ bad
    show (Json.stringDict? value).map Dict.entries ≠ some []
    rw [cast]
    nofun
  | gathered uid value friends delivered cast gathered =>
    rw [gathered.finished finished]
    split
    · rename_i all
      obtain ⟨led, added⟩ := gathered.whole finished.1 all _ member
      cases r with
      | friends uid' =>
        rw [gathered.read_eq delivered member] at bad
        have empty : friends.entries = [] := by
          change ¬ (Json.stringDict? value).map Dict.entries ≠ some [] at bad
          rw [cast] at bad
          exact Option.some.inj (not_not.mp bad)
        rw [empty]
        rfl
      | record friend =>
        refine absurd ?_ bad
        change (picture friend a).length = 1 at led
        unfold picture at led
        show (Json.dict? a).isSome
        cases cast : Json.dict? a with
        | none => rw [cast] at led; cases led
        | some singleFriend => rfl
      | userImage userModel =>
        refine absurd ?_ bad
        change (appended userModel a).length = 1 at added
        unfold appended at added
        show (Download.image? a).isSome
        cases decoded : Download.image? a with
        | none => rw [decoded] at added; cases added
        | some img => rfl
    · rfl

end FetchFriendList

/-! ### A new post -/

namespace AddNewPost

/-- The completion of a new post is still to come, or has been called. -/
inductive Underway (c : Call addNewPost) : Prop where
  | writing (postKey description : String) (timeStamp : Rat) (userId : String)
      (outstanding : c.outstanding = [.setValue postKey description timeStamp userId])
      (count : c.vars.postDispatchGroup.count = 0)
  | joining (more : c.outstanding ≠ []) (halves : ∀ r ∈ c.outstanding, isHalf r)
      (count : c.vars.postDispatchGroup.count = c.outstanding.length)
      (pending : c.vars.postDispatchGroup.pending = [.complete])
  | joined (queued : .complete ∈ c.queue)
  | reported (reports : c.reports ≠ [])

variable {c c' : Call addNewPost} {e : Session}

theorem onSetValue_underway {q r : Request} {a : Option Error} {rest : Replies addNewPost}
    {f : addNewPost.Frame} (outstanding : c.outstanding = [q]) (count : c.vars.postDispatchGroup.count = 0)
    (arrived : c.replies.Perm (⟨r, a⟩ :: rest)) (ran : onSetValue e c.vars a = .ok f) :
    Underway ((c.took rest r a).absorb f) := by
  obtain ⟨_, sent⟩ := Call.deliver_single outstanding arrived f
  cases a with
  | some error =>
    obtain rfl := Except.ok.inj ran
    exact .reported (Call.absorb_reported _ (List.cons_ne_nil _ _))
  | none =>
    obtain rfl := onSetValue_ok ran
    have positive : 0 < c.vars.postDispatchGroup.enter.enter.count := Nat.succ_pos _
    refine .joining ?_ ?_ ?_ ?_
    · rw [sent]
      exact List.cons_ne_nil _ _
    · rw [sent]
      simp [joining, isHalf]
    · rw [sent]
      show (c.vars.postDispatchGroup.enter.enter.notify .complete).1.count = 2
      rw [DispatchGroup.notify_count, DispatchGroup.enter_count, DispatchGroup.enter_count, count]
    · show (c.vars.postDispatchGroup.enter.enter.notify .complete).1.pending = [.complete]
      rw [DispatchGroup.notify_pending positive, DispatchGroup.enter_pending,
        DispatchGroup.enter_pending, c.vars.postDispatchGroup.drained count, List.nil_append]

theorem onHalf_underway {r : Request} {a : Option Error} {rest : Replies addNewPost}
    {f : addNewPost.Frame} (halves : ∀ r ∈ c.outstanding, isHalf r)
    (count : c.vars.postDispatchGroup.count = c.outstanding.length)
    (pending : c.vars.postDispatchGroup.pending = [.complete])
    (arrived : c.replies.Perm (⟨r, a⟩ :: rest)) (ran : onHalf c.vars a = .ok f) :
    Underway ((c.took rest r a).absorb f) := by
  cases a with
  | some error =>
    obtain rfl := Except.ok.inj ran
    exact .reported (Call.absorb_reported _ (List.cons_ne_nil _ _))
  | none =>
    obtain ⟨⟨group, released⟩, left, same⟩ := bind_ok.mp ran
    obtain rfl := Except.ok.inj same
    obtain ⟨lower, kept⟩ := DispatchGroup.leave_ok left
    change group.count + 1 = c.vars.postDispatchGroup.count at lower
    change released ++ group.pending = c.vars.postDispatchGroup.pending at kept
    have fewer := Call.deliver_outstanding arrived
      (f := { vars := { c.vars with postDispatchGroup := group }, queued := released }) rfl
    have left_open : group.count = _ := Nat.succ.inj (lower.trans (count.trans fewer.length_eq))
    by_cases last : group.count = 0
    · rw [group.drained last, List.append_nil, pending] at kept
      refine .joined ?_
      show _ ∈ c.queue ++ released
      rw [kept]
      exact List.mem_append_right _ (List.mem_singleton_self _)
    · obtain ⟨group', left', lower', kept'⟩ :=
        DispatchGroup.leave_more (g := c.vars.postDispatchGroup) (by omega)
      obtain ⟨rfl, rfl⟩ := Prod.mk.inj (Except.ok.inj (left.symm.trans left'))
      refine .joining ?_ ?_ left_open (kept'.trans pending)
      · intro none_left
        rw [none_left] at left_open
        exact last left_open
      · intro r member
        exact halves r (fewer.mem_iff.mpr (List.mem_cons_of_mem _ member))

theorem step_underway {ev : Call.Event addNewPost} (underway : Underway c) (stepped : c.Step e ev c') :
    Underway c' := by
  cases stepped with
  | @serve r rest a sent =>
    have same := Call.outstanding_served a sent
    cases underway with
    | writing postKey description timeStamp userId outstanding count =>
      rw [outstanding] at same
      exact .writing postKey description timeStamp userId (List.perm_singleton.mp same) count
    | joining more halves count pending =>
      refine .joining ?_ ?_ (count.trans same.length_eq.symm) pending
      · intro none_left
        rw [none_left] at same
        exact more same.symm.eq_nil
      · intro r member
        exact halves r (same.mem_iff.mp member)
    | joined queued => exact .joined queued
    | reported reports => exact .reported reports
  | @deliver r a rest f arrived ran =>
    have asked : r ∈ c.outstanding :=
      List.mem_append_right _ (List.mem_map_of_mem (arrived.mem_iff.mpr List.mem_cons_self))
    cases underway with
    | writing postKey description timeStamp userId outstanding count =>
      rw [outstanding] at asked
      obtain rfl := List.mem_singleton.mp asked
      exact onSetValue_underway outstanding count arrived ran
    | joining more halves count pending =>
      have half := halves r asked
      cases r with
      | setValue => cases half
      | addPostStorage => exact onHalf_underway halves count pending arrived ran
      | addPostRefCurrentUser => exact onHalf_underway halves count pending arrived ran
    | joined queued => exact .joined (List.mem_append_left _ queued)
    | reported reports => exact .reported (List.append_ne_nil_of_left_ne_nil reports _)
  | @block b rest f next ran =>
    cases b
    obtain rfl := Except.ok.inj ran
    exact .reported (Call.absorb_reported _ (List.cons_ne_nil _ _))

/-- A finished call has completed, whichever accounts were signed in meanwhile. -/
theorem finished_reported {A : Session → Call addNewPost → Call.Event addNewPost → Prop}
    (reachable : c.Reachable A) (finished : c.Finished) : c.reports ≠ [] := by
  have underway : Underway c := by
    clear finished
    induction reachable with
    | start ran =>
      obtain rfl := Except.ok.inj ran
      exact .writing _ _ _ _ rfl rfl
    | step _ _ stepped ih => exact step_underway ih stepped
  cases underway with
  | writing _ _ _ _ outstanding => rw [finished.1] at outstanding; cases outstanding
  | joining more => exact absurd finished.1 more
  | joined queued => rw [finished.2] at queued; cases queued
  | reported reports => exact reports

end AddNewPost

end SimpleSNS
