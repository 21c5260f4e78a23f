import SimpleSNS.APIHandler.Social
import SimpleSNS.APIHandler.Publication

/-!
What refers to a post. A timeline entry and a picture are only written once the post itself has been
stored, and posts are never removed, so neither is ever left without its post.
-/

namespace SimpleSNS
open Async

/-! ### What commands leave behind -/

namespace Social

variable {s : Social} {c : Command} {cs : List Command} {postKey uid : String}

theorem post_cause {post : Post} (found : (s.perform c).posts postKey = some post) :
    s.posts postKey = some post ∨ c = .publish postKey post := by
  cases c with
  | publish postKey' post' =>
    change Function.update s.posts postKey' (some post') postKey = some post at found
    by_cases same : postKey = postKey'
    · subst same
      rw [Function.update_self] at found
      cases found
      exact Or.inr rfl
    · rw [Function.update_of_ne same] at found
      exact Or.inl found
  | _ => exact Or.inl found

theorem picture_cause {img : UIImage} (found : (s.perform c).pictures postKey = some img) :
    s.pictures postKey = some img ∨ c = .picture postKey img := by
  cases c with
  | picture postKey' img' =>
    change Function.update s.pictures postKey' (some img') postKey = some img at found
    by_cases same : postKey = postKey'
    · subst same
      rw [Function.update_self] at found
      cases found
      exact Or.inr rfl
    · rw [Function.update_of_ne same] at found
      exact Or.inl found
  | _ => exact Or.inl found

theorem change_timeline {uid' : String} {update : Member → Member}
    (keeps : (update (s.members uid)).timeline ⊆ (s.members uid).timeline)
    (found : postKey ∈ ((s.change uid' update).members uid).timeline) :
    postKey ∈ (s.members uid).timeline := by
  rw [change_members] at found
  split at found
  · exact keeps found
  · exact found

theorem timeline_cause (found : postKey ∈ ((s.perform c).members uid).timeline) :
    postKey ∈ (s.members uid).timeline ∨ c = .list uid postKey := by
  cases c with
  | signUp uid' userInfo =>
    rw [perform] at found
    exact Or.inl (change_timeline (Finset.empty_subset _) found)
  | save uid' userInfo =>
    rw [perform] at found
    exact Or.inl (change_timeline (Finset.Subset.refl _) found)
  | befriend uid' friendId =>
    rw [perform] at found
    exact Or.inl (change_timeline (Finset.Subset.refl _) found)
  | unfriend uid' friendId =>
    rw [perform] at found
    exact Or.inl (change_timeline (Finset.Subset.refl _) found)
  | list uid' postKey' =>
    rw [perform, change_members] at found
    split at found
    · rename_i same
      rcases Finset.mem_insert.mp found with rfl | old
      · exact Or.inr (same ▸ rfl)
      · exact Or.inl old
    · exact Or.inl found
  | publish postKey' post => exact Or.inl found
  | portrait uid' img => exact Or.inl found
  | picture postKey' img => exact Or.inl found

theorem perform_keeps_post (stored : (s.posts postKey).isSome) (c : Command) :
    ((s.perform c).posts postKey).isSome := by
  cases c with
  | publish postKey' post' =>
    show (Function.update s.posts postKey' (some post') postKey).isSome
    by_cases same : postKey = postKey'
    · subst same
      rw [Function.update_self]
      rfl
    · rwa [Function.update_of_ne same]
  | _ => exact stored

theorem posts_published {post : Post} (found : (cs.foldl perform {}).posts postKey = some post) :
    .publish postKey post ∈ cs := by
  have steps : ∀ s c, (perform s c).posts postKey = some post →
      s.posts postKey = some post ∨ c = .publish postKey post := fun _ _ => post_cause
  obtain ⟨_, member, rfl⟩ := foldl_cause (Q := fun s : Social => s.posts postKey = some post) steps
    (Option.some_ne_none post).symm found
  exact member

theorem pictures_uploaded {img : UIImage} (found : (cs.foldl perform {}).pictures postKey = some img) :
    .picture postKey img ∈ cs := by
  have steps : ∀ s c, (perform s c).pictures postKey = some img →
      s.pictures postKey = some img ∨ c = .picture postKey img := fun _ _ => picture_cause
  obtain ⟨_, member, rfl⟩ := foldl_cause (Q := fun s : Social => s.pictures postKey = some img) steps
    (Option.some_ne_none img).symm found
  exact member

theorem timeline_listed (found : postKey ∈ ((cs.foldl perform {}).members uid).timeline) :
    .list uid postKey ∈ cs := by
  have steps : ∀ s c, postKey ∈ ((perform s c).members uid).timeline →
      postKey ∈ (s.members uid).timeline ∨ c = .list uid postKey := fun _ _ => timeline_cause
  obtain ⟨_, member, rfl⟩ := foldl_cause (Q := fun s : Social => postKey ∈ (s.members uid).timeline) steps
    (Finset.notMem_empty _) found
  exact member

/-- A post that was published stays, though it may be overwritten. -/
theorem published_stays {post : Post} (published : .publish postKey post ∈ cs) :
    ((cs.foldl perform {}).posts postKey).isSome := by
  refine foldl_stays (Q := fun s : Social => (s.posts postKey).isSome) (fun _ c stored => perform_keeps_post stored c)
    published ?_ {}
  intro s
  show (Function.update s.posts postKey (some post) postKey).isSome
  rw [Function.update_self]
  rfl

end Social

/-! ### The calls that publish -/

namespace AddNewPost

/-- What stands behind a request: a half is only sent when the post of its call has been stored. -/
def Follows (c : Call addNewPost) : Request → Prop
  | .setValue postKey description timeStamp userId =>
    .setValue postKey description timeStamp userId = postWrite c.startedIn c.input
  | .addPostStorage postKey img =>
    .addPostStorage postKey img = fileWrite c.input ∧ ⟨postWrite c.startedIn c.input, none⟩ ∈ c.answers
  | .addPostRefCurrentUser _ postKey =>
    postKey = c.input.postKey ∧ ⟨postWrite c.startedIn c.input, none⟩ ∈ c.answers

structure Ordered (c : Call addNewPost) : Prop where
  input : c.vars.input = c.input
  follows : ∀ r ∈ c.requests, Follows c r

variable {c c' : Call addNewPost}

theorem Follows.later {r : Request} (follows : Follows c r) (input : c'.input = c.input)
    (startedIn : c'.startedIn = c.startedIn) (answers : ∀ x ∈ c.answers, x ∈ c'.answers) :
    Follows c' r := by
  unfold Follows at follows ⊢
  rw [input, startedIn]
  cases r with
  | setValue postKey description timeStamp userId => exact follows
  | addPostStorage postKey img => exact ⟨follows.1, answers _ follows.2⟩
  | addPostRefCurrentUser uid postKey => exact ⟨follows.1, answers _ follows.2⟩

theorem reply_input {e : Session} {v : Vars} {r : Request} {a : Option Error} {f : State}
    (ran : reply e v r a = .ok f) : f.vars.input = v.input ∧
      (f.sent = [] ∨ ∃ postKey description timeStamp userId,
        r = .setValue postKey description timeStamp userId ∧ a = none ∧
        f.sent = [fileWrite v.input, .addPostRefCurrentUser (getCurrentUid e) v.input.postKey]) := by
  have half : ∀ {a : Option Error}, onHalf v a = .ok f → f.vars.input = v.input ∧ f.sent = [] := by
    intro a left
    cases a with
    | some error =>
      obtain rfl := Except.ok.inj left
      exact ⟨rfl, rfl⟩
    | none =>
      obtain ⟨⟨group, released⟩, _, same⟩ := bind_ok.mp left
      obtain rfl := Except.ok.inj same
      exact ⟨rfl, rfl⟩
  cases r with
  | addPostStorage postKey img => exact ⟨(half ran).1, Or.inl (half ran).2⟩
  | addPostRefCurrentUser uid postKey => exact ⟨(half ran).1, Or.inl (half ran).2⟩
  | setValue postKey description timeStamp userId =>
    cases a with
    | some error =>
      obtain rfl := Except.ok.inj ran
      exact ⟨rfl, Or.inl rfl⟩
    | none =>
      obtain rfl := onSetValue_ok ran
      exact ⟨rfl, Or.inr ⟨postKey, description, timeStamp, userId, rfl, rfl, rfl⟩⟩

theorem step_ordered {e : Session} {ev : Call.Event addNewPost} (ordered : Ordered c)
    (stepped : c.Step e ev c') : Ordered c' := by
  have old : ∀ r ∈ c.requests, Follows c' r := fun r asked =>
    (ordered.follows r asked).later stepped.input stepped.startedIn fun _ => stepped.answers_grow
  cases stepped with
  | serve a sent =>
    exact ⟨ordered.input, fun r asked => old r ((Call.requests_served a sent).mem_iff.mp asked)⟩
  | @deliver q a rest f arrived ran =>
    obtain ⟨input, sends⟩ := reply_input ran
    refine ⟨input.trans ordered.input, ?_⟩
    intro r asked
    rcases List.mem_append.mp ((Call.deliver_requests arrived f).mem_iff.mp asked) with known | new
    · exact old r known
    · rcases sends with nothing | ⟨postKey, description, timeStamp, userId, rfl, rfl, halves⟩
      · rw [nothing] at new
        cases new
      · have reply_here := arrived.mem_iff.mpr List.mem_cons_self
        have first : Request.setValue postKey description timeStamp userId = postWrite c.startedIn c.input :=
          ordered.follows _ (Call.reply_mem_requests reply_here)
        have stored : ⟨postWrite c.startedIn c.input, none⟩ ∈ ((c.took rest (.setValue postKey description timeStamp userId) none).absorb f).answers := by
          rw [← first]
          exact List.mem_append_right _ (List.mem_append_right _ List.mem_cons_self)
        rw [halves, ordered.input] at new
        rcases List.mem_cons.mp new with rfl | last
        · exact ⟨rfl, stored⟩
        · obtain rfl := List.mem_singleton.mp last
          exact ⟨rfl, stored⟩
  | @block b rest f next ran =>
    cases b
    obtain rfl := Except.ok.inj ran
    refine ⟨ordered.input, ?_⟩
    intro r asked
    rw [(Call.block_requests c rest _ rfl).2] at asked
    exact old r asked

theorem reachable_ordered (reachable : c.Reachable Call.AnyStep) : Ordered c := by
  induction reachable with
  | start ran =>
    obtain rfl := Except.ok.inj ran
    refine ⟨rfl, ?_⟩
    intro r asked
    obtain rfl := List.mem_singleton.mp asked
    exact rfl
  | step _ _ stepped ih => exact step_ordered ih stepped

end AddNewPost

/-! ### The store -/

variable {s : Network api Backend} {labels : List (Network.Label api)}

/-- No two calls of `addNewPost` were started with one key. -/
def OwnKeys (s : Network api Backend) : Prop :=
  ∀ (i j : Nat) (c d : Call addNewPost), s.calls[i]? = some ⟨.addNewPost, c⟩ →
    s.calls[j]? = some ⟨.addNewPost, d⟩ → c.input.postKey = d.input.postKey → i = j

/-- Whoever publishes a post stays signed in until its call is answered. -/
def StaySignedIn (labels : List (Network.Label api)) (s : Network api Backend) : Prop :=
  ∀ (i : Nat) (c : Call addNewPost) e ev, s.calls[i]? = some ⟨.addNewPost, c⟩ →
    .call e i .addNewPost ev ∈ labels → getCurrentUid e = getCurrentUid c.startedIn

/-- The post of a call. -/
def AddNewPost.post (c : Call addNewPost) : Post :=
  ⟨c.input.postString, c.input.time, getCurrentUid c.startedIn⟩

/-- A served write of a call, with what stands behind it. -/
theorem served_follows (trace : Network.Trace backend { world := {} } labels s) {e : Session} {i : Nat}
    {r : AddNewPost.Request} {a : Option Error} (served : .call e i .addNewPost (.serve r a) ∈ labels) :
    ∃ c : Call addNewPost, s.calls[i]? = some ⟨.addNewPost, c⟩ ∧ ⟨r, a⟩ ∈ c.answers ∧
      AddNewPost.Follows c r := by
  obtain ⟨c, _, _, found, given, _⟩ := trace.served_moment rfl served
  have ordered := AddNewPost.reachable_ordered (trace.call_reachable rfl found)
  exact ⟨c, found, given, ordered.follows r (Call.answered_requested given)⟩

/-- Every post that was stored by some moment of a run is the post of one of its calls. -/
theorem published_by (trace : Network.Trace backend { world := {} } labels s)
    {before : List (Network.Label api)} (part : before <+: labels) {postKey : String} {post : Post}
    (published : (after before).posts postKey = some post) :
    ∃ (i : Nat) (c : Call addNewPost), s.calls[i]? = some ⟨.addNewPost, c⟩ ∧ c.input.postKey = postKey ∧
      post = AddNewPost.post c := by
  obtain ⟨l, served, performed⟩ := List.mem_filterMap.mp (Social.posts_published published)
  obtain ⟨e, i, rfl⟩ := performed_by performed
  obtain ⟨c, found, _, given⟩ := served_follows trace (part.subset served)
  obtain ⟨rfl, description, timeStamp, userId⟩ := AddNewPost.Request.setValue.inj given
  refine ⟨i, c, found, rfl, ?_⟩
  show post = ⟨c.input.postString, c.input.time, getCurrentUid c.startedIn⟩
  rw [← description, ← timeStamp, ← userId]

/-- Once a call has stored its post, the network has a post of that key; if the key was nobody else's,
it is that post. -/
theorem stored_post (trace : Network.Trace backend { world := {} } labels s) {i : Nat}
    {c : Call addNewPost} (found : s.calls[i]? = some ⟨.addNewPost, c⟩)
    (stored : ⟨AddNewPost.postWrite c.startedIn c.input, none⟩ ∈ c.answers) :
    ∃ post, (after labels).posts c.input.postKey = some post ∧ (OwnKeys s → post = AddNewPost.post c) := by
  obtain ⟨before, mid, moment⟩ := trace.moment rfl found stored
  obtain ⟨e, rest, split⟩ := moment.next
  have published : .publish c.input.postKey (AddNewPost.post c) ∈ labels.filterMap social.performed := by
    refine List.mem_filterMap.mpr
      ⟨.call e i .addNewPost (.serve (AddNewPost.postWrite c.startedIn c.input) none), ?_, rfl⟩
    rw [split]
    exact List.mem_append_right _ List.mem_cons_self
  obtain ⟨post, present⟩ := Option.isSome_iff_exists.mp (Social.published_stays published)
  refine ⟨post, present, ?_⟩
  intro own
  obtain ⟨j, d, found', same_key, rfl⟩ := published_by trace List.prefix_rfl present
  obtain rfl := own i j c d found found' same_key.symm
  rw [found] at found'
  cases found'
  rfl

theorem listed_owner (trace : Network.Trace backend { world := {} } labels s)
    (steady : StaySignedIn labels s) {i : Nat} {c : Call addNewPost}
    (found : s.calls[i]? = some ⟨.addNewPost, c⟩) {uid postKey : String}
    (asked : .addPostRefCurrentUser uid postKey ∈ c.requests) : uid = getCurrentUid c.startedIn := by
  have reachable : c.Reachable fun e _ _ => getCurrentUid e = getCurrentUid c.startedIn :=
    trace.call_reachable_where rfl (fun e ev _ member => steady i c e ev found member) found
  have settled := (Call.Reachable.of_start (B := fun e₀ e _ => getCurrentUid e = getCurrentUid e₀)
    reachable).weaken (B := AddNewPost.Steady) ?_
  · have known := (AddNewPost.reachable_progress settled).phase.sent_subset asked
    simp only [AddNewPost.writes, List.mem_cons, List.not_mem_nil, or_false] at known
    rcases known with impossible | impossible | same
    · cases impossible
    · cases impossible
    · exact (AddNewPost.Request.addPostRefCurrentUser.inj same).1
  · intro e c ev same
    unfold AddNewPost.Steady
    split
    · exact same
    · trivial

/-- Whatever refers to a post finds it. A timeline lists stored posts only, and where no key is used
twice and authors stay signed in, only posts of its owner; a picture has its post, and where no key is
used twice both are what one call was given. -/
theorem timelines (trace : Network.Trace backend { world := {} } labels s) :
    (∀ uid postKey, postKey ∈ ((after labels).members uid).timeline →
      ∃ post, (after labels).posts postKey = some post ∧
        (OwnKeys s → StaySignedIn labels s → post.userId = uid)) ∧
    ∀ postKey img, (after labels).pictures postKey = some img →
      ∃ post, (after labels).posts postKey = some post ∧
        (OwnKeys s → ∃ (i : Nat) (c : Call addNewPost), s.calls[i]? = some ⟨.addNewPost, c⟩ ∧
          c.input.postKey = postKey ∧ img = c.input.postImg ∧ post = AddNewPost.post c) := by
  refine ⟨?_, ?_⟩
  · intro uid postKey listed
    obtain ⟨l, served, performed⟩ := List.mem_filterMap.mp (Social.timeline_listed listed)
    obtain ⟨e, i, rfl⟩ := performed_by performed
    obtain ⟨c, found, given, rfl, stored⟩ := served_follows trace served
    obtain ⟨post, present, same⟩ := stored_post trace found stored
    refine ⟨post, present, ?_⟩
    intro own steady
    rw [same own, listed_owner trace steady found (Call.answered_requested given)]
    rfl
  · intro postKey img uploaded
    obtain ⟨l, served, performed⟩ := List.mem_filterMap.mp (Social.pictures_uploaded uploaded)
    obtain ⟨e, i, rfl⟩ := performed_by performed
    obtain ⟨c, found, _, file, stored⟩ := served_follows trace served
    obtain ⟨rfl, rfl⟩ := AddNewPost.Request.addPostStorage.inj file
    obtain ⟨post, present, same⟩ := stored_post trace found stored
    exact ⟨post, present, fun own => ⟨i, c, found, rfl, rfl, same own⟩⟩

/-- The account that takes the steps of a run. -/
def ActsAs (uid : String) (_ : Network api Backend) (l : Network.Label api) : Prop :=
  getCurrentUid l.session = uid

instance (uid : String) (s : Network api Backend) : DecidablePred (ActsAs uid s) := fun l =>
  inferInstanceAs (Decidable (getCurrentUid l.session = uid))

/-- One post is published, and its author finds it. -/
theorem timelines_sample : ∃ (s : Network api Backend) (labels : List (Network.Label api)) (post : Post),
    Network.Trace backend { world := {} } labels s ∧ OwnKeys s ∧ StaySignedIn labels s ∧
      "k" ∈ ((after labels).members sampleAccount.uid).timeline ∧
      (after labels).posts "k" = some post ∧ post.userId = sampleAccount.uid := by
  have ran : ((Device.boot {} (some sampleAccount)).exec (ActsAs sampleAccount.uid)
    (AddNewPost.publish true true)).isSome := rfl
  obtain ⟨labels, trace, acted⟩ := (Device.exec_run (Option.some_get ran).symm).network.trace
  have only : (Option.get _ ran).network.calls = [⟨.addNewPost, _⟩] := rfl
  have first : ∀ {i : Nat} {job : Job api}, (Option.get _ ran).network.calls[i]? = some job → i = 0 := by
    intro i job found
    have bound := (List.getElem?_eq_some_iff.mp found).1
    rw [only] at bound
    exact Nat.lt_one_iff.mp bound
  have own : OwnKeys (Option.get _ ran).network := fun i j _ _ found found' _ =>
    (first found).trans (first found').symm
  have steady : StaySignedIn labels (Option.get _ ran).network := by
    intro i c e ev found member
    obtain ⟨_, by_ann⟩ := acted _ member
    obtain rfl := first found
    cases found
    exact by_ann
  have written := ((trace_stores trace).members sampleAccount.uid).timeline.child "k"
  have listed : "k" ∈ ((after labels).members sampleAccount.uid).timeline := by
    by_contra missing
    rw [Json.listed_none.mpr missing] at written
    cases written
  obtain ⟨post, present, author⟩ := (timelines trace).1 _ "k" listed
  exact ⟨_, labels, post, trace, own, steady, listed, present, author own steady⟩

end SimpleSNS
