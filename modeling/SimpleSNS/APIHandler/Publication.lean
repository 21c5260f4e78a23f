import SimpleSNS.APIHandler.PostJoin

/-!
Any number of overlapping calls of `addNewPost` against the store. Each of the three places of
a post is filled exactly when the call's own write to it succeeded; nothing is ever undone, so
only a refused post leaves all three empty.
-/

namespace SimpleSNS.AddNewPost
open Async

inductive Place where
  | post (postKey : String)
  | file (postKey : String)
  | ref (uid postKey : String)
  deriving DecidableEq

def Place.key : Place → String
  | .post postKey => postKey
  | .file postKey => postKey
  | .ref _ postKey => postKey

def place : Request → Place
  | .setValue postKey _ _ _ => .post postKey
  | .addPostStorage postKey _ => .file postKey
  | .addPostRefCurrentUser uid postKey => .ref uid postKey

def refPath (uid postKey : String) : List String := userPath uid ++ ["POST", postKey]

def Stored (w : Backend) : Place → Prop
  | .post postKey => (w.database.getChild (postPath postKey)).isEmpty = false
  | .file postKey => (w.storage (postImageName postKey)).isSome
  | .ref uid postKey => (w.database.getChild (refPath uid postKey)).isEmpty = false

instance (w : Backend) : DecidablePred (Stored w) := fun p =>
  match p with
  | .post postKey =>
    inferInstanceAs (Decidable ((w.database.getChild (postPath postKey)).isEmpty = false))
  | .file postKey => inferInstanceAs (Decidable ((w.storage (postImageName postKey)).isSome = true))
  | .ref uid postKey =>
    inferInstanceAs (Decidable ((w.database.getChild (refPath uid postKey)).isEmpty = false))

theorem writes_forall {e : Session} {input : Input} {p : Request → Prop} :
    (∀ r ∈ writes e input, p r) ↔
      p (postWrite e input) ∧ p (fileWrite input) ∧ p (refWrite e input) := by
  simp [writes]

theorem place_key {e : Session} {input : Input} {r : Request} (member : r ∈ writes e input) :
    (place r).key = input.postKey := by
  simp only [writes, List.mem_cons, List.not_mem_nil, or_false] at member
  rcases member with rfl | rfl | rfl <;> rfl

theorem place_inj {e : Session} {input : Input} {r r' : Request} (first : r ∈ writes e input)
    (second : r' ∈ writes e input) (same : place r = place r') : r = r' := by
  simp only [writes, List.mem_cons, List.not_mem_nil, or_false] at first second
  rcases first with rfl | rfl | rfl <;> rcases second with rfl | rfl | rfl <;>
    first | rfl | cases same

theorem postRecord_stored (description : String) (timeStamp : Rat) (userId : String) :
    (Json.nodeFrom (postRecord description timeStamp userId)).isEmpty = false := by
  simp [postRecord, Json.nodeFrom, Json.fieldsFrom, Json.children, Json.isEmpty]

theorem refPath_apart {uid uid' key key' : String} (different : uid ≠ uid' ∨ key ≠ key') :
    Json.Apart (refPath uid key) (refPath uid' key') := by
  rcases different with uids | keys
  · exact Or.inr (Or.inl uids)
  · exact Or.inr (Or.inr (Or.inr (Or.inl keys)))

/-- Serving a write fills its own place, if it succeeds, and touches no other. -/
theorem serve_stored {w w' : Backend} {r : Request} {a : Option Error} (served : Serve w w' r a)
    (p : Place) : Stored w' p ↔ Stored w p ∨ p = place r ∧ a = none := by
  cases a with
  | some error =>
    have same : w' = w := by cases r <;> exact served
    rw [same]
    simp
  | none =>
    cases r with
    | setValue postKey description timeStamp userId =>
      obtain rfl : w' = _ := served
      cases p with
      | file key => simp [Stored, place, Backend.setValue]
      | ref uid key =>
        have apart : Json.Apart (postPath postKey) (refPath uid key) := Or.inl (by decide)
        simp [Stored, place, Backend.setValue, Json.getChild_updateChild_apart _ _ apart]
      | post key =>
        by_cases same : postKey = key
        · subst same
          simp [Stored, place, Backend.setValue, postRecord_stored]
        · have apart : Json.Apart (postPath postKey) (postPath key) := Or.inr (Or.inl same)
          simp [Stored, place, Backend.setValue, Json.getChild_updateChild_apart _ _ apart,
            Ne.symm same]
    | addPostStorage postKey img =>
      obtain rfl : w' = _ := served
      cases p with
      | post key => simp [Stored, place, Backend.putData]
      | ref uid key => simp [Stored, place, Backend.putData]
      | file key =>
        by_cases same : key = postKey
        · subst same
          simp [Stored, place, Backend.putData]
        · have names : postImageName key ≠ postImageName postKey := fun h => same (postImageName_inj h)
          simp [Stored, place, Backend.putData, names, same]
    | addPostRefCurrentUser uid postKey =>
      obtain rfl : w' = _ := served
      have path : userPath uid ++ ["POST"] ++ [postKey] = refPath uid postKey := rfl
      cases p with
      | file key => simp [Stored, place, Backend.updateChildValues]
      | post key =>
        have apart : Json.Apart (refPath uid postKey) (postPath key) := Or.inl (by decide)
        simp only [Stored, place, Backend.updateChildValues, List.foldl_cons, List.foldl_nil, path,
          Json.getChild_updateChild_apart _ _ apart]
        simp
      | ref uid' key =>
        simp only [Stored, place, Backend.updateChildValues, List.foldl_cons, List.foldl_nil, path]
        by_cases same : uid = uid' ∧ postKey = key
        · obtain ⟨rfl, rfl⟩ := same
          simp [Json.isEmpty]
        · have apart := refPath_apart (not_and_or.mp same)
          rw [Json.getChild_updateChild_apart _ _ apart]
          simp only [Place.ref.injEq, and_true]
          exact ⟨Or.inl, fun h => h.resolve_right fun h => same ⟨h.1.symm, h.2.symm⟩⟩

/-! ### Runs of overlapping calls -/

def postKeyOf : Job api → Option String
  | ⟨.addNewPost, c⟩ => some c.input.postKey
  | _ => none

/-- `childByAutoId` hands out a key that nothing is stored under and no call works with. -/
def KeyFresh (s : Network api Backend) (e : Session) (key : String) : Prop :=
  (∀ job ∈ s.calls, postKeyOf job ≠ some key) ∧ ¬ Stored s.world (.post key) ∧
    ¬ Stored s.world (.file key) ∧ ¬ Stored s.world (.ref (getCurrentUid e) key)

/-- Only posts are published, and each caller stays signed in until its call is answered. -/
def Publishing (s : Network api Backend) : Network.Label api → Prop
  | .start e .addNewPost input => KeyFresh s e input.postKey
  | .start _ _ _ => False
  | .call e i _ _ => ∀ job ∈ s.calls[i]?, e = job.call.startedIn

instance (s : Network api Backend) (e : Session) (key : String) : Decidable (KeyFresh s e key) :=
  inferInstanceAs (Decidable (_ ∧ _))

instance (s : Network api Backend) : DecidablePred (Publishing s) := fun l =>
  match l with
  | .start e .addNewPost input => inferInstanceAs (Decidable (KeyFresh s e input.postKey))
  | .start _ .signUpNewUser _ | .start _ .fetchCurrentUser _ | .start _ .fetchAllUsers _
  | .start _ .fetchFriendList _ | .start _ .fetchAllPost _ | .start _ .updateUserInformation _
  | .start _ .addToFriendList _ | .start _ .removeFromFriendList _ => isFalse id
  | .call e i _ _ => inferInstanceAs (Decidable (∀ job ∈ s.calls[i]?, e = job.call.startedIn))

structure Published (s : Network api Backend) : Prop where
  kinds : ∀ (i : Nat) k (c : Call (api k)), s.calls[i]? = some ⟨k, c⟩ → k = .addNewPost
  keys : ∀ (i j : Nat) (c d : Call addNewPost), s.calls[i]? = some ⟨.addNewPost, c⟩ →
    s.calls[j]? = some ⟨.addNewPost, d⟩ → i ≠ j → c.input.postKey ≠ d.input.postKey
  stored : ∀ (i : Nat) (c : Call addNewPost), s.calls[i]? = some ⟨.addNewPost, c⟩ →
    ∀ r ∈ writes c.startedIn c.input, Stored s.world (place r) ↔ ⟨r, none⟩ ∈ c.answers

/-- A new call has a key of its own, and nothing is stored under it. -/
theorem Published.start {s : Network api Backend} {e : Session} {input : Input}
    {f : addNewPost.Frame} (published : Published s) (fresh : KeyFresh s e input.postKey) :
    Published (s.started e .addNewPost input f) := by
  obtain ⟨unused, no_post, no_file, no_ref⟩ := fresh
  refine ⟨?_, ?_, ?_⟩
  · intro i k c found
    rcases Network.concat_lookup found with old | ⟨_, same⟩
    · exact published.kinds i k c old
    · cases same
      rfl
  · intro i j c d found_c found_d different
    rcases Network.concat_lookup found_c with old_c | ⟨rfl, same_c⟩ <;>
      rcases Network.concat_lookup found_d with old_d | ⟨rfl, same_d⟩
    · exact published.keys i j c d old_c old_d different
    · cases same_d
      intro same
      exact unused _ (List.mem_of_getElem? old_c) (congrArg some same)
    · cases same_c
      intro same
      exact unused _ (List.mem_of_getElem? old_d) (congrArg some same.symm)
    · exact absurd rfl different
  · intro i c found r member
    rcases Network.concat_lookup found with old | ⟨_, same⟩
    · exact published.stored i c old r member
    · cases same
      have nothing : ¬ Stored s.world (place r) := by
        simp only [writes, List.mem_cons, List.not_mem_nil, or_false] at member
        rcases member with rfl | rfl | rfl
        · exact no_post
        · exact no_file
        · exact no_ref
      exact ⟨fun stored => absurd stored nothing, fun answered => by cases answered⟩

theorem Published.moved_kinds {s : Network api Backend} {w : Backend} {i : Nat}
    {c c' : Call addNewPost} (published : Published s)
    (found : s.calls[i]? = some ⟨.addNewPost, c⟩) (j : Nat) (k : Api) (d : Call (api k))
    (look : (s.moved (k := .addNewPost) w i c c').calls[j]? = some ⟨k, d⟩) : k = .addNewPost := by
  rcases Network.moved_lookup found look with ⟨_, same⟩ | ⟨_, old⟩
  · cases same
    rfl
  · exact published.kinds j k d old

theorem Published.moved_keys {s : Network api Backend} {w : Backend} {i : Nat}
    {c c' : Call addNewPost} (published : Published s)
    (found : s.calls[i]? = some ⟨.addNewPost, c⟩) (input : c'.input = c.input) (j l : Nat)
    (d d' : Call addNewPost)
    (found_d : (s.moved (k := .addNewPost) w i c c').calls[j]? = some ⟨.addNewPost, d⟩)
    (found_d' : (s.moved (k := .addNewPost) w i c c').calls[l]? = some ⟨.addNewPost, d'⟩)
    (different : j ≠ l) : d.input.postKey ≠ d'.input.postKey := by
  rcases Network.moved_lookup found found_d with ⟨rfl, same⟩ | ⟨_, old⟩ <;>
    rcases Network.moved_lookup found found_d' with ⟨rfl, same'⟩ | ⟨_, old'⟩
  · exact absurd rfl different
  · cases same
    rw [input]
    exact published.keys _ _ c d' found old' different
  · cases same'
    rw [input]
    exact published.keys _ _ d c old found different
  · exact published.keys _ _ d d' old old' different

theorem Published.serve {s : Network api Backend} {i : Nat} {c : Call addNewPost} {r : Request}
    {rest : List Request} {a : Option Error} {w : Backend} (published : Published s)
    (found : s.calls[i]? = some ⟨.addNewPost, c⟩) (asked : r ∈ writes c.startedIn c.input)
    (served : Serve s.world w r a) :
    Published (s.moved (k := .addNewPost) w i c (c.served rest r a)) := by
  have effect := serve_stored served
  refine ⟨published.moved_kinds found, published.moved_keys found rfl, ?_⟩
  intro j d look r' member
  show Stored w (place r') ↔ _
  rw [effect]
  rcases Network.moved_lookup found look with ⟨rfl, same⟩ | ⟨different, old⟩
  · cases same
    have before := published.stored i c found r' member
    have answered : ⟨r', none⟩ ∈ (c.served rest r a).answers ↔
        (⟨r', none⟩ : (r : Request) × addNewPost.Answer r) = ⟨r, a⟩ ∨ ⟨r', none⟩ ∈ c.answers :=
      List.mem_cons
    rw [before, answered, or_comm]
    apply or_congr_left
    constructor
    · rintro ⟨same_place, rfl⟩
      rw [place_inj member asked same_place]
    · intro same
      cases same
      exact ⟨rfl, rfl⟩
  · have apart : place r' ≠ place r := by
      intro same_place
      have keys := congrArg Place.key same_place
      rw [place_key member, place_key asked] at keys
      exact published.keys i j c d found old different keys.symm
    rw [published.stored j d old r' member]
    exact ⟨fun h => h.resolve_right fun h => apart h.1, Or.inl⟩

theorem Published.keeps {s : Network api Backend} {i : Nat} {c c' : Call addNewPost}
    (published : Published s) (found : s.calls[i]? = some ⟨.addNewPost, c⟩)
    (input : c'.input = c.input) (startedIn : c'.startedIn = c.startedIn)
    (answers : c'.answers.Perm c.answers) :
    Published (s.moved (k := .addNewPost) s.world i c c') := by
  refine ⟨published.moved_kinds found, published.moved_keys found input, ?_⟩
  intro j d look r' member
  rcases Network.moved_lookup found look with ⟨rfl, same⟩ | ⟨_, old⟩
  · cases same
    rw [startedIn, input] at member
    rw [answers.mem_iff]
    exact published.stored i c found r' member
  · exact published.stored j d old r' member

theorem step_published {s s' : Network api Backend} {l : Network.Label api}
    (published : Published s)
    (progress : ∀ (i : Nat) (c : Call addNewPost), s.calls[i]? = some ⟨.addNewPost, c⟩ → Progress c)
    (publishing : Publishing s l) (stepped : Network.Step backend s l s') : Published s' := by
  cases stepped with
  | start e k input ran =>
    cases k with
    | addNewPost => exact published.start publishing
    | _ => exact publishing.elim
  | @call e k c c' ev w index found stepped moves =>
    obtain rfl := published.kinds index k c found
    cases stepped with
    | @serve r rest a sent =>
      have requested : r ∈ c.requests :=
        List.mem_append_left _ (List.mem_append_left _ (sent.mem_iff.mpr List.mem_cons_self))
      exact published.serve found ((progress index c found).phase.sent_subset requested) moves
    | @deliver r a rest f arrived ran =>
      obtain rfl : w = s.world := moves
      exact published.keeps found rfl rfl (Call.answers_took arrived)
    | @block b rest f first ran =>
      obtain rfl : w = s.world := moves
      exact published.keeps found rfl rfl (.refl _)

theorem Publishing.steady {s : Network api Backend} {e : Session} {i : Nat} {c : Call addNewPost}
    {ev : Call.Event addNewPost} (publishing : Publishing s (.call e i .addNewPost ev))
    (found : s.calls[i]? = some ⟨.addNewPost, c⟩) : Steady e c ev := by
  have same : e = c.startedIn := publishing _ found
  unfold Steady
  split
  · rw [same]
  · trivial

theorem run_published {s₀ s : Network api Backend} (run : Network.Run backend Publishing s₀ s)
    (empty : s₀.calls = []) : Published s ∧
      ∀ (i : Nat) (c : Call addNewPost), s.calls[i]? = some ⟨.addNewPost, c⟩ → Progress c := by
  have progress : ∀ {s : Network api Backend}, Network.Run backend Publishing s₀ s →
      ∀ (i : Nat) (c : Call addNewPost), s.calls[i]? = some ⟨.addNewPost, c⟩ → Progress c :=
    fun run i c found => reachable_progress
      (run.call_reachable empty (fun _ _ _ _ _ publishing found => publishing.steady found) found)
  refine ⟨?_, progress run⟩
  induction run with
  | refl =>
    refine ⟨?_, ?_, ?_⟩
    · intro i k c found
      simp [empty] at found
    · intro i j c d found
      simp [empty] at found
    · intro i c found
      simp [empty] at found
  | step before publishing stepped ih =>
    exact step_published ih (progress before) publishing stepped

/-- When a call has been answered, each of its three places is filled if and only if its own
write succeeded, and it reported success if and only if all three are. A refused post leaves
all three empty and is reported once; so is a post with one failed half, and no call ends
without a report. -/
theorem publication {s₀ s : Network api Backend} (run : Network.Run backend Publishing s₀ s)
    (empty : s₀.calls = []) {i : Nat} {c : Call addNewPost}
    (found : s.calls[i]? = some ⟨.addNewPost, c⟩) (finished : c.Finished) :
    (∀ r ∈ writes c.startedIn c.input, Stored s.world (place r) ↔ ⟨r, none⟩ ∈ c.delivered) ∧
    (none ∈ c.reports ↔ ∀ r ∈ writes c.startedIn c.input, Stored s.world (place r)) ∧
    (¬ Stored s.world (.post c.input.postKey) → (∃ error, c.reports = [some error]) ∧
      ∀ r ∈ writes c.startedIn c.input, ¬ Stored s.world (place r)) ∧
    ((Stored s.world (.file c.input.postKey) ∨
      Stored s.world (.ref (getCurrentUid c.startedIn) c.input.postKey)) → c.reports.length = 1) ∧
    c.reports ≠ [] := by
  obtain ⟨published, all_progress⟩ := run_published run empty
  have progress := all_progress i c found
  have no_replies : c.replies = [] := by
    have closed := finished.1
    simp only [Call.outstanding, List.append_eq_nil_iff, List.map_eq_nil_iff] at closed
    exact closed.2
  have filled : ∀ r ∈ writes c.startedIn c.input,
      Stored s.world (place r) ↔ ⟨r, none⟩ ∈ c.delivered := by
    intro r member
    rw [published.stored i c found r member, Call.answers, no_replies, List.nil_append]
  have post_filled := filled (postWrite c.startedIn c.input) (by simp [writes])
  have file_filled := filled (fileWrite c.input) (by simp [writes])
  have ref_filled := filled (refWrite c.startedIn c.input) (by simp [writes])
  refine ⟨filled, ?_⟩
  by_cases posted : ⟨postWrite c.startedIn c.input, none⟩ ∈ c.delivered
  · obtain ⟨file, ref, file_answer, ref_answer, outcome⟩ := progress.joined_report finished posted
    have succeeded : ∀ {r : Request} {a : Option Error}, ⟨r, a⟩ ∈ c.delivered →
        (⟨r, none⟩ ∈ c.delivered ↔ a = none) := by
      intro r a answer
      constructor
      · intro answer'
        exact Call.answer_eq progress.phase.unique (List.mem_append_right _ answer)
          (List.mem_append_right _ answer')
      · rintro rfl
        exact answer
    have file_iff := file_filled.trans (succeeded file_answer)
    have ref_iff := ref_filled.trans (succeeded ref_answer)
    refine ⟨?_, fun no_post => absurd (post_filled.mpr posted) no_post, ?_, ?_⟩
    · rw [writes_forall, post_filled, file_iff, ref_iff]
      rcases outcome with ⟨rfl, rfl, reports⟩ | ⟨failed, unreported, _⟩
      · rw [reports]
        exact ⟨fun _ => ⟨posted, rfl, rfl⟩, fun _ => List.mem_singleton_self none⟩
      · constructor
        · intro reported
          exact absurd reported unreported
        · rintro ⟨_, rfl, rfl⟩
          exact absurd failed (by simp)
    · intro half
      rcases outcome with ⟨_, _, reports⟩ | ⟨_, _, _, once⟩
      · rw [reports]
        rfl
      · exact once (half.imp file_iff.mp ref_iff.mp)
    · rcases outcome with ⟨_, _, reports⟩ | ⟨_, _, reported, _⟩
      · rw [reports]
        exact List.cons_ne_nil _ _
      · exact reported
  · obtain ⟨error, reports, only⟩ := progress.refused_report finished posted
    have unsent : ∀ {r : Request}, r ≠ postWrite c.startedIn c.input →
        ⟨r, none⟩ ∉ c.delivered := by
      intro r other answered
      exact other (only r (Call.delivered_mem_requests (List.mem_map_of_mem answered)))
    have no_post := mt post_filled.mp posted
    have no_file := mt file_filled.mp (unsent (by simp [fileWrite, postWrite]))
    have no_ref := mt ref_filled.mp (unsent (by simp [refWrite, postWrite]))
    refine ⟨?_, fun _ => ⟨⟨error, reports⟩, ?_⟩, fun half => ?_, ?_⟩
    · rw [reports, writes_forall]
      constructor
      · intro reported
        cases List.mem_singleton.mp reported
      · intro stored
        exact absurd stored.1 no_post
    · rw [writes_forall]
      exact ⟨no_post, no_file, no_ref⟩
    · exact absurd half (not_or.mpr ⟨no_file, no_ref⟩)
    · rw [reports]
      exact List.cons_ne_nil _ _

def samplePost : Input := ⟨"hello", ⟨[1]⟩, "k", 1⟩

/-- One call; `file` and `ref` say whether the halves of its join succeed. -/
def publish (file ref : Bool) : List (Device.Choice backend) :=
  [.session (some sampleAccount), .start .addNewPost samplePost, .serve 0 0 (policy true sampleAccount),
    .deliver 0 0, .serve 0 0 (policy file sampleAccount), .serve 0 0 (policy ref sampleAccount), .deliver 0 0,
    .deliver 0 0]

theorem publication_sample :
    ∃ (s : Network api Backend) (c : Call addNewPost),
      Network.Run backend Publishing { world := {} } s ∧
      s.calls[0]? = some ⟨.addNewPost, c⟩ ∧ c.Finished ∧ none ∈ c.reports := by
  have ran : ((Device.boot {} none).exec Publishing (publish true true ++ [.block])).isSome := rfl
  have run := (Device.exec_run (Option.some_get ran).symm).network
  have found : (Option.get _ ran).network.calls[0]? = some ⟨.addNewPost, _⟩ := rfl
  refine ⟨_, _, run, found, ⟨rfl, rfl⟩, (publication run rfl found ⟨rfl, rfl⟩).2.1.mpr ?_⟩
  exact writes_forall.mpr ⟨rfl, rfl, rfl⟩

/-- The upload fails after the post has been written: the post stays, an error is reported. -/
theorem publication_partial :
    ¬ ∀ (s : Network api Backend) (c : Call addNewPost),
      Network.Run backend Publishing { world := {} } s → s.calls[0]? = some ⟨.addNewPost, c⟩ →
      c.Finished → (Stored s.world (.post c.input.postKey) ↔ none ∈ c.reports) := by
  intro all_or_nothing
  have ran : ((Device.boot {} none).exec Publishing (publish false true)).isSome := rfl
  have run := (Device.exec_run (Option.some_get ran).symm).network
  have found : (Option.get _ ran).network.calls[0]? = some ⟨.addNewPost, _⟩ := rfl
  have agree := all_or_nothing _ _ run found ⟨rfl, rfl⟩
  have reported := agree.mp rfl
  cases List.mem_singleton.mp reported

end SimpleSNS.AddNewPost
