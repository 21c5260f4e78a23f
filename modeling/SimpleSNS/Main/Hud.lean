import SimpleSNS.APIHandler.Answers
import SimpleSNS.Async.Client
import SimpleSNS.Main.EditProfile
import SimpleSNS.Main.SignUp

/-!
The actions that raise the progress HUD, each as a client of the handler that reports when it shows
the HUD and when it dismisses it. A finished call of an action has dismissed the HUD last, if its
requests had answers after which a completion comes.
-/

namespace SimpleSNS
open Async

inductive Hud where
  | shown
  | dismissed
  deriving DecidableEq

/-- A block of the main queue dismisses the HUD or leaves it alone. -/
inductive HudBlock where
  | dismiss
  | other

def HudBlock.run : HudBlock → List Hud
  | .dismiss => [.dismissed]
  | .other => []

namespace Hud

/-- One flag, set by each show and cleared by each dismiss. -/
def flag : Bool → Hud → Bool
  | _, .shown => true
  | _, .dismissed => false

/-! ### The actions -/

/-- The body queues a block that dismisses the HUD. -/
abbrev raise : Client (.idle : Program Session) Hud where
  Input := Unit
  Block := HudBlock
  body _ := .ok { reported := [.shown], queued := [.dismiss] }
  completion report := nomatch report
  run := HudBlock.run

abbrev selectImgActionBtn : Client (.idle : Program Session) Hud := raise
abbrev selectNewImageBtn : Client (.idle : Program Session) Hud := raise
abbrev imgSelectBtn : Client (.idle : Program Session) Hud := raise

/-- The storyboard has the map's controller. -/
abbrev mapBarButton : Client (.idle : Program Session) Hud := raise

/-- `SettingViewController.actionBtn` -/
abbrev logout : Client (.idle : Program Session) Hud := raise

/-- Every completion of a load dismisses the HUD. -/
abbrev load (P : Program Session) (input : P.Input) : Client P Hud where
  Input := Unit
  Block := HudBlock
  body _ := .ok { reported := [.shown], called := some input }
  completion _ := .ok [.dismiss]
  run := HudBlock.run

abbrev fetchPost : Client fetchAllPost Hud := load fetchAllPost ()
abbrev fetchFriends : Client fetchFriendList Hud := load fetchFriendList ()

/-- The result is cast to a list by force. -/
abbrev fetchAllUser : Client fetchAllUsers Hud where
  Input := Unit
  Block := HudBlock
  body _ := .ok { reported := [.shown], called := some () }
  completion
    | some _ => .ok [.dismiss]
    | none => .error .failedCast
  run := HudBlock.run

structure SignInTap where
  tag : Nat
  userId : String
  passwd : String

/-- `SignInViewController.actionBtn`. The other buttons leave the screen. -/
abbrev actionBtn : Client signIn Hud where
  Input := SignInTap
  Block := HudBlock
  deferred := true
  body tap :=
    match tap.tag with
    | 3 => .ok { reported := [.shown], called := some ⟨tap.userId, tap.passwd⟩ }
    | _ => .ok {}
  completion
    | (_, none) => .ok [.dismiss]
    | (_, some _) => .ok [.other]
  run := HudBlock.run

/-- What the registration block of `submitActionBtn` reads of its screen. -/
structure Registration where
  userInfo : Option UserModel
  image : UIImage

/-- A registration without a model shows the HUD and ends. -/
abbrev register : Client signUpNewUser Hud where
  Input := Registration
  Block := HudBlock
  body r :=
    match r.userInfo with
    | some _ =>
      match submitActionBtn r.userInfo r.image with
      | some input => .ok { reported := [.shown], called := some input }
      | none => .ok { reported := [.shown, .dismissed] }
    | none => .ok { reported := [.shown] }
  completion _ := .ok [.dismiss]
  run := HudBlock.run

/-- `viewDidLoad` of Edit Profile calls `fetchUser` and `fetchUserProfileImg`. A picture that fails
leaves the HUD alone. -/
abbrev editProfile : Client (fetchCurrentUser.both fetchCurrentUserImage) Hud where
  Input := Unit
  Block := HudBlock
  body _ := .ok { reported := [.shown, .shown], called := some ((), ()) }
  completion
    | .inl _ => .ok [.dismiss]
    | .inr (_, none) => .ok [.dismiss]
    | .inr (_, some _) => .ok []
  run := HudBlock.run

/-- A save without a model shows the HUD and ends. -/
abbrev saveBarBtn : Client updateUserInformation Hud where
  Input := EditProfileViewController
  Block := HudBlock
  body v :=
    match v.userInfoArray with
    | some _ => do
      match ← v.saveBarBtn with
      | some input => return { reported := [.shown], called := some input }
      | none => return { reported := [.shown, .dismissed] }
    | none => .ok { reported := [.shown] }
  completion _ := .ok [.dismiss]
  run := HudBlock.run

structure NewPost where
  text : String
  selectPostImg : Option UIImage
  postKey : String
  time : Rat

/-- The message about the result has a block of its own. -/
abbrev postBarButton : Client addNewPost Hud where
  Input := NewPost
  Block := HudBlock
  body post := do
    let postImg ← unwrap post.selectPostImg
    return { reported := [.shown], called := some ⟨post.text, postImg, post.postKey, post.time⟩ }
  completion _ := .ok [.dismiss, .other]
  run := HudBlock.run

end Hud

inductive Action where
  | actionBtn
  | register
  | selectImgActionBtn
  | fetchPost
  | fetchAllUser
  | mapBarButton
  | fetchFriends
  | editProfile
  | selectNewImageBtn
  | saveBarBtn
  | imgSelectBtn
  | postBarButton
  | logout
  deriving DecidableEq

/-- The program of the handler that the action calls. -/
abbrev handler : Action → Program Session
  | .actionBtn => signIn
  | .register => signUpNewUser
  | .fetchPost => fetchAllPost
  | .fetchAllUser => fetchAllUsers
  | .fetchFriends => fetchFriendList
  | .editProfile => fetchCurrentUser.both fetchCurrentUserImage
  | .saveBarBtn => updateUserInformation
  | .postBarButton => addNewPost
  | .selectImgActionBtn | .mapBarButton | .selectNewImageBtn | .imgSelectBtn | .logout => .idle

abbrev client : (k : Action) → Client (handler k) Hud
  | .actionBtn => Hud.actionBtn
  | .register => Hud.register
  | .selectImgActionBtn => Hud.selectImgActionBtn
  | .fetchPost => Hud.fetchPost
  | .fetchAllUser => Hud.fetchAllUser
  | .mapBarButton => Hud.mapBarButton
  | .fetchFriends => Hud.fetchFriends
  | .editProfile => Hud.editProfile
  | .selectNewImageBtn => Hud.selectNewImageBtn
  | .saveBarBtn => Hud.saveBarBtn
  | .imgSelectBtn => Hud.imgSelectBtn
  | .postBarButton => Hud.postBarButton
  | .logout => Hud.logout

abbrev app (k : Action) : Program Session := (client k).program

/-! ### What ends with a dismiss -/

/-- The answers to an action after which a completion is still to come. -/
def Action.Proceeds : (k : Action) → (r : (handler k).Request) → (handler k).Answer r → Prop
  | .actionBtn => SignIn.Proceeds
  | .register => SignUpNewUser.Proceeds
  | .fetchPost => FetchAllPost.Proceeds
  | .fetchFriends => FetchFriendList.Proceeds
  | _ => fun _ _ => True

/-- Both screens with a model of their own have it. -/
def Action.Fits : (k : Action) → (app k).Input → Prop
  | .register, (r : Hud.Registration) => r.userInfo.isSome
  | .saveBarBtn, (v : EditProfileViewController) => v.userInfoArray.isSome
  | _, _ => True

/-- Blocks never show the HUD; a body that calls nothing leaves it dismissed; and some report of
every finished call is met with a dismiss. -/
structure Hud.Lowers {P : Program Session} (C : Client P Hud) (G : (r : P.Request) → P.Answer r → Prop)
    (fits : C.Input → Prop) : Prop where
  blocks : ∀ b, ∀ x ∈ C.run b, x = .dismissed
  bodies : ∀ input o, fits input → C.body input = .ok o → o.called = none →
    (o.reported ++ o.queued.flatMap C.run).getLast? ≠ some .shown
  reports : ∀ c : Call P, c.Reachable (Call.Answered G) → c.Finished →
    ∃ x ∈ c.reports, ∀ blocks, C.completion x = .ok blocks → ∃ b ∈ blocks, C.run b ≠ []

theorem HudBlock.run_dismissed (b : HudBlock) : ∀ x ∈ b.run, x = .dismissed := by
  intro x member
  cases b with
  | dismiss => exact List.mem_singleton.mp member
  | other => cases member

namespace Hud

variable {P : Program Session} {C : Client P Hud} {G : (r : P.Request) → P.Answer r → Prop}
  {fits : C.Input → Prop}

theorem Lowers.finished {c : Call C.program} (lowers : Lowers C G fits)
    (reachable : c.Reachable (Call.Answered (P := C.program) G)) (fit : fits c.input)
    (finished : c.Finished) : c.reports.getLast? ≠ some .shown := by
  obtain ⟨o, body, ⟨called, _, reports⟩ | ⟨i, called, c₀, blocks, inner, done, _, met, reports⟩⟩ :=
    Client.finished_reports reachable finished
  · rw [reports]
    exact lowers.bodies _ o fit body called
  · obtain ⟨x, reported, dismisses⟩ := lowers.reports c₀ inner done
    obtain ⟨completion, completed, part⟩ := Client.completions_mem met reported
    obtain ⟨b, queued, runs⟩ := dismisses completion completed
    have dismissed : (o.queued ++ blocks).flatMap C.run ≠ [] := by
      intro nothing
      exact runs (List.flatMap_eq_nil_iff.mp nothing b (List.mem_append_right _ (part queued)))
    rw [reports, List.getLast?_append_of_ne_nil _ dismissed]
    intro last
    obtain ⟨b, _, member⟩ := List.mem_flatMap.mp (List.mem_of_getLast? last)
    cases lowers.blocks b _ member

/-! ### Each action -/

theorem dismisses {completion : List HudBlock} (first : .dismiss ∈ completion) (blocks : List HudBlock)
    (met : (.ok completion : Except Trap (List HudBlock)) = .ok blocks) : ∃ b ∈ blocks, b.run ≠ [] := by
  obtain rfl := Except.ok.inj met
  exact ⟨.dismiss, first, List.cons_ne_nil _ _⟩

theorem raise_lowers {G : (r : Empty) → Unit → Prop} : Lowers raise G (fun _ => True) where
  blocks := HudBlock.run_dismissed
  bodies input o _ ran _ := by
    obtain rfl := Except.ok.inj ran
    decide
  reports c := nomatch c.input

theorem load_lowers {G : (r : P.Request) → P.Answer r → Prop} {input : P.Input}
    (reported : ∀ c : Call P, c.Reachable (Call.Answered G) → c.Finished → c.reports ≠ []) :
    Lowers (load P input) G (fun _ => True) where
  blocks := HudBlock.run_dismissed
  bodies _ o _ ran called := by
    obtain rfl := Except.ok.inj ran
    cases called
  reports c reachable finished := by
    obtain ⟨x, member⟩ := List.exists_mem_of_ne_nil _ (reported c reachable finished)
    exact ⟨x, member, dismisses (List.mem_singleton_self _)⟩

theorem fetchAllUser_lowers : Lowers fetchAllUser (fun _ _ => True) (fun _ => True) where
  blocks := HudBlock.run_dismissed
  bodies _ o _ ran called := by
    obtain rfl := Except.ok.inj ran
    cases called
  reports c reachable finished := by
    obtain ⟨report, reports⟩ := FetchAllUsers.finished_reported
      (reachable.weaken fun _ _ _ _ => trivial) finished
    refine ⟨report, reports ▸ List.mem_singleton_self _, ?_⟩
    intro blocks met
    cases report with
    | none => cases met
    | some users => exact dismisses (List.mem_singleton_self _) blocks met

theorem actionBtn_lowers : Lowers actionBtn SignIn.Proceeds (fun _ => True) where
  blocks := HudBlock.run_dismissed
  bodies tap o _ ran called := by
    change (match tap.tag with | 3 => _ | _ => _) = Except.ok o at ran
    split at ran
    · obtain rfl := Except.ok.inj ran
      cases called
    · obtain rfl := Except.ok.inj ran
      decide
  reports c reachable finished := by
    obtain ⟨⟨user, error⟩, reported, same⟩ := SignIn.relays.closed_reported reachable finished.1
    change error = none at same
    subst same
    exact ⟨_, reported, dismisses (List.mem_singleton_self _)⟩

/-- A chain of requests ends with a report, and each report with a dismiss. -/
theorem relayed {completion : List HudBlock} {Q : P.Request → Prop} {c : Call P}
    (relays : Relays P G Q (fun _ => True)) (first : .dismiss ∈ completion)
    (reachable : c.Reachable (Call.Answered G)) (finished : c.Finished) :
    ∃ x ∈ c.reports, ∀ blocks, (.ok completion : Except Trap (List HudBlock)) = .ok blocks →
      ∃ b ∈ blocks, b.run ≠ [] := by
  obtain ⟨x, reported, _⟩ := relays.closed_reported reachable finished.1
  exact ⟨x, reported, dismisses first⟩

theorem register_lowers :
    Lowers register SignUpNewUser.Proceeds (fun r => r.userInfo.isSome) where
  blocks := HudBlock.run_dismissed
  bodies r o fits ran called := by
    obtain ⟨userObj, present⟩ := Option.isSome_iff_exists.mp fits
    simp only [present] at ran
    split at ran
    · obtain rfl := Except.ok.inj ran
      cases called
    · obtain rfl := Except.ok.inj ran
      decide
  reports c reachable finished :=
    relayed SignUpNewUser.relays (List.mem_singleton_self _) reachable finished

theorem editProfile_lowers : Lowers editProfile (fun _ _ => True) (fun _ => True) where
  blocks := HudBlock.run_dismissed
  bodies _ o _ ran called := by
    obtain rfl := Except.ok.inj ran
    cases called
  reports c reachable finished := by
    have relays : Relays (fetchCurrentUser.both fetchCurrentUserImage) (fun _ _ => True) _ _ :=
      FetchCurrentUser.relays.both fun _ _ _ => trivial
    obtain ⟨x, reported, userData, rfl, _⟩ := relays.closed_reported reachable finished.1
    exact ⟨_, reported, dismisses (List.mem_singleton_self _)⟩

theorem saveBarBtn_lowers :
    Lowers saveBarBtn (fun _ _ => True) (fun v => v.userInfoArray.isSome) where
  blocks := HudBlock.run_dismissed
  bodies v o fits ran called := by
    obtain ⟨updateObj, present⟩ := Option.isSome_iff_exists.mp fits
    simp only [present] at ran
    obtain ⟨input, checked, rest⟩ := bind_ok.mp ran
    cases input with
    | some input =>
      obtain rfl := Except.ok.inj rest
      cases called
    | none =>
      obtain rfl := Except.ok.inj rest
      decide
  reports c reachable finished :=
    relayed UpdateUserInformation.relays (List.mem_singleton_self _) reachable finished

theorem postBarButton_lowers : Lowers postBarButton (fun _ _ => True) (fun _ => True) where
  blocks := HudBlock.run_dismissed
  bodies post o _ ran called := by
    obtain ⟨postImg, _, same⟩ := bind_ok.mp ran
    obtain rfl := Except.ok.inj same
    cases called
  reports c reachable finished := by
    obtain ⟨x, reported⟩ := List.exists_mem_of_ne_nil _ (AddNewPost.finished_reported reachable finished)
    exact ⟨x, reported, dismisses List.mem_cons_self⟩

theorem lowers : (k : Action) → Lowers (client k) k.Proceeds k.Fits
  | .actionBtn => actionBtn_lowers
  | .register => register_lowers
  | .selectImgActionBtn => raise_lowers
  | .fetchPost => load_lowers fun c reachable finished => by
    obtain ⟨list, reports⟩ := FetchAllPost.finished_reported reachable finished
    rw [reports]
    exact List.cons_ne_nil _ _
  | .fetchAllUser => fetchAllUser_lowers
  | .mapBarButton => raise_lowers
  | .fetchFriends => load_lowers fun _ => FetchFriendList.finished_reported
  | .editProfile => editProfile_lowers
  | .selectNewImageBtn => raise_lowers
  | .saveBarBtn => saveBarBtn_lowers
  | .imgSelectBtn => raise_lowers
  | .postBarButton => postBarButton_lowers
  | .logout => raise_lowers

/-! ### What leaves the HUD up -/

/-- A body that does not fit shows the HUD and ends, a body that calls the handler has shown it last,
and after an excluded answer the handler reports nothing. -/
structure Strands (C : Client P Hud) (G : (r : P.Request) → P.Answer r → Prop) (fits : C.Input → Prop) :
    Prop where
  unfit : ∀ input o, ¬ fits input → C.body input = .ok o →
    o.called = none ∧ (o.reported ++ o.queued.flatMap C.run).getLast? = some .shown
  calling : ∀ input o, C.body input = .ok o → o.called ≠ none →
    o.queued = [] ∧ o.reported.getLast? = some .shown
  silent : ∀ c : Call P, c.Reachable Call.AnyStep → c.Finished → (∃ x ∈ c.delivered, ¬ G x.1 x.2) →
    c.reports = []

theorem Strands.finished {c : Call C.program} (strands : Strands C G fits)
    (reachable : c.Reachable Call.AnyStep) (finished : c.Finished)
    (excluded : ¬ fits c.input ∨ ∃ x ∈ c.delivered, ¬ G x.1 x.2) : c.reports.getLast? = some .shown := by
  have answered : c.Reachable (Call.Answered (P := C.program) fun _ _ => True) :=
    reachable.of_delivered fun _ _ => trivial
  obtain ⟨o, body, ⟨called, delivered, reports⟩ |
    ⟨i, called, c₀, blocks, inner, done, delivered, met, reports⟩⟩ :=
    Client.finished_reports answered finished
  · rw [reports]
    rcases excluded with unfit | ⟨x, member, _⟩
    · exact (strands.unfit _ o unfit body).2
    · rw [delivered] at member
      cases member
  · rcases excluded with unfit | bad
    · have none_called := (strands.unfit _ o unfit body).1
      rw [called] at none_called
      cases none_called
    · have silent := strands.silent c₀ (inner.weaken fun _ _ _ _ => trivial) done (delivered ▸ bad)
      obtain ⟨queued, shown⟩ := strands.calling _ o body (called ▸ Option.some_ne_none i)
      rw [silent] at met
      obtain rfl := Except.ok.inj met
      rw [reports, queued, List.append_nil, List.flatMap_nil, List.append_nil]
      exact shown

theorem load_strands {input : P.Input} (silent : ∀ c : Call P, c.Reachable Call.AnyStep → c.Finished →
    (∃ x ∈ c.delivered, ¬ G x.1 x.2) → c.reports = []) : Strands (load P input) G (fun _ => True) where
  unfit _ _ unfit := absurd trivial unfit
  calling _ o ran _ := by
    obtain rfl := Except.ok.inj ran
    exact ⟨rfl, rfl⟩
  silent := silent

theorem actionBtn_strands : Strands actionBtn SignIn.Proceeds (fun _ => True) where
  unfit _ _ unfit := absurd trivial unfit
  calling tap o ran called := by
    change (match tap.tag with | 3 => _ | _ => _) = Except.ok o at ran
    split at ran
    · obtain rfl := Except.ok.inj ran
      exact ⟨rfl, rfl⟩
    · obtain rfl := Except.ok.inj ran
      exact absurd rfl called
  silent _ reachable _ := (SignIn.chains.reachable_linked reachable).silent

theorem register_strands : Strands register SignUpNewUser.Proceeds (fun r => r.userInfo.isSome) where
  unfit r o unfit ran := by
    simp only [Option.not_isSome_iff_eq_none.mp unfit] at ran
    obtain rfl := Except.ok.inj ran
    exact ⟨rfl, rfl⟩
  calling r o ran called := by
    change (match r.userInfo with | some _ => _ | none => _) = Except.ok o at ran
    split at ran
    · split at ran
      · obtain rfl := Except.ok.inj ran
        exact ⟨rfl, rfl⟩
      · obtain rfl := Except.ok.inj ran
        exact absurd rfl called
    · obtain rfl := Except.ok.inj ran
      exact absurd rfl called
  silent _ reachable _ := (SignUpNewUser.chains.reachable_linked reachable).silent

theorem saveBarBtn_strands :
    Strands saveBarBtn (fun _ _ => True) (fun v => v.userInfoArray.isSome) where
  unfit v o unfit ran := by
    simp only [Option.not_isSome_iff_eq_none.mp unfit] at ran
    obtain rfl := Except.ok.inj ran
    exact ⟨rfl, rfl⟩
  calling v o ran called := by
    change (match v.userInfoArray with | some _ => _ | none => _) = Except.ok o at ran
    split at ran
    · obtain ⟨input, _, rest⟩ := bind_ok.mp ran
      cases input with
      | some input =>
        obtain rfl := Except.ok.inj rest
        exact ⟨rfl, rfl⟩
      | none =>
        obtain rfl := Except.ok.inj rest
        exact absurd rfl called
    · obtain rfl := Except.ok.inj ran
      exact absurd rfl called
  silent _ _ _ := fun ⟨_, _, bad⟩ => absurd trivial bad

theorem stranded : (k : Action) → (c : Call (app k)) → c.Reachable Call.AnyStep → c.Finished →
    (¬ k.Fits c.input ∨ ∃ x ∈ c.delivered, ¬ k.Proceeds x.1 x.2) → c.reports.getLast? = some .shown
  | .actionBtn, _, reachable, finished, excluded => actionBtn_strands.finished reachable finished excluded
  | .register, _, reachable, finished, excluded => register_strands.finished reachable finished excluded
  | .fetchPost, _, reachable, finished, excluded =>
    (load_strands fun _ reachable _ => FetchAllPost.silent reachable).finished reachable finished excluded
  | .fetchFriends, _, reachable, finished, excluded =>
    (load_strands fun _ => FetchFriendList.silent).finished reachable finished excluded
  | .saveBarBtn, _, reachable, finished, excluded =>
    saveBarBtn_strands.finished reachable finished excluded
  | .selectImgActionBtn, _, _, _, excluded
  | .fetchAllUser, _, _, _, excluded
  | .mapBarButton, _, _, _, excluded
  | .editProfile, _, _, _, excluded
  | .selectNewImageBtn, _, _, _, excluded
  | .imgSelectBtn, _, _, _, excluded
  | .postBarButton, _, _, _, excluded
  | .logout, _, _, _, excluded =>
    (excluded.elim (absurd trivial) fun ⟨_, _, bad⟩ => absurd trivial bad)

/-- A finished call leaves the HUD up exactly when its screen had no model or some callback was run with
an answer that no completion follows. -/
theorem shown_iff {k : Action} {c : Call (app k)} (reachable : c.Reachable Call.AnyStep)
    (finished : c.Finished) : c.reports.getLast? = some .shown ↔
      ¬ k.Fits c.input ∨ ∃ x ∈ c.delivered, ¬ k.Proceeds x.1 x.2 := by
  constructor
  · intro shown
    by_contra every
    obtain ⟨fits, proceeds⟩ := not_or.mp every
    have answered : c.Reachable (Call.Answered (P := app k) k.Proceeds) := by
      apply reachable.of_delivered
      intro x member
      by_contra bad
      exact proceeds ⟨x, member, bad⟩
    exact (lowers k).finished answered (not_not.mp fits) finished shown
  · exact stranded k c reachable finished

end Hud

end SimpleSNS
