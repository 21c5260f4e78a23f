import SimpleSNS.APIHandler.Outcomes
import SimpleSNS.Main.Hud

/-!
What the forms tell their user. Each is a client of the handler that reports the messages it shows; a
finished call has shown one message when every answer was good, and otherwise the errors.
-/

namespace SimpleSNS
open Async

inductive TWMessageBarMessageType where
  | error
  | success
  | info
  deriving DecidableEq

structure Message where
  title : String
  description : Option String
  type : TWMessageBarMessageType
  deriving DecidableEq

/-- `error?.localizedDescription` -/
def Message.failure (error : Error) : Message := ⟨"Error", some error.localizedDescription, .error⟩

/-! ### The forms -/

namespace Messages
open Message

/-- The body of an action, without the HUD. -/
def calls {I B : Type} (o : Opening I B Hud) : Opening I (List Message) Message := { called := o.called }

abbrev actionBtn : Client signIn Message where
  Input := Hud.SignInTap
  Block := List Message
  deferred := true
  body tap := (Hud.actionBtn.body tap).map calls
  completion
    | (_, none) => .ok [[⟨"Success", some "Successfully logged in", .success⟩]]
    | (_, some error) => .ok [[failure error]]
  run := id

abbrev register : Client signUpNewUser Message where
  Input := Hud.Registration
  Block := List Message
  body r := (Hud.register.body r).map calls
  completion
    | (_, none) => .ok [[⟨"Success", some "Successfully registered for new user", .success⟩]]
    | (_, some error) => .ok [[failure error]]
  run := id

abbrev saveBarBtn : Client updateUserInformation Message where
  Input := EditProfileViewController
  Block := List Message
  body v := (Hud.saveBarBtn.body v).map calls
  completion
    | (_, none) => .ok [[⟨"Success", some "Successfully updated user profile", .success⟩]]
    | (_, some error) => .ok [[failure error]]
  run := id

/-- The HUD is dismissed in a block of its own. -/
abbrev postBarButton : Client addNewPost Message where
  Input := Hud.NewPost
  Block := List Message
  body post := (Hud.postBarButton.body post).map calls
  completion
    | none => .ok [[], [⟨"Sucess", some "Successfully posted", .success⟩]]
    | some error => .ok [[], [failure error]]
  run := id

/-- `ForgotPasswordViewController.submitActionBtn` -/
abbrev submitActionBtn : Client forgotPassword Message where
  Input := String
  Block := List Message
  body emailId := .ok { called := some emailId }
  completion
    | none => .ok [[⟨"Reset", some "Sent to your email", .info⟩]]
    | some error => .ok [[failure error]]
  run := id

end Messages

inductive Form where
  | actionBtn
  | register
  | saveBarBtn
  | postBarButton
  | submitActionBtn
  deriving DecidableEq

namespace Form

/-- The program of the handler that the form calls. -/
abbrev handler : Form → Program Session
  | .actionBtn => signIn
  | .register => signUpNewUser
  | .saveBarBtn => updateUserInformation
  | .postBarButton => addNewPost
  | .submitActionBtn => forgotPassword

abbrev client : (k : Form) → Client k.handler Message
  | .actionBtn => Messages.actionBtn
  | .register => Messages.register
  | .saveBarBtn => Messages.saveBarBtn
  | .postBarButton => Messages.postBarButton
  | .submitActionBtn => Messages.submitActionBtn

/-- The message of a form whose every answer was good. -/
def success : Form → Message
  | .actionBtn => ⟨"Success", some "Successfully logged in", .success⟩
  | .register => ⟨"Success", some "Successfully registered for new user", .success⟩
  | .saveBarBtn => ⟨"Success", some "Successfully updated user profile", .success⟩
  | .postBarButton => ⟨"Sucess", some "Successfully posted", .success⟩
  | .submitActionBtn => ⟨"Reset", some "Sent to your email", .info⟩

def error : (k : Form) → (r : k.handler.Request) → k.handler.Answer r → Option Error
  | .actionBtn, _, (answer : Option String × Option Error) => answer.2
  | .register, .createUser _ _, (answer : Option String × Option Error) => answer.2
  | .register, .setValue _ _, (error : Option Error) => error
  | .register, .uploadImage _ _, (error : Option Error) => error
  | .saveBarBtn, _, error => error
  | .postBarButton, _, error => error
  | .submitActionBtn, _, error => error

/-- Auth has to hand out a user, besides. -/
def Good : (k : Form) → (r : k.handler.Request) → k.handler.Answer r → Prop
  | .actionBtn, _, (answer : Option String × Option Error) => answer.1.isSome ∧ answer.2 = none
  | .register, .createUser _ _, (answer : Option String × Option Error) => answer.1.isSome ∧ answer.2 = none
  | k, r, a => k.error r a = none

/-- A refused sign-in is not passed on, so its message is never shown. -/
def complaints : (k : Form) → (r : k.handler.Request) → k.handler.Answer r → List Message
  | .actionBtn, _, _ => []
  | k, r, a => (k.error r a).toList.map Message.failure

/-- The form calls nothing: the user to register or to save is missing or lacks one of the fields that are
looked at, or the button of the sign-in screen is another one. What the other two forms hold is sent. -/
def Unfilled : (k : Form) → k.client.Input → Prop
  | .actionBtn, (tap : Hud.SignInTap) => tap.tag ≠ 3
  | .register, (r : Hud.Registration) => ∀ user ∈ r.userInfo, none ∈ [user.firstName, user.lastName,
      user.emailId, user.address, user.phoneNumber, user.password, user.latitude, user.longitude]
  | .saveBarBtn, (v : EditProfileViewController) =>
    ∀ user ∈ v.userInfoArray, none ∈ [user.firstName, user.lastName, user.address, user.phoneNumber]
  | .postBarButton, _ => False
  | .submitActionBtn, _ => False

end Form

/-! ### What a form sends -/

theorem submitActionBtn_none {userInfo : Option UserModel} {img : UIImage} :
    submitActionBtn userInfo img = none ↔ Form.register.Unfilled ⟨userInfo, img⟩ := by
  cases userInfo with
  | none => exact iff_of_true rfl fun _ missing => nomatch missing
  | some user =>
    simp only [submitActionBtn, ite_eq_right_iff, reduceCtorEq, imp_false, Form.Unfilled,
      Option.mem_some_iff, forall_eq', List.mem_cons, List.not_mem_nil, or_false, Option.isSome_iff_ne_none]
    tauto

theorem EditProfileViewController.saveBarBtn_none {v : EditProfileViewController}
    {input : Option UpdateUserInformation.Input} (ran : v.saveBarBtn = .ok input) :
    input = none ↔ Form.saveBarBtn.Unfilled v := by
  unfold EditProfileViewController.saveBarBtn at ran
  show _ ↔ ∀ user ∈ v.userInfoArray, _
  cases model : v.userInfoArray with
  | none =>
    rw [model] at ran
    obtain rfl := Except.ok.inj ran
    exact iff_of_true rfl fun _ missing => nomatch missing
  | some user =>
    simp only [model] at ran
    split at ran
    · rename_i checked
      obtain ⟨image, _, same⟩ := bind_ok.mp ran
      obtain rfl := Except.ok.inj same
      refine iff_of_false (Option.some_ne_none _) ?_
      intro unfilled
      have missing := unfilled user rfl
      simp only [Option.isSome_iff_ne_none] at checked
      simp only [List.mem_cons, List.not_mem_nil, or_false] at missing
      tauto
    · rename_i unchecked
      obtain rfl := Except.ok.inj ran
      refine iff_of_true rfl ?_
      intro found same
      obtain rfl := Option.mem_some_iff.mp same
      simp only [Option.isSome_iff_ne_none] at unchecked
      simp only [List.mem_cons, List.not_mem_nil, or_false]
      tauto

/-! ### What a call tells -/

namespace Messages

/-- The body shows nothing. The completions show one message after good answers only, and otherwise what
there is to complain of in each answer. -/
structure Tells {P : Program Session} (C : Client P Message) (success : Message)
    (Good : (r : P.Request) → P.Answer r → Prop) (complaints : (r : P.Request) → P.Answer r → List Message) :
    Prop where
  bodies : ∀ input o, C.body input = .ok o → o.reported = [] ∧ o.queued = []
  finished : ∀ (c : Call P) blocks, c.Reachable Call.AnyStep → c.Finished →
    C.completions c.reports = .ok blocks → c.delivered ≠ [] ∧
      ((∀ x ∈ c.delivered, Good x.1 x.2) ∧ blocks.flatMap C.run = [success] ∨
        (∃ x ∈ c.delivered, ¬ Good x.1 x.2) ∧
          blocks.flatMap C.run = c.delivered.flatMap fun x => complaints x.1 x.2)

variable {P : Program Session} {C : Client P Message} {success : Message}
  {Good : (r : P.Request) → P.Answer r → Prop} {complaints : (r : P.Request) → P.Answer r → List Message}
  {goesOn : (r : P.Request) → P.Answer r → Prop} {outcome : (r : P.Request) → P.Answer r → List P.Report}

/-- Where one report comes of the last answer, only this answer counts. -/
theorem tells_last (bodies : ∀ input o, C.body input = .ok o → o.reported = [] ∧ o.queued = [])
    (concludes : Concludes P goesOn outcome)
    (onward : ∀ r a, goesOn r a → Good r a ∧ complaints r a = [])
    (last : ∀ r a blocks, ¬ goesOn r a → C.completions (outcome r a) = .ok blocks →
      Good r a ∧ blocks.flatMap C.run = [success] ∨ ¬ Good r a ∧ blocks.flatMap C.run = complaints r a) :
    Tells C success Good complaints where
  bodies := bodies
  finished c blocks reachable done met := by
    obtain ⟨earlier, r, a, delivered, good, ends, reports⟩ := concludes.finished reachable done.1
    rw [reports] at met
    have nothing : earlier.flatMap (fun x => complaints x.1 x.2) = [] :=
      List.flatMap_eq_nil_iff.mpr fun x member => (onward _ _ (good x member)).2
    rw [delivered]
    refine ⟨List.append_ne_nil_of_right_ne_nil _ (List.cons_ne_nil _ _), ?_⟩
    rcases last r a blocks ends met with ⟨accepted, shown⟩ | ⟨refused, shown⟩
    · refine Or.inl ⟨?_, shown⟩
      intro x member
      rcases List.mem_append.mp member with before | here
      · exact (onward _ _ (good x before)).1
      · obtain rfl := List.mem_singleton.mp here
        exact accepted
    · refine Or.inr ⟨⟨⟨r, a⟩, List.mem_append_right _ List.mem_cons_self, refused⟩, ?_⟩
      rw [List.flatMap_append, nothing, shown]
      exact (List.append_nil _).symm

theorem calls_silent {I B : Type} {body : Except Trap (Opening I B Hud)}
    {o : Opening I (List Message) Message} (ran : body.map calls = .ok o) :
    o.reported = [] ∧ o.queued = [] := by
  cases body with
  | error t => cases ran
  | ok o' =>
    obtain rfl := Except.ok.inj ran
    exact ⟨rfl, rfl⟩

theorem actionBtn_tells : Tells actionBtn Form.actionBtn.success Form.actionBtn.Good Form.actionBtn.complaints :=
  tells_last (fun _ _ ran => calls_silent ran) SignIn.concludes (fun _ _ more => more.elim) <| by
    intro r answer blocks _ met
    obtain ⟨_ | user, _ | error⟩ := answer <;> obtain rfl := Except.ok.inj met
    · exact Or.inr ⟨fun good => (nomatch good.1), rfl⟩
    · exact Or.inr ⟨fun good => (nomatch good.1), rfl⟩
    · exact Or.inl ⟨⟨rfl, rfl⟩, rfl⟩
    · exact Or.inr ⟨fun good => (nomatch good.2), rfl⟩

theorem register_tells : Tells register Form.register.success Form.register.Good Form.register.complaints :=
  tells_last (fun _ _ ran => calls_silent ran) SignUpNewUser.concludes
    (by
      intro r answer more
      cases r with
      | createUser email password =>
        obtain ⟨result, error⟩ := answer
        obtain ⟨found, rfl⟩ := more
        exact ⟨⟨found, rfl⟩, rfl⟩
      | setValue uid userInfo =>
        obtain rfl : answer = none := more
        exact ⟨rfl, rfl⟩
      | uploadImage userId img => exact more.elim)
    (by
      intro r answer blocks ends met
      cases r with
      | createUser email password =>
        obtain ⟨_ | uid, _ | error⟩ := answer <;> obtain rfl := Except.ok.inj met
        · exact Or.inr ⟨fun good => (nomatch good.1), rfl⟩
        · exact Or.inr ⟨fun good => (nomatch good.1), rfl⟩
        · exact absurd ⟨rfl, rfl⟩ ends
        · exact Or.inr ⟨fun good => (nomatch good.2), rfl⟩
      | setValue uid userInfo =>
        obtain _ | error := answer <;> obtain rfl := Except.ok.inj met
        · exact absurd rfl ends
        · exact Or.inr ⟨fun good => (nomatch good), rfl⟩
      | uploadImage userId img =>
        obtain _ | error := answer <;> obtain rfl := Except.ok.inj met
        · exact Or.inl ⟨rfl, rfl⟩
        · exact Or.inr ⟨fun good => (nomatch good), rfl⟩)

theorem saveBarBtn_tells :
    Tells saveBarBtn Form.saveBarBtn.success Form.saveBarBtn.Good Form.saveBarBtn.complaints :=
  tells_last (fun _ _ ran => calls_silent ran) UpdateUserInformation.concludes
    (by
      intro r error more
      cases r with
      | updateChildValues uid userInfo =>
        obtain rfl : error = none := more
        exact ⟨rfl, rfl⟩
      | uploadImage userId img => exact more.elim)
    (by
      intro r error blocks ends met
      cases r with
      | updateChildValues uid userInfo =>
        obtain _ | error := error <;> obtain rfl := Except.ok.inj met
        · exact absurd rfl ends
        · exact Or.inr ⟨fun good => (nomatch good), rfl⟩
      | uploadImage userId img =>
        obtain _ | error := error <;> obtain rfl := Except.ok.inj met
        · exact Or.inl ⟨rfl, rfl⟩
        · exact Or.inr ⟨fun good => (nomatch good), rfl⟩)

theorem submitActionBtn_tells : Tells submitActionBtn Form.submitActionBtn.success
    Form.submitActionBtn.Good Form.submitActionBtn.complaints :=
  tells_last (fun _ _ ran => by obtain rfl := Except.ok.inj ran; exact ⟨rfl, rfl⟩)
    ForgotPassword.concludes (fun _ _ more => more.elim) <| by
    intro r error blocks _ met
    obtain _ | error := error <;> obtain rfl := Except.ok.inj met
    · exact Or.inl ⟨rfl, rfl⟩
    · exact Or.inr ⟨fun good => (nomatch good), rfl⟩

/-- Each error of a new post is told, in its turn. -/
theorem errors_told {delivered : Replies addNewPost} {blocks : List (List Message)}
    (met : postBarButton.completions (AddNewPost.errors delivered) = .ok blocks) :
    blocks.flatMap id = delivered.flatMap fun x => Form.postBarButton.complaints x.1 x.2 := by
  induction delivered generalizing blocks with
  | nil =>
    obtain rfl := Except.ok.inj met
    rfl
  | cons answered rest ih =>
    obtain ⟨r, error⟩ := answered
    cases error with
    | none => exact ih met
    | some error =>
      obtain ⟨first, told, more⟩ := bind_ok.mp met
      obtain ⟨later, met_rest, same⟩ := bind_ok.mp more
      obtain rfl := Except.ok.inj told
      obtain rfl := Except.ok.inj same
      rw [List.flatMap_append, List.flatMap_cons, ih met_rest]
      rfl

theorem errors_nil {delivered : Replies addNewPost} :
    AddNewPost.errors delivered = [] ↔ ∀ x ∈ delivered, x.2 = none := by
  constructor
  · intro nothing x member
    have dropped := List.filter_eq_nil_iff.mp nothing x.2 (List.mem_map_of_mem member)
    simpa using dropped
  · intro good
    apply List.filter_eq_nil_iff.mpr
    intro error member
    obtain ⟨x, answered, rfl⟩ := List.mem_map.mp member
    simp [good x answered]

theorem postBarButton_tells : Tells postBarButton Form.postBarButton.success Form.postBarButton.Good
    Form.postBarButton.complaints where
  bodies _ _ ran := calls_silent ran
  finished c blocks reachable done met := by
    obtain ⟨answered, ⟨failed, reports⟩ | ⟨none_failed, reports⟩⟩ :=
      AddNewPost.finished_outcome reachable done
    · rw [reports] at met
      refine ⟨answered, Or.inr ⟨?_, errors_told met⟩⟩
      by_contra every
      refine failed (errors_nil.mpr ?_)
      intro x member
      by_contra bad
      exact every ⟨x, member, bad⟩
    · rw [reports] at met
      obtain rfl := Except.ok.inj met
      exact ⟨answered, Or.inl ⟨errors_nil.mp none_failed, rfl⟩⟩

theorem tells : (k : Form) → Tells k.client k.success k.Good k.complaints
  | .actionBtn => actionBtn_tells
  | .register => register_tells
  | .saveBarBtn => saveBarBtn_tells
  | .postBarButton => postBarButton_tells
  | .submitActionBtn => submitActionBtn_tells

theorem calls_called {I B : Type} {body : Except Trap (Opening I B Hud)}
    {o : Opening I (List Message) Message} (ran : body.map calls = .ok o) :
    ∃ o', body = .ok o' ∧ o.called = o'.called := by
  cases body with
  | error t => cases ran
  | ok o' =>
    obtain rfl := Except.ok.inj ran
    exact ⟨o', rfl, rfl⟩

theorem actionBtn_called {tap : Hud.SignInTap} {o : Opening SignIn.Input (List Message) Message}
    (ran : actionBtn.body tap = .ok o) : o.called = none ↔ Form.actionBtn.Unfilled tap := by
  obtain ⟨o', opened, same⟩ := calls_called ran
  rw [same]
  simp only [Hud.actionBtn] at opened
  split at opened
  · rename_i third
    obtain rfl := Except.ok.inj opened
    exact iff_of_false (Option.some_ne_none _) fun other => other third
  · rename_i other
    obtain rfl := Except.ok.inj opened
    exact iff_of_true rfl other

theorem register_called {r : Hud.Registration} {o : Opening SignUpNewUser.Input (List Message) Message}
    (ran : register.body r = .ok o) : o.called = none ↔ Form.register.Unfilled r := by
  obtain ⟨o', opened, same⟩ := calls_called ran
  obtain ⟨userInfo, image⟩ := r
  rw [same, ← submitActionBtn_none]
  cases userInfo with
  | none =>
    obtain rfl := Except.ok.inj opened
    exact iff_of_true rfl rfl
  | some user =>
    simp only [Hud.register] at opened
    cases submitted : SimpleSNS.submitActionBtn (some user) image with
    | none =>
      rw [submitted] at opened
      obtain rfl := Except.ok.inj opened
      exact iff_of_true rfl rfl
    | some input =>
      rw [submitted] at opened
      obtain rfl := Except.ok.inj opened
      exact iff_of_false (Option.some_ne_none _) (Option.some_ne_none _)

theorem saveBarBtn_called {v : EditProfileViewController}
    {o : Opening UpdateUserInformation.Input (List Message) Message} (ran : saveBarBtn.body v = .ok o) :
    o.called = none ↔ Form.saveBarBtn.Unfilled v := by
  obtain ⟨o', opened, same⟩ := calls_called ran
  rw [same]
  simp only [Hud.saveBarBtn] at opened
  cases model : v.userInfoArray with
  | none =>
    rw [model] at opened
    obtain rfl := Except.ok.inj opened
    refine iff_of_true rfl fun _ missing => ?_
    rw [model] at missing
    cases missing
  | some user =>
    rw [model] at opened
    obtain ⟨input, saved, opened⟩ := bind_ok.mp opened
    rw [← EditProfileViewController.saveBarBtn_none saved]
    cases input with
    | none =>
      obtain rfl := Except.ok.inj opened
      exact iff_of_true rfl rfl
    | some input =>
      obtain rfl := Except.ok.inj opened
      exact iff_of_false (Option.some_ne_none _) (Option.some_ne_none _)

/-- A form calls the handler unless it is unfilled. -/
theorem called_iff : (k : Form) → (input : k.client.Input) →
    (o : Opening k.handler.Input k.client.Block Message) → k.client.body input = .ok o →
    (o.called = none ↔ k.Unfilled input)
  | .actionBtn, _, _, ran => actionBtn_called ran
  | .register, _, _, ran => register_called ran
  | .saveBarBtn, _, _, ran => saveBarBtn_called ran
  | .postBarButton, post, o, ran => by
    obtain ⟨o', opened, same⟩ := calls_called ran
    obtain ⟨postImg, _, opened⟩ := bind_ok.mp opened
    obtain rfl := Except.ok.inj opened
    rw [same]
    exact iff_of_false (Option.some_ne_none _) id
  | .submitActionBtn, _, _, ran => by
    obtain rfl := Except.ok.inj ran
    exact iff_of_false (Option.some_ne_none _) id

/-- A form calls nothing and shows nothing exactly when it is unfilled. Otherwise its finished call has
told its user one thing, if all went well, and if not every error, in the order in which they came. -/
theorem messages_told {k : Form} {c : Call k.client.program} (reachable : c.Reachable Call.AnyStep)
    (finished : c.Finished) :
    k.Unfilled c.input ∧ c.delivered = [] ∧ c.reports = [] ∨
    ¬ k.Unfilled c.input ∧ c.delivered ≠ [] ∧
      ((∀ x ∈ c.delivered, k.Good x.1 x.2) ∧ c.reports = [k.success] ∨
        (∃ x ∈ c.delivered, ¬ k.Good x.1 x.2) ∧
          c.reports = c.delivered.flatMap fun x => k.complaints x.1 x.2) := by
  have answered : c.Reachable (Call.Answered (P := k.client.program) fun _ _ => True) :=
    reachable.of_delivered fun _ _ => trivial
  obtain ⟨o, body, ⟨called, delivered, reports⟩ |
    ⟨i, called, c₀, blocks, inner, done, delivered, met, reports⟩⟩ := Client.finished_reports answered finished
  · obtain ⟨silent, none_queued⟩ := (tells k).bodies _ o body
    rw [silent, none_queued] at reports
    exact Or.inl ⟨(called_iff k _ o body).mp called, delivered, reports⟩
  · obtain ⟨silent, none_queued⟩ := (tells k).bodies _ o body
    rw [silent, none_queued, List.nil_append, List.nil_append] at reports
    obtain ⟨some_answer, outcome⟩ :=
      (tells k).finished c₀ blocks (inner.weaken fun _ _ _ _ => trivial) done met
    rw [delivered, ← reports] at outcome
    rw [delivered] at some_answer
    refine Or.inr ⟨?_, some_answer, outcome⟩
    intro unfilled
    rw [(called_iff k _ o body).mpr unfilled] at called
    cases called

/-- A mail that cannot be sent. -/
theorem messages_told_sample : ∃ c : Call Form.submitActionBtn.client.program,
    c.Reachable Call.AnyStep ∧ c.Finished ∧ c.reports = [Message.failure ⟨"no such user"⟩] := by
  have started : Call.Reachable (P := Form.submitActionBtn.client.program) Call.AnyStep (Call.init none "ann" _) :=
    .start rfl
  have served := started.step (e := none) trivial
    (.serve (some (⟨"no such user"⟩ : Error)) (.refl [ForgotPassword.Request.sendPasswordReset "ann"]))
  have delivered := served.step (e := none) trivial (.deliver (.refl _) rfl)
  have shown := delivered.step (e := none) trivial (.block rfl rfl)
  refine ⟨_, shown, ⟨rfl, rfl⟩, ?_⟩
  rcases messages_told shown ⟨rfl, rfl⟩ with ⟨_, impossible, _⟩ | ⟨_, _, ⟨good, _⟩ | ⟨_, told⟩⟩
  · cases impossible
  · cases good _ List.mem_cons_self
  · exact told

end Messages

end SimpleSNS
