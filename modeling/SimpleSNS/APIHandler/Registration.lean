import Mathlib.Data.Fintype.EquivFin
import SimpleSNS.APIHandler.Profiles

/-!
Any number of sign-up attempts against the three services. An attempt is a sequence of three
steps that stops at the first failure; nothing that an earlier step did is undone, so the
account of an attempt that failed later stays and keeps its e-mail.
-/

namespace SimpleSNS.SignUpNewUser
open Async

/-- How far an attempt has come: what was answered, what is outstanding, what was reported. -/
inductive Attempt (email password : String) (input : Input) :
    Replies signUpNewUser → List Request → List Uploaded → Prop where
  | creating : Attempt email password input [] [.createUser email password] []
  | refused (result : Option String) (error : Error) :
    Attempt email password input [⟨.createUser email password, (result, some error)⟩] []
      [(none, some error)]
  | silent : Attempt email password input [⟨.createUser email password, (none, none)⟩] [] []
  | writing (uid : String) :
    Attempt email password input [⟨.createUser email password, (some uid, none)⟩]
      [.setValue uid input.userInfo] []
  | unwritten (uid : String) (error : Error) :
    Attempt email password input [⟨.createUser email password, (some uid, none)⟩,
      ⟨.setValue uid input.userInfo, some error⟩] [] [(none, some error)]
  | uploading (uid : String) :
    Attempt email password input [⟨.createUser email password, (some uid, none)⟩,
      ⟨.setValue uid input.userInfo, none⟩] [.uploadImage uid input.userImg] []
  | answered (uid : String) (error : Option Error) :
    Attempt email password input [⟨.createUser email password, (some uid, none)⟩,
      ⟨.setValue uid input.userInfo, none⟩, ⟨.uploadImage uid input.userImg, error⟩] []
      [uploadImage uid error]

structure Progress (c : Call signUpNewUser) : Prop where
  vars : c.vars = ⟨c.input⟩
  attempt : ∃ email password, c.input.userInfo.emailId = some email ∧
    Attempt email password c.input c.delivered c.outstanding c.reports

variable {c : Call signUpNewUser}

theorem progress_start {e : Session} {input : Input} {f : signUpNewUser.Frame}
    (ran : signUpNewUser.start e input = .ok f) : Progress (Call.init e input f) := by
  cases email_set : input.userInfo.emailId with
  | none =>
    have started : start e input = .ok f := ran
    simp only [start, email_set] at started
    cases started
  | some email =>
    cases password_set : input.userInfo.password with
    | none =>
      have started : start e input = .ok f := ran
      simp only [start, email_set, password_set] at started
      cases started
    | some password =>
      have started : start e input = .ok f := ran
      simp only [start, email_set, password_set, unwrap_some] at started
      obtain rfl := Except.ok.inj started
      exact ⟨rfl, email, password, email_set, .creating⟩

theorem attempt_deliver (e : Session) {email password : String} {r : Request} {a : Answer r}
    {f : signUpNewUser.Frame} {delivered : Replies signUpNewUser} {reports : List Uploaded}
    (attempt : Attempt email password c.input delivered [r] reports) (vars : c.vars = ⟨c.input⟩)
    (ran : reply e c.vars r a = .ok f) :
    Attempt email password c.input (delivered ++ [⟨r, a⟩]) f.sent (reports ++ f.reported) ∧
      f.vars = c.vars := by
  rw [vars] at ran ⊢
  cases attempt with
  | creating =>
    obtain ⟨result, error⟩ := a
    cases error with
    | some error => cases ran; exact ⟨.refused result error, rfl⟩
    | none =>
      cases result with
      | none => cases ran; exact ⟨.silent, rfl⟩
      | some uid => cases ran; exact ⟨.writing uid, rfl⟩
  | writing uid =>
    cases a with
    | some error => cases ran; exact ⟨.unwritten uid error, rfl⟩
    | none =>
      obtain rfl := reply_uploads uid c.input.userInfo ran
      exact ⟨.uploading uid, rfl⟩
  | uploading uid => cases ran; exact ⟨.answered uid a, rfl⟩

theorem attempt_outstanding {email password : String} {input : Input}
    {delivered : Replies signUpNewUser} {outstanding : List Request} {reports : List Uploaded}
    (attempt : Attempt email password input delivered outstanding reports) :
    outstanding = [] ∨ ∃ q, outstanding = [q] := by
  cases attempt <;> first | exact Or.inl rfl | exact Or.inr ⟨_, rfl⟩

theorem step_progress {c' : Call signUpNewUser} {e : Session} {ev : Call.Event signUpNewUser}
    (progress : Progress c) (stepped : c.Step e ev c') : Progress c' := by
  obtain ⟨vars, email, password, email_set, attempt⟩ := progress
  cases stepped with
  | @block b => cases b
  | @serve r rest a sent =>
    have same := Call.outstanding_served a sent
    have kept : (c.served rest r a).outstanding = c.outstanding := by
      rcases attempt_outstanding attempt with none_left | ⟨q, one⟩
      · rw [none_left] at same ⊢
        exact same.eq_nil
      · rw [one] at same ⊢
        exact same.eq_singleton
    exact ⟨vars, email, password, email_set, kept ▸ attempt⟩
  | @deliver r a rest f arrived ran =>
    have pending := Call.outstanding_ne_nil (arrived.mem_iff.mpr List.mem_cons_self)
    rcases attempt_outstanding attempt with none_left | ⟨q, one⟩
    · exact absurd none_left pending
    · obtain ⟨rfl, sent⟩ := Call.deliver_single one arrived f
      rw [one] at attempt
      obtain ⟨attempt', kept⟩ := attempt_deliver e attempt vars ran
      refine ⟨kept.trans vars, email, password, email_set, ?_⟩
      rw [sent]
      exact attempt'

theorem reachable_progress {A : Session → Call signUpNewUser → Call.Event signUpNewUser → Prop}
    (reachable : c.Reachable A) : Progress c := by
  induction reachable with
  | start ran => exact progress_start ran
  | step _ _ stepped ih => exact step_progress ih stepped

/-! ### What the services have done for an attempt -/

/-- The attempt was given the account `uid` for `email`. -/
def Owns (c : Call signUpNewUser) (email uid : String) : Prop :=
  ∃ password, ⟨.createUser email password, (some uid, none)⟩ ∈ c.answers

theorem Progress.serving {r : Request} {rest : List Request} (progress : Progress c)
    (sent : c.waiting.Perm (r :: rest)) :
    c.answers = c.delivered ∧ ∃ email password, c.input.userInfo.emailId = some email ∧
      Attempt email password c.input c.delivered [r] c.reports := by
  obtain ⟨_, email, password, email_set, attempt⟩ := progress
  have pending : r ∈ c.outstanding := List.mem_append_left _ (sent.mem_iff.mpr List.mem_cons_self)
  rcases attempt_outstanding attempt with none_left | ⟨q, one⟩
  · rw [none_left] at pending
    cases pending
  · rw [one] at pending attempt
    obtain rfl := List.mem_singleton.mp pending
    have total := congrArg List.length one
    simp only [Call.outstanding, List.length_append, List.length_map, sent.length_eq,
      List.length_cons, List.length_nil] at total
    have no_reply : c.replies = [] := List.length_eq_zero_iff.mp (by omega)
    refine ⟨?_, email, password, email_set, attempt⟩
    rw [Call.answers, no_reply, List.nil_append]

/-- The account that a request is about. -/
def subject : Request → Option String
  | .createUser _ _ => none
  | .setValue uid _ => some uid
  | .uploadImage uid _ => some uid

/-- An attempt writes the record and the picture of the account it was given. -/
theorem Attempt.owned {email password : String} {input : Input} {delivered : Replies signUpNewUser}
    {outstanding : List Request} {reports : List Uploaded}
    (attempt : Attempt email password input delivered outstanding reports) {r : Request} {uid : String}
    (about : subject r = some uid) (sent : r ∈ outstanding ++ delivered.map Sigma.fst) :
    ⟨.createUser email password, (some uid, none)⟩ ∈ delivered := by
  cases attempt with
  | creating | refused | silent =>
    obtain rfl := List.mem_singleton.mp sent
    cases about
  | writing uid' =>
    simp only [List.map_cons, List.map_nil, List.cons_append, List.nil_append, List.mem_cons,
      List.not_mem_nil, or_false] at sent
    rcases sent with rfl | rfl
    · cases about
      exact List.mem_cons_self
    · cases about
  | unwritten uid' =>
    simp only [List.map_cons, List.map_nil, List.nil_append, List.mem_cons, List.not_mem_nil,
      or_false] at sent
    rcases sent with rfl | rfl
    · cases about
    · cases about
      exact List.mem_cons_self
  | uploading uid' | answered uid' =>
    simp only [List.map_cons, List.map_nil, List.cons_append, List.nil_append, List.mem_cons,
      List.not_mem_nil, or_false] at sent
    rcases sent with rfl | rfl | rfl
    all_goals
      cases about
      try exact List.mem_cons_self

theorem Progress.owned (progress : Progress c) {r : Request} {uid : String}
    (about : subject r = some uid) (sent : r ∈ c.requests) : ∃ email, Owns c email uid := by
  obtain ⟨_, email, password, _, attempt⟩ := progress
  exact ⟨email, password, List.mem_append_right _ (attempt.owned about sent)⟩

/-- What the services hold for an attempt is what they answered it. -/
structure Effects (w : Backend) (c : Call signUpNewUser) : Prop where
  created : ∀ email password answer, ⟨.createUser email password, answer⟩ ∈ c.answers →
    (∃ account : Account, (email, account) ∈ w.accounts ∧ answer = (some account.uid, none)) ∨
      ∃ error, answer = (none, some error)
  written : ∀ uid userInfo, ⟨.setValue uid userInfo, none⟩ ∈ c.answers →
    record w uid = (userInfoDict userInfo).nodeFrom
  stored : ∀ uid img, ⟨.uploadImage uid img, none⟩ ∈ c.answers →
    w.storage (userImageName uid) = some img

structure Registered (s : Network api Backend) : Prop where
  kinds : ∀ (i : Nat) k (c : Call (api k)), s.calls[i]? = some ⟨k, c⟩ → k = .signUpNewUser
  effects : ∀ (i : Nat) (c : Call signUpNewUser), s.calls[i]? = some ⟨.signUpNewUser, c⟩ →
    Effects s.world c
  owners : ∀ email (account : Account), (email, account) ∈ s.world.accounts →
    ∃ (i : Nat) (c : Call signUpNewUser), s.calls[i]? = some ⟨.signUpNewUser, c⟩ ∧
      Owns c email account.uid
  apart : ∀ (i j : Nat) (c d : Call signUpNewUser) (email email' uid : String),
    s.calls[i]? = some ⟨.signUpNewUser, c⟩ → s.calls[j]? = some ⟨.signUpNewUser, d⟩ →
    Owns c email uid → Owns d email' uid → i = j
  emails : (s.world.accounts.map Prod.fst).Nodup

theorem Registered.moved {s : Network api Backend} {i : Nat} {c c' : Call signUpNewUser} {w : Backend}
    (registered : Registered s) (found : s.calls[i]? = some ⟨.signUpNewUser, c⟩) (own : Effects w c')
    (others : ∀ (j : Nat) d, i ≠ j → s.calls[j]? = some ⟨.signUpNewUser, d⟩ → Effects w d)
    (accounts : ∀ email (account : Account), (email, account) ∈ w.accounts →
      (email, account) ∈ s.world.accounts ∨ Owns c' email account.uid)
    (keeps : ∀ email uid, Owns c email uid → Owns c' email uid)
    (fresh : ∀ email uid, Owns c' email uid → Owns c email uid ∨
      ∀ (j : Nat) d email', s.calls[j]? = some ⟨.signUpNewUser, d⟩ → ¬ Owns d email' uid)
    (emails : (w.accounts.map Prod.fst).Nodup) :
    Registered (s.moved (k := .signUpNewUser) w i c c') := by
  refine ⟨?_, ?_, ?_, ?_, emails⟩
  · intro j k d look
    rcases Network.moved_lookup found look with ⟨_, same⟩ | ⟨_, old⟩
    · cases same
      rfl
    · exact registered.kinds j k d old
  · intro j d look
    rcases Network.moved_lookup found look with ⟨_, same⟩ | ⟨different, old⟩
    · cases same
      exact own
    · exact others j d different old
  · intro email account member
    have here : (s.moved (k := .signUpNewUser) w i c c').calls[i]? = some ⟨.signUpNewUser, c'⟩ :=
      List.getElem?_set_self (List.getElem?_eq_some_iff.mp found).1
    rcases accounts email account member with old | new
    · obtain ⟨j, d, look, owns⟩ := registered.owners email account old
      by_cases same : i = j
      · subst same
        rw [found] at look
        cases look
        exact ⟨i, c', here, keeps _ _ owns⟩
      · refine ⟨j, d, ?_, owns⟩
        exact (List.getElem?_set_ne same).trans look
    · exact ⟨i, c', here, new⟩
  · intro j l d d' email email' uid look look' owns owns'
    rcases Network.moved_lookup found look with ⟨rfl, same⟩ | ⟨different, old⟩ <;>
      rcases Network.moved_lookup found look' with ⟨rfl, same'⟩ | ⟨different', old'⟩
    · rfl
    · cases same
      rcases fresh email uid owns with before | unowned
      · exact registered.apart _ _ c d' email email' uid found old' before owns'
      · exact absurd owns' (unowned l d' email' old')
    · cases same'
      rcases fresh email' uid owns' with before | unowned
      · exact registered.apart _ _ d c email email' uid old found owns before
      · exact absurd owns (unowned j d email old)
    · exact registered.apart _ _ d d' email email' uid old old' owns owns'

/-- An account that was handed out to an attempt is registered. -/
theorem Registered.registered_owner {s : Network api Backend} (registered : Registered s) {i : Nat}
    (found : s.calls[i]? = some ⟨.signUpNewUser, c⟩) {email uid : String} (owns : Owns c email uid) :
    ∃ account : Account, (email, account) ∈ s.world.accounts ∧ account.uid = uid := by
  obtain ⟨password, answered⟩ := owns
  rcases (registered.effects i c found).created _ _ _ answered with ⟨account, member, same⟩ | ⟨_, impossible⟩
  · exact ⟨account, member, (Option.some.inj (Prod.mk.inj same).1).symm⟩
  · cases impossible

theorem account_eq {x y : Account} (same : x.uid = y.uid) : x = y := by
  cases x
  cases y
  cases same
  rfl

theorem served_answers {r : Request} {rest : List Request} (a : Answer r) {q : Request} {b : Answer q} :
    ⟨q, b⟩ ∈ (c.served rest r a).answers ↔
      (⟨q, b⟩ : (r : Request) × Answer r) = ⟨r, a⟩ ∨ ⟨q, b⟩ ∈ c.answers :=
  List.mem_cons

theorem Registered.serve_create {s : Network api Backend} {i : Nat} {rest : List Request}
    {email password : String} {answer : Option String × Option Error} {w : Backend}
    (registered : Registered s) (found : s.calls[i]? = some ⟨.signUpNewUser, c⟩)
    (nothing : c.answers = []) (served : s.world.CreateUser email w answer) :
    Registered (s.moved (k := .signUpNewUser) w i c
      (c.served rest (.createUser email password) answer)) := by
  have only : ∀ {q : Request} {b : Answer q},
      ⟨q, b⟩ ∈ (c.served rest (.createUser email password) answer).answers →
      (⟨q, b⟩ : (r : Request) × Answer r) = ⟨.createUser email password, answer⟩ := by
    intro q b member
    rcases (served_answers _).mp member with same | old
    · exact same
    · rw [nothing] at old
      cases old
  have database : w.database = s.world.database := createUser_database served
  have storage : w.storage = s.world.storage := by cases served <;> rfl
  have grows : ∀ x, x ∈ s.world.accounts → x ∈ w.accounts := by
    intro x member
    cases served with
    | created => exact List.mem_cons_of_mem _ member
    | failed => exact member
  refine registered.moved found ⟨?_, ?_, ?_⟩ ?_ ?_ ?_ ?_ ?_
  · intro email' password' answer' member
    cases only member
    cases served with
    | created account => exact Or.inl ⟨account, List.mem_cons_self, rfl⟩
    | failed error => exact Or.inr ⟨error, rfl⟩
  · intro uid userInfo member
    cases only member
  · intro uid img member
    cases only member
  · intro j d _ look
    have before := registered.effects j d look
    refine ⟨?_, ?_, ?_⟩
    · intro email' password' answer' member
      rcases before.created _ _ _ member with ⟨account, known, same⟩ | refused
      · exact Or.inl ⟨account, grows _ known, same⟩
      · exact Or.inr refused
    · intro uid userInfo member
      rw [record_same database]
      exact before.written uid userInfo member
    · intro uid img member
      rw [storage]
      exact before.stored uid img member
  · intro email' account member
    cases served with
    | failed error => exact Or.inl member
    | created account' =>
      rcases List.mem_cons.mp member with same | old
      · cases same
        exact Or.inr ⟨password, List.mem_append_left _ List.mem_cons_self⟩
      · exact Or.inl old
  · rintro email' uid ⟨password', member⟩
    rw [nothing] at member
    cases member
  · rintro email' uid ⟨password', member⟩
    right
    intro j d email'' look owns
    obtain ⟨account, known, same_uid⟩ := registered.registered_owner look owns
    cases served with
    | failed error => cases only member
    | created account' unregistered fresh =>
      cases only member
      have same := account_eq same_uid
      exact fresh (same ▸ List.mem_map_of_mem known)
  · cases served with
    | failed error => exact registered.emails
    | created account unregistered => exact List.nodup_cons.mpr ⟨unregistered, registered.emails⟩

theorem Registered.moved_same {s : Network api Backend} {i : Nat} {c c' : Call signUpNewUser}
    {w : Backend} (registered : Registered s) (found : s.calls[i]? = some ⟨.signUpNewUser, c⟩)
    (own : Effects w c')
    (others : ∀ (j : Nat) d, i ≠ j → s.calls[j]? = some ⟨.signUpNewUser, d⟩ → Effects w d)
    (accounts : w.accounts = s.world.accounts)
    (owns_iff : ∀ email uid, Owns c' email uid ↔ Owns c email uid) :
    Registered (s.moved (k := .signUpNewUser) w i c c') := by
  refine registered.moved found own others ?_ ?_ ?_ (accounts ▸ registered.emails)
  · intro email account member
    rw [accounts] at member
    exact Or.inl member
  · intro email uid owns
    exact (owns_iff email uid).mpr owns
  · intro email uid owns
    exact Or.inl ((owns_iff email uid).mp owns)

theorem served_owns {r : Request} {rest : List Request} (a : Answer r) {uid : String}
    (about : subject r = some uid) (email uid' : String) :
    Owns (c.served rest r a) email uid' ↔ Owns c email uid' := by
  constructor
  · rintro ⟨password, member⟩
    rcases (served_answers a).mp member with same | old
    · cases same
      cases about
    · exact ⟨password, old⟩
  · rintro ⟨password, member⟩
    exact ⟨password, (served_answers a).mpr (Or.inr member)⟩

theorem Registered.serve_record {s : Network api Backend} {i : Nat} {rest : List Request}
    {uid email : String} {userInfo : UserModel} {a : Option Error} {w : Backend}
    (registered : Registered s)
    (progress : ∀ (j : Nat) (d : Call signUpNewUser), s.calls[j]? = some ⟨.signUpNewUser, d⟩ → Progress d)
    (found : s.calls[i]? = some ⟨.signUpNewUser, c⟩) (owns : Owns c email uid)
    (only : ∀ q b, ⟨q, b⟩ ∈ c.answers → subject q = none)
    (served : Serve s.world w (.setValue uid userInfo) a) :
    Registered (s.moved (k := .signUpNewUser) w i c (c.served rest (.setValue uid userInfo) a)) := by
  have effect := SimpleSNS.serve_record (k := .signUpNewUser) (r := .setValue uid userInfo) (a := a) served
  have accounts : w.accounts = s.world.accounts := served.keeps Backend.accounts rfl
  have storage : w.storage = s.world.storage := served.keeps Backend.storage rfl
  have own := registered.effects i c found
  refine registered.moved_same found ⟨?_, ?_, ?_⟩ ?_ accounts
    (served_owns (r := .setValue uid userInfo) a rfl)
  · intro email' password answer member
    rw [accounts]
    rcases (served_answers (r := .setValue uid userInfo) a).mp member with same | old
    · cases same
    · exact own.created _ _ _ old
  · intro uid' userInfo' member
    rcases (served_answers (r := .setValue uid userInfo) a).mp member with same | old
    · cases same
      exact (effect uid).trans (recordAfter_self uid _ _)
    · cases only _ _ old
  · intro uid' img member
    rcases (served_answers (r := .setValue uid userInfo) a).mp member with same | old
    · cases same
    · cases only _ _ old
  · intro j d different look
    have before := registered.effects j d look
    refine ⟨?_, ?_, ?_⟩
    · intro email' password answer member
      rw [accounts]
      exact before.created _ _ _ member
    · intro uid' userInfo' member
      have sent : Request.setValue uid' userInfo' ∈ d.requests := Call.answered_requested member
      obtain ⟨email', owns'⟩ := (progress j d look).owned rfl sent
      have other : uid ≠ uid' := by
        rintro rfl
        exact different (registered.apart i j c d email email' uid found look owns owns')
      rw [effect uid', ← before.written uid' userInfo' member]
      cases a with
      | some error => rfl
      | none => exact recordAfter_other other _ _
    · intro uid' img member
      rw [storage]
      exact before.stored uid' img member

theorem Registered.serve_picture {s : Network api Backend} {i : Nat} {rest : List Request}
    {uid email : String} {img : UIImage} {a : Option Error} {w : Backend} (registered : Registered s)
    (progress : ∀ (j : Nat) (d : Call signUpNewUser), s.calls[j]? = some ⟨.signUpNewUser, d⟩ → Progress d)
    (found : s.calls[i]? = some ⟨.signUpNewUser, c⟩) (owns : Owns c email uid)
    (only : ∀ uid' img' b, ⟨.uploadImage uid' img', b⟩ ∉ c.answers)
    (served : Serve s.world w (.uploadImage uid img) a) :
    Registered (s.moved (k := .signUpNewUser) w i c (c.served rest (.uploadImage uid img) a)) := by
  have accounts : w.accounts = s.world.accounts := served.keeps Backend.accounts rfl
  have database : w.database = s.world.database := served.keeps Backend.database rfl
  have own := registered.effects i c found
  refine registered.moved_same found ⟨?_, ?_, ?_⟩ ?_ accounts
    (served_owns (r := .uploadImage uid img) a rfl)
  · intro email' password answer member
    rw [accounts]
    rcases (served_answers (r := .uploadImage uid img) a).mp member with same | old
    · cases same
    · exact own.created _ _ _ old
  · intro uid' userInfo member
    rw [record_same database]
    rcases (served_answers (r := .uploadImage uid img) a).mp member with same | old
    · cases same
    · exact own.written _ _ old
  · intro uid' img' member
    rcases (served_answers (r := .uploadImage uid img) a).mp member with same | old
    · cases same
      rw [show w = s.world.putData _ _ from served]
      exact if_pos rfl
    · exact absurd old (only _ _ _)
  · intro j d different look
    have before := registered.effects j d look
    refine ⟨?_, ?_, ?_⟩
    · intro email' password answer member
      rw [accounts]
      exact before.created _ _ _ member
    · intro uid' userInfo member
      rw [record_same database]
      exact before.written _ _ member
    · intro uid' img' member
      have sent : Request.uploadImage uid' img' ∈ d.requests := Call.answered_requested member
      obtain ⟨email', owns'⟩ := (progress j d look).owned rfl sent
      have other : userImageName uid' ≠ userImageName uid := by
        intro same
        obtain rfl := userImageName_inj same
        exact different (registered.apart i j c d email email' _ found look owns owns')
      rw [← before.stored uid' img' member]
      exact served.keeps (fun w => w.storage (userImageName uid')) (if_neg other)

theorem Registered.serve {s : Network api Backend} {i : Nat} {r : Request} {rest : List Request}
    {a : Answer r} {w : Backend} (registered : Registered s)
    (progress : ∀ (j : Nat) (d : Call signUpNewUser), s.calls[j]? = some ⟨.signUpNewUser, d⟩ → Progress d)
    (found : s.calls[i]? = some ⟨.signUpNewUser, c⟩) (sent : c.waiting.Perm (r :: rest))
    (served : Serve s.world w r a) :
    Registered (s.moved (k := .signUpNewUser) w i c (c.served rest r a)) := by
  obtain ⟨answers, email, password, _, attempt⟩ := (progress i c found).serving sent
  generalize delivered_eq : c.delivered = delivered at attempt answers
  generalize c.reports = reports at attempt
  cases attempt with
  | creating => exact registered.serve_create found answers served
  | writing uid =>
    have owns : Owns c email uid := ⟨password, answers ▸ List.mem_cons_self⟩
    refine registered.serve_record progress found owns ?_ served
    intro q b member
    rw [answers] at member
    cases List.mem_singleton.mp member
    rfl
  | uploading uid =>
    have owns : Owns c email uid := ⟨password, answers ▸ List.mem_cons_self⟩
    refine registered.serve_picture progress found owns ?_ served
    intro uid' img' b member
    rw [answers] at member
    rcases List.mem_cons.mp member with same | later
    · cases same
    · cases List.mem_singleton.mp later

theorem Registered.keeps {s : Network api Backend} {i : Nat} {c' : Call signUpNewUser}
    (registered : Registered s) (found : s.calls[i]? = some ⟨.signUpNewUser, c⟩)
    (answers : c'.answers.Perm c.answers) :
    Registered (s.moved (k := .signUpNewUser) s.world i c c') := by
  have own := registered.effects i c found
  refine registered.moved_same found ⟨?_, ?_, ?_⟩ (fun j d _ look => registered.effects j d look) rfl ?_
  · intro email password answer member
    exact own.created _ _ _ (answers.mem_iff.mp member)
  · intro uid userInfo member
    exact own.written _ _ (answers.mem_iff.mp member)
  · intro uid img member
    exact own.stored _ _ (answers.mem_iff.mp member)
  · intro email uid
    exact exists_congr fun password => answers.mem_iff

/-! ### Runs of attempts -/

/-- Nothing but attempts, from any client. -/
def SigningUp (_ : Network api Backend) : Network.Label api → Prop
  | .start _ k _ => k = .signUpNewUser
  | .call _ _ _ _ => True

theorem Registered.start {s : Network api Backend} {e : Session} {input : Input}
    {f : signUpNewUser.Frame} (registered : Registered s) :
    Registered (s.started e .signUpNewUser input f) := by
  have nothing : (Call.init e input f : Call signUpNewUser).answers = [] := rfl
  have unowned : ∀ email uid, ¬ Owns (Call.init e input f : Call signUpNewUser) email uid := by
    rintro email uid ⟨password, member⟩
    cases member
  refine ⟨?_, ?_, ?_, ?_, registered.emails⟩
  · intro i k c look
    rcases Network.concat_lookup look with old | ⟨_, same⟩
    · exact registered.kinds i k c old
    · cases same
      rfl
  · intro i c look
    rcases Network.concat_lookup look with old | ⟨_, same⟩
    · exact registered.effects i c old
    · cases same
      refine ⟨?_, ?_, ?_⟩
      · intro email password answer member
        cases member
      · intro uid userInfo member
        cases member
      · intro uid img member
        cases member
  · intro email account member
    obtain ⟨i, c, look, owns⟩ := registered.owners email account member
    exact ⟨i, c, (List.getElem?_append_left (List.getElem?_eq_some_iff.mp look).1).trans look, owns⟩
  · intro i j c d email email' uid look look' owns owns'
    rcases Network.concat_lookup look with old | ⟨_, same⟩
    · rcases Network.concat_lookup look' with old' | ⟨_, same'⟩
      · exact registered.apart i j c d email email' uid old old' owns owns'
      · cases same'
        exact absurd owns' (unowned _ _)
    · cases same
      exact absurd owns (unowned _ _)

theorem Registered.step {s s' : Network api Backend} {l : Network.Label api}
    (registered : Registered s)
    (progress : ∀ (j : Nat) (d : Call signUpNewUser), s.calls[j]? = some ⟨.signUpNewUser, d⟩ → Progress d)
    (signing_up : SigningUp s l) (stepped : Network.Step backend s l s') : Registered s' := by
  cases stepped with
  | start e k input ran =>
    obtain rfl : k = .signUpNewUser := signing_up
    exact registered.start
  | @call e k c c' ev w index found call_step moves =>
    obtain rfl := registered.kinds index k c found
    cases call_step with
    | serve a sent => exact registered.serve progress found sent moves
    | deliver arrived ran =>
      obtain rfl : w = s.world := moves
      exact registered.keeps found (Call.answers_took arrived)
    | @block b => cases b

theorem run_progress {w₀ : Backend} {s : Network api Backend}
    (run : Network.Run backend SigningUp { world := w₀ } s) (i : Nat) (c : Call signUpNewUser)
    (found : s.calls[i]? = some ⟨.signUpNewUser, c⟩) : Progress c :=
  reachable_progress (Network.Run.call_reachable (A := Call.AnyStep) rfl run
    (fun _ _ _ _ _ _ _ => trivial) found)

theorem run_registered {w₀ : Backend} {s : Network api Backend} (no_accounts : w₀.accounts = [])
    (run : Network.Run backend SigningUp { world := w₀ } s) : Registered s := by
  induction run with
  | refl =>
    refine ⟨?_, ?_, ?_, ?_, ?_⟩
    · intro i k c look
      cases look
    · intro i c look
      cases look
    · intro email account member
      rw [no_accounts] at member
      cases member
    · intro i j c d email email' uid look
      cases look
    · rw [no_accounts]
      exact List.nodup_nil
  | step before signing_up stepped ih => exact ih.step (run_progress before) signing_up stepped

/-! ### When every attempt has reported -/

def Succeeded (c : Call signUpNewUser) : Prop := ∃ name, (some name, none) ∈ c.reports

/-- All three services answered the attempt without an error. -/
structure AllSteps (c : Call signUpNewUser) (email uid : String) : Prop where
  owns : Owns c email uid
  written : ⟨.setValue uid c.input.userInfo, none⟩ ∈ c.answers
  stored : ⟨.uploadImage uid c.input.userImg, none⟩ ∈ c.answers

theorem Attempt.email {email password : String} {input : Input} {delivered : Replies signUpNewUser}
    {outstanding : List Request} {reports : List Uploaded}
    (attempt : Attempt email password input delivered outstanding reports) {email' password' : String}
    (sent : .createUser email' password' ∈ outstanding ++ delivered.map Sigma.fst) : email' = email := by
  cases attempt <;>
    · simp only [List.map_cons, List.map_nil, List.cons_append, List.nil_append, List.mem_cons,
        List.not_mem_nil, or_false, reduceCtorEq, false_or, Request.createUser.injEq] at sent
      exact sent.1

theorem Progress.owns_email (progress : Progress c) {email uid : String} (owns : Owns c email uid) :
    c.input.userInfo.emailId = some email := by
  obtain ⟨password, answered⟩ := owns
  obtain ⟨_, email', password', email_set, attempt⟩ := progress
  rw [email_set, attempt.email (Call.answered_requested answered)]

theorem Attempt.over {email password : String} {input : Input} {delivered : Replies signUpNewUser}
    {outstanding : List Request} {reports : List Uploaded}
    (attempt : Attempt email password input delivered outstanding reports) (reported : reports ≠ []) :
    outstanding = [] ∧ reports.length = 1 := by
  cases attempt with
  | creating | silent | writing | uploading => exact absurd rfl reported
  | refused | unwritten | answered => exact ⟨rfl, rfl⟩

theorem Attempt.succeeded {email password name : String} {input : Input}
    {delivered : Replies signUpNewUser} {outstanding : List Request} {reports : List Uploaded}
    (attempt : Attempt email password input delivered outstanding reports)
    (success : (some name, none) ∈ reports) :
    ∃ uid, ⟨.createUser email password, (some uid, none)⟩ ∈ delivered ∧
      ⟨.setValue uid input.userInfo, none⟩ ∈ delivered ∧
      ⟨.uploadImage uid input.userImg, none⟩ ∈ delivered := by
  cases attempt with
  | creating | silent | writing | uploading => cases success
  | refused | unwritten => cases List.mem_singleton.mp success
  | answered uid error =>
    cases error with
    | none => exact ⟨uid, by simp⟩
    | some error => cases List.mem_singleton.mp success

theorem Attempt.uploaded {email password uid : String} {input : Input} {img : UIImage}
    {delivered : Replies signUpNewUser} {outstanding : List Request} {reports : List Uploaded}
    (attempt : Attempt email password input delivered outstanding reports)
    (stored : ⟨.uploadImage uid img, none⟩ ∈ delivered) :
    (some (userImageName uid), none) ∈ reports := by
  cases attempt with
  | creating => cases stored
  | refused | silent | writing => cases List.mem_singleton.mp stored
  | unwritten | uploading =>
    rcases List.mem_cons.mp stored with same | later
    · cases same
    · cases List.mem_singleton.mp later
  | answered uid error =>
    rcases List.mem_cons.mp stored with same | later
    · cases same
    · rcases List.mem_cons.mp later with same | last
      · cases same
      · cases List.mem_singleton.mp last
        exact List.mem_singleton_self _

/-- An attempt reports once, and a success if and only if all three steps succeeded. -/
theorem Progress.reported_once (progress : Progress c) (reported : c.reports ≠ []) :
    c.reports.length = 1 ∧ (Succeeded c ↔ ∃ email uid, AllSteps c email uid) := by
  obtain ⟨_, email, password, _, attempt⟩ := progress
  obtain ⟨closed, once⟩ := attempt.over reported
  have no_replies : c.replies = [] := by
    simp only [Call.outstanding, List.append_eq_nil_iff, List.map_eq_nil_iff] at closed
    exact closed.2
  have answers : c.answers = c.delivered := by
    rw [Call.answers, no_replies, List.nil_append]
  refine ⟨once, ?_⟩
  constructor
  · rintro ⟨name, success⟩
    obtain ⟨uid, created, written, stored⟩ := attempt.succeeded success
    exact ⟨email, uid, ⟨password, answers ▸ created⟩, answers ▸ written, answers ▸ stored⟩
  · rintro ⟨email', uid, _, _, stored⟩
    rw [answers] at stored
    exact ⟨userImageName uid, attempt.uploaded stored⟩

/-- What the services hold for an attempt that succeeded: its account, its fields and its picture. -/
structure Kept (w : Backend) (c : Call signUpNewUser) (email uid : String) : Prop where
  account : ∃ account : Account, (email, account) ∈ w.accounts ∧ account.uid = uid
  written : HoldsFields (record w uid) c.input.userInfo
  stored : w.storage (userImageName uid) = some c.input.userImg

/-- A later attempt with this input can still succeed. -/
def CanSignUp (s : Network api Backend) (input : Input) : Prop :=
  ∃ s', Network.Run backend SigningUp s s' ∧ ∃ (i : Nat) (c : Call signUpNewUser),
    s.calls.length ≤ i ∧ s'.calls[i]? = some ⟨.signUpNewUser, c⟩ ∧ c.input = input ∧ Succeeded c

instance : Infinite Account := by
  refine Infinite.of_injective
    (fun n : Nat => ⟨String.ofList (List.replicate (n + 1) 'u'), ?_⟩) ?_
  · intro empty
    have characters : List.replicate (n + 1) 'u' = [] := String.ofList_injective empty
    simp at characters
  · intro n m same
    have characters := String.ofList_injective (Account.mk.inj same)
    simpa using congrArg List.length characters

theorem last_attempt {s₀ s : Network api Backend} {jobs : List (Job api)}
    {c c' : Call signUpNewUser} {ev : Call.Event signUpNewUser} {w : Backend}
    (run : Network.Run backend SigningUp s₀ s) (calls : s.calls = jobs ++ [⟨.signUpNewUser, c⟩])
    (stepped : c.Step none ev c') (moves : backend.Moves (k := .signUpNewUser) s.world ev w) :
    ∃ s', Network.Run backend SigningUp s₀ s' ∧ s'.calls = jobs ++ [⟨.signUpNewUser, c'⟩] := by
  have found : s.calls[jobs.length]? = some ⟨.signUpNewUser, c⟩ := by
    rw [calls]
    exact List.getElem?_concat_length
  refine ⟨_, run.step (l := .call none jobs.length .signUpNewUser ev) trivial
    (.call jobs.length found stepped moves), ?_⟩
  simp [Network.moved, calls]

/-- An attempt for an e-mail without an account can succeed. -/
theorem can_sign_up {s : Network api Backend} {input : Input} {email password : String}
    (email_set : input.userInfo.emailId = some email)
    (password_set : input.userInfo.password = some password) (image_set : input.userImg.jpeg.isSome)
    (unregistered : ¬ s.world.Registered email) : CanSignUp s input := by
  obtain ⟨account, fresh⟩ :=
    Infinite.exists_notMem_finset (s.world.accounts.map Prod.snd).toFinset
  rw [List.mem_toFinset] at fresh
  let create : Request := .createUser email password
  let write : Request := .setValue account.uid input.userInfo
  let upload : Request := .uploadImage account.uid input.userImg
  let given : Option String × Option Error := (some account.uid, none)
  let first : signUpNewUser.Frame := { vars := ⟨input⟩, sent := [create] }
  let c₀ : Call signUpNewUser := Call.init none input first
  let c₁ : Call signUpNewUser := c₀.served [] create given
  let c₂ : Call signUpNewUser := (c₁.took [] create given).absorb { vars := ⟨input⟩, sent := [write] }
  let c₃ : Call signUpNewUser := c₂.served [] write none
  let c₄ : Call signUpNewUser := (c₃.took [] write none).absorb { vars := ⟨input⟩, sent := [upload] }
  let c₅ : Call signUpNewUser := c₄.served [] upload none
  let c₆ : Call signUpNewUser := (c₅.took [] upload none).absorb
    { vars := ⟨input⟩, reported := [uploadImage account.uid none] }
  have ran : signUpNewUser.start none input = .ok first := by
    simp only [start, email_set, password_set, unwrap_some]
    rfl
  have create_served : c₀.Step none (.serve create given) c₁ := .serve _ (.refl _)
  have create_read : c₁.Step none (.deliver create given) c₂ := .deliver (.refl _) rfl
  have write_served : c₂.Step none (.serve write none) c₃ := .serve _ (.refl _)
  obtain ⟨data, image_set⟩ := Option.isSome_iff_exists.mp image_set
  have uploads : signUpNewUser.reply none c₃.vars write none = .ok { vars := ⟨input⟩, sent := [upload] } := by
    show (unwrap input.userImg.jpeg >>= fun _ => _) = _
    rw [image_set]
    rfl
  have write_read : c₃.Step none (.deliver write none) c₄ := .deliver (.refl _) uploads
  have upload_served : c₄.Step none (.serve upload none) c₅ := .serve _ (.refl _)
  have upload_read : c₅.Step none (.deliver upload none) c₆ := .deliver (.refl _) rfl
  have creating : s.world.CreateUser email _ given := .created account unregistered fresh
  have started : Network.Run backend SigningUp s (s.started none .signUpNewUser input first) :=
    .step (l := .start none .signUpNewUser input) .refl rfl
      (.start (P := api) none .signUpNewUser input ran)
  obtain ⟨s₁, run₁, calls₁⟩ := last_attempt started rfl create_served creating
  obtain ⟨s₂, run₂, calls₂⟩ := last_attempt run₁ calls₁ create_read rfl
  obtain ⟨s₃, run₃, calls₃⟩ := last_attempt run₂ calls₂ write_served rfl
  obtain ⟨s₄, run₄, calls₄⟩ := last_attempt run₃ calls₃ write_read rfl
  obtain ⟨s₅, run₅, calls₅⟩ := last_attempt run₄ calls₄ upload_served rfl
  obtain ⟨s₆, run, calls₆⟩ := last_attempt run₅ calls₅ upload_read rfl
  refine ⟨s₆, run, s.calls.length, c₆, Nat.le_refl _, ?_, rfl, userImageName account.uid, ?_⟩
  · rw [calls₆]
    exact List.getElem?_concat_length
  · exact List.mem_singleton_self _

/-- An attempt that is given an account was the first for its e-mail to be given one. -/
theorem Registered.same_owner {s : Network api Backend} (registered : Registered s) {i j : Nat}
    {c d : Call signUpNewUser} {email uid uid' : String}
    (found : s.calls[i]? = some ⟨.signUpNewUser, c⟩) (found' : s.calls[j]? = some ⟨.signUpNewUser, d⟩)
    (owns : Owns c email uid) (owns' : Owns d email uid') : i = j := by
  obtain ⟨account, known, rfl⟩ := registered.registered_owner found owns
  obtain ⟨account', known', rfl⟩ := registered.registered_owner found' owns'
  have same : account = account' :=
    Option.some.inj ((Dict.lookup_of_mem registered.emails known).symm.trans
      (Dict.lookup_of_mem registered.emails known'))
  subst same
  exact registered.apart i j c d email email _ found found' owns owns'

/-- When every attempt has reported: each reported once, and a success if and only if all its three
steps succeeded, and then its account, record and picture are there. An e-mail has an account if
and only if one attempt for it was given one, however that attempt went on. It can be registered
by a later attempt, with a picture that has JPEG data, if and only if it has none. -/
theorem registration {w₀ : Backend} {s : Network api Backend} (no_accounts : w₀.accounts = [])
    (run : Network.Run backend SigningUp { world := w₀ } s)
    (reported : ∀ (i : Nat) (c : Call signUpNewUser), s.calls[i]? = some ⟨.signUpNewUser, c⟩ →
      c.reports ≠ []) :
    (∀ (i : Nat) (c : Call signUpNewUser), s.calls[i]? = some ⟨.signUpNewUser, c⟩ →
      c.reports.length = 1 ∧ (Succeeded c ↔ ∃ email uid, AllSteps c email uid) ∧
      ∀ email uid, AllSteps c email uid → Kept s.world c email uid) ∧
    (∀ email, s.world.Registered email ↔ ∃ (i : Nat) (c : Call signUpNewUser) (uid : String),
      s.calls[i]? = some ⟨.signUpNewUser, c⟩ ∧ c.input.userInfo.emailId = some email ∧
        Owns c email uid) ∧
    (∀ (i j : Nat) (c d : Call signUpNewUser) (email uid uid' : String),
      s.calls[i]? = some ⟨.signUpNewUser, c⟩ → s.calls[j]? = some ⟨.signUpNewUser, d⟩ →
      Owns c email uid → Owns d email uid' → i = j) ∧
    (∀ (input : Input) (email password : String), input.userInfo.emailId = some email →
      input.userInfo.password = some password → input.userImg.jpeg.isSome →
      (CanSignUp s input ↔ ¬ s.world.Registered email)) := by
  have registered := run_registered no_accounts run
  have progress := run_progress run
  refine ⟨?_, ?_, fun i j c d email uid uid' => registered.same_owner, ?_⟩
  · intro i c found
    obtain ⟨once, success⟩ := (progress i c found).reported_once (reported i c found)
    refine ⟨once, success, ?_⟩
    intro email uid all_steps
    have effects := registered.effects i c found
    refine ⟨registered.registered_owner found all_steps.owns, ?_, effects.stored uid _ all_steps.stored⟩
    rw [effects.written uid _ all_steps.written]
    exact registered_fields c.input.userInfo
  · intro email
    constructor
    · intro exists_account
      obtain ⟨⟨_, account⟩, member, rfl⟩ := List.mem_map.mp exists_account
      obtain ⟨i, c, found, owns⟩ := registered.owners _ account member
      exact ⟨i, c, account.uid, found, (progress i c found).owns_email owns, owns⟩
    · rintro ⟨i, c, uid, found, _, owns⟩
      obtain ⟨account, member, _⟩ := registered.registered_owner found owns
      exact List.mem_map_of_mem member
  · intro input email password email_set password_set image_set
    refine ⟨?_, can_sign_up email_set password_set image_set⟩
    rintro ⟨s', later, j, d, beyond, found', same_input, success⟩ exists_account
    obtain ⟨⟨first, account⟩, member, same_email⟩ := List.mem_map.mp exists_account
    obtain ⟨i, c, found, owns⟩ := registered.owners first account member
    change first = email at same_email
    rw [same_email] at owns
    have before := (List.getElem?_eq_some_iff.mp found).1
    obtain ⟨c', found_later, _, grown⟩ := later.call_keeps found
    have whole := run.trans later
    have progress' := run_progress whole j d found'
    have reports : d.reports ≠ [] := by
      obtain ⟨name, reported_success⟩ := success
      exact List.ne_nil_of_mem reported_success
    obtain ⟨email', uid, all_steps⟩ := (progress'.reported_once reports).2.mp success
    have own_email := progress'.owns_email all_steps.owns
    rw [same_input, email_set] at own_email
    obtain rfl := Option.some.inj own_email
    obtain ⟨password', answered⟩ := owns
    have same := (run_registered no_accounts whole).same_owner found_later found'
      ⟨password', grown _ answered⟩ all_steps.owns
    omega

instance (s : Network api Backend) : DecidablePred (SigningUp s) := fun l =>
  match l with
  | .start _ k _ => inferInstanceAs (Decidable (k = .signUpNewUser))
  | .call _ _ _ _ => isTrue trivial

/-- One attempt; `rest` says whether its later steps succeed. -/
def signUp (rest : Bool) : List (Device.Choice backend) :=
  [.start .signUpNewUser sampleUser, .serve 0 0 (policy true sampleAccount), .deliver 0 0,
    .serve 0 0 (policy rest sampleAccount), .deliver 0 0]

def upload : List (Device.Choice backend) :=
  [.serve 0 0 (policy true sampleAccount), .deliver 0 0]

theorem one_call {calls : List (Job api)} {c : Call signUpNewUser} {P : Call signUpNewUser → Prop}
    (only : calls = [⟨.signUpNewUser, c⟩]) (holds : P c) (i : Nat) (d : Call signUpNewUser)
    (found : calls[i]? = some ⟨.signUpNewUser, d⟩) : P d := by
  rw [only] at found
  cases i with
  | zero =>
    cases found
    exact holds
  | succ i => cases found

theorem registration_sample :
    ∃ s : Network api Backend, Network.Run backend SigningUp { world := {} } s ∧
      s.world.Registered "ann@mail" ∧ ¬ CanSignUp s sampleUser := by
  have ran : ((Device.boot {} none).exec SigningUp (signUp true ++ upload)).isSome := rfl
  have run := (Device.exec_run (Option.some_get ran).symm).network
  have only : (Option.get _ ran).network.calls = [⟨.signUpNewUser, _⟩] := rfl
  have exists_account : (Option.get _ ran).network.world.Registered "ann@mail" := List.mem_singleton_self _
  have outcome := registration rfl run (one_call only (List.cons_ne_nil _ _))
  exact ⟨_, run, exists_account, fun later => (outcome.2.2.2 sampleUser "ann@mail" "secret" rfl rfl rfl).mp
    later exists_account⟩

/-- The record is refused after the account was created: the e-mail is taken and no attempt for it
reported success. -/
theorem registration_partial :
    ¬ ∀ s : Network api Backend, Network.Run backend SigningUp { world := {} } s →
      (∀ (i : Nat) (c : Call signUpNewUser), s.calls[i]? = some ⟨.signUpNewUser, c⟩ → c.reports ≠ []) →
      ∀ email, s.world.Registered email → ∃ (i : Nat) (c : Call signUpNewUser),
        s.calls[i]? = some ⟨.signUpNewUser, c⟩ ∧ c.input.userInfo.emailId = some email ∧ Succeeded c := by
  intro atomic
  have ran : ((Device.boot {} none).exec SigningUp (signUp false)).isSome := rfl
  have run := (Device.exec_run (Option.some_get ran).symm).network
  have only : (Option.get _ ran).network.calls = [⟨.signUpNewUser, _⟩] := rfl
  obtain ⟨i, c, found, _, success⟩ := atomic _ run (one_call only (List.cons_ne_nil _ _)) "ann@mail"
    (List.mem_singleton_self _)
  have failed : ¬ Succeeded c := by
    refine one_call (P := fun c => ¬ Succeeded c) only ?_ i c found
    rintro ⟨name, reported⟩
    cases List.mem_singleton.mp reported
  exact failed success

end SimpleSNS.SignUpNewUser
