import SimpleSNS.Async.Device
import SimpleSNS.Async.Listener
import SimpleSNS.Main.Hud

/-!
The app on one device: the actions that raise the HUD, called in any order and overlapping, and the
sign-up screens that have been opened. A registration starts as a block that the gate of its screen
has released.
-/

namespace SimpleSNS
open Async

variable {W : Type}

/-- The blocks of a gate wait in their screen, so their order among the other blocks is left open. -/
structure App (W : Type) where
  device : Device app W
  screens : List SignUpViewController := []

namespace App

def launch (w : W) (session : Session) : App W where
  device := .boot w session

/-- Whether the HUD is up after all calls of `show` and `dismiss` so far. -/
def visible (a : App W) : Bool :=
  a.device.network.log.foldl (fun up x => Hud.flag up x.report) false

/-- The device moves, a sign-up screen is opened, a screen handles an event, or the main queue runs
the registration block of a screen. -/
inductive Step (S : Service app W) (C : CoreLocation) (defaultUser : UIImage) :
    App W → Option (Network.Label app) → App W → Prop where
  | device {a : App W} {l : Option (Network.Label app)} {d : Device app W}
      (other : ∀ e r, l ≠ some (.start e .register r)) (stepped : Device.Step S a.device l d) :
      Step S C defaultUser a l { a with device := d }
  | signUp {a : App W} : Step S C defaultUser a none { a with screens := a.screens ++ [{}] }
  | screen {a : App W} {v v' : SignUpViewController} {ev : SignUpViewController.Event C} (index : Nat)
      (found : a.screens[index]? = some v) (possible : v.Enabled ev) (other : ev ≠ .main)
      (ran : v.react C defaultUser ev = .ok v') :
      Step S C defaultUser a none { a with screens := a.screens.set index v' }
  | register {a : App W} {v v' : SignUpViewController} {d : Device app W} (index : Nat)
      (found : a.screens[index]? = some v) (possible : v.Enabled (C := C) .main)
      (ran : v.react C defaultUser .main = .ok v')
      (stepped : Device.Step S a.device
        (some (.start a.device.session .register ⟨v.userInfo, v.image.getD defaultUser⟩)) d) :
      Step S C defaultUser a
        (some (.start a.device.session .register ⟨v.userInfo, v.image.getD defaultUser⟩))
        { device := d, screens := a.screens.set index v' }

/-- Runs from `a₀` whose calls and starts all satisfy `ok`. -/
inductive Run (S : Service app W) (C : CoreLocation) (defaultUser : UIImage)
    (ok : Network app W → Network.Label app → Prop) (a₀ : App W) : App W → Prop where
  | refl : Run S C defaultUser ok a₀ a₀
  | step {a a' : App W} {l : Option (Network.Label app)} (before : Run S C defaultUser ok a₀ a)
      (allowed : ∀ x, l = some x → ok a.device.network x) (stepped : Step S C defaultUser a l a') :
      Run S C defaultUser ok a₀ a'

/-- No request to Firebase or for a location is outstanding and the main queue is empty. -/
structure Quiet (a : App W) : Prop where
  requests : ∀ (i : Nat) (k : Action) (c : Call (app k)),
    a.device.network.calls[i]? = some ⟨k, c⟩ → c.outstanding = []
  locations : ∀ v ∈ a.screens, v.requests = 0
  main : a.device.order = []
  blocks : ∀ v ∈ a.screens, v.queue = []

/-- A save finds a model, and each callback is run with an answer after which a completion is still to
come. -/
def Smooth (_ : Network app W) : Network.Label app → Prop
  | .start _ .saveBarBtn (v : EditProfileViewController) => v.userInfoArray.isSome
  | .call _ _ k (.deliver r a) => k.Proceeds r a
  | _ => True

/-- The call that moved the HUD last had a screen without a model, or a callback of it was run with an
answer that no completion follows. -/
def Stranded (a : App W) : Prop :=
  ∃ x c, a.device.network.log.getLast? = some x ∧
    a.device.network.calls[x.index]? = some ⟨x.kind, c⟩ ∧
    (¬ x.kind.Fits c.input ∨ ∃ y ∈ c.delivered, ¬ x.kind.Proceeds y.1 y.2)

/-- A registration finds a model. -/
def Modelled : Network.Label app → Prop
  | .start _ .register (r : Hud.Registration) => r.userInfo.isSome
  | _ => True

variable {S : Service app W} {C : CoreLocation} {defaultUser : UIImage}
  {ok : Network app W → Network.Label app → Prop} {w : W} {session : Session} {a : App W}

theorem Run.weaken {ok' : Network app W → Network.Label app → Prop} {a₀ : App W}
    (run : Run S C defaultUser ok a₀ a) (sub : ∀ s l, ok s l → ok' s l) :
    Run S C defaultUser ok' a₀ a := by
  induction run with
  | refl => exact .refl
  | step _ allowed stepped ih => exact .step ih (fun x same => sub _ x (allowed x same)) stepped

/-- What the device goes through is a run of its own, and every screen has a model. -/
theorem Run.device (run : Run S C defaultUser ok (launch w session) a) :
    Device.Run S (fun s l => ok s l ∧ Modelled l) (.boot w session) a.device ∧
      ∀ v ∈ a.screens, v.userInfo.isSome := by
  induction run with
  | refl => exact ⟨.refl, fun _ member => absurd member List.not_mem_nil⟩
  | step _ allowed stepped ih =>
    obtain ⟨device, screens⟩ := ih
    cases stepped with
    | @device l d other stepped =>
      refine ⟨device.step ?_ stepped, screens⟩
      intro x same
      refine ⟨allowed x same, ?_⟩
      cases x with
      | call e i k ev => trivial
      | start e k input =>
        cases k with
        | register => exact absurd same (other e input)
        | _ => trivial
    | signUp =>
      refine ⟨device, ?_⟩
      intro v member
      rcases List.mem_append.mp member with old | new
      · exact screens v old
      · rw [List.mem_singleton.mp new]
        rfl
    | screen index found possible other ran =>
      refine ⟨device, ?_⟩
      intro v member
      rcases List.mem_or_eq_of_mem_set member with old | rfl
      · exact screens v old
      · exact SignUpViewController.react_userInfo (screens _ (List.mem_of_getElem? found)) ran
    | register index found possible ran stepped =>
      have modelled := screens _ (List.mem_of_getElem? found)
      refine ⟨device.step ?_ stepped, ?_⟩
      · intro x same
        refine ⟨allowed x same, ?_⟩
        cases same
        exact modelled
      · intro v member
        rcases List.mem_or_eq_of_mem_set member with old | rfl
        · exact screens v old
        · exact SignUpViewController.react_userInfo modelled ran

/-- The HUD is up exactly when the last of all calls has shown it. -/
theorem visible_iff :
    a.visible = true ↔ ∃ x, a.device.network.log.getLast? = some x ∧ x.report = Hud.shown := by
  unfold visible
  generalize a.device.network.log = log
  induction log using List.reverseRecOn with
  | nil => simp
  | append_singleton log x _ =>
    rw [List.foldl_append, List.foldl_cons, List.foldl_nil, List.getLast?_concat]
    constructor
    · intro up
      refine ⟨x, rfl, ?_⟩
      cases report : x.report with
      | shown => rfl
      | dismissed =>
        rw [report] at up
        cases up
    · rintro ⟨y, same, shown⟩
      obtain rfl := Option.some.inj same
      rw [shown]
      rfl

theorem smooth_fits {s : Network app W} {e : Session} {k : Action} {input : (app k).Input}
    (smooth : Smooth s (.start e k input)) (modelled : Modelled (.start e k input)) :
    k.Fits input := by
  cases k with
  | saveBarBtn => exact smooth
  | register => exact modelled
  | _ => trivial

/-- Once nothing is pending, the HUD is up exactly when its last call is from a call of an action that
was stranded. -/
theorem Run.visible_iff_stranded (run : Run S C defaultUser ok (launch w session) a) (quiet : a.Quiet) :
    a.visible = true ↔ a.Stranded := by
  obtain ⟨device, _⟩ := run.device
  have logged := device.network.logged
  have last_shown : ∀ (i : Nat) (k : Action) (c : Call (app k)),
      a.device.network.calls[i]? = some ⟨k, c⟩ → (c.reports.getLast? = some .shown ↔
        ¬ k.Fits c.input ∨ ∃ x ∈ c.delivered, ¬ k.Proceeds x.1 x.2) := by
    intro i k c found
    have reachable : c.Reachable Call.AnyStep :=
      device.call_reachable (fun _ _ _ _ _ _ _ => trivial) found
    exact Hud.shown_iff reachable ⟨quiet.requests i k c found, device.drained quiet.main found⟩
  rw [visible_iff]
  constructor
  · rintro ⟨x, last, shown⟩
    obtain ⟨c, found, reported⟩ := logged.final_report last
    have left_up := reported.trans (congrArg some shown)
    exact ⟨x, c, last, found, (last_shown x.index x.kind c found).mp left_up⟩
  · rintro ⟨x, c, last, found, excluded⟩
    obtain ⟨c', found', reported⟩ := logged.final_report last
    obtain rfl := Network.job_inj (Option.some.inj (found.symm.trans found'))
    have left_up := (last_shown x.index x.kind c found).mpr excluded
    exact ⟨x, last, Option.some.inj (reported.symm.trans left_up)⟩

theorem Run.smooth_stranded (run : Run S C defaultUser Smooth (launch w session) a) : ¬ a.Stranded := by
  obtain ⟨device, _⟩ := run.device
  rintro ⟨x, c, _, found, excluded⟩
  have reachable : c.Reachable (Call.Answered (P := app x.kind) x.kind.Proceeds) := by
    refine device.call_reachable ?_ found
    intro s e i c ev allowed _
    cases ev with
    | serve => trivial
    | deliver r a => exact allowed.1
    | block => trivial
  have fits : x.kind.Fits c.input := by
    refine device.network.call_input rfl ?_ found
    intro s e k input allowed
    exact smooth_fits allowed.1 allowed.2
  rcases excluded with unfit | ⟨y, member, bad⟩
  · exact unfit fits
  · exact bad (reachable.answered y member)

/-- Whenever nothing is pending the HUD is down, in every run of which each save finds a model and each
callback an answer that leads to a completion. In any other run it is up only after a call whose screen
had no model or whose answers led to none, if that call moved the HUD last. -/
theorem hud_dismissed (S : Service app W) (C : CoreLocation) (defaultUser : UIImage) (w : W)
    (session : Session) :
    (∀ a, Run S C defaultUser Smooth (launch w session) a → a.Quiet → a.visible = false) ∧
    ∀ a, Run S C defaultUser Network.AnyLabel (launch w session) a → a.Quiet →
      (a.visible = true ↔ a.Stranded) := by
  refine ⟨?_, ?_⟩
  · intro a run quiet
    rw [Bool.eq_false_iff]
    intro up
    exact run.smooth_stranded ((run.visible_iff_stranded quiet).mp up)
  · intro a run quiet
    exact run.visible_iff_stranded quiet

/-! ### One call of Sign In -/

/-- A service that may give any answer. -/
def anyService : Service app Unit := ⟨fun _ _ _ _ _ => True⟩

def tap : Hud.SignInTap := ⟨3, "ann@example.com", "secret"⟩
def asks : SignIn.Request := .signIn tap.userId tap.passwd

def signInTapped : Call (app .actionBtn) := Call.init none tap { vars := none, queued := [.body tap] }

def signInAsked : Call (app .actionBtn) :=
  (signInTapped.popped []).absorb { vars := some (), sent := [asks], reported := [.shown] }

def signInAnswered (answer : Option String × Option Error) (f : (app .actionBtn).Frame) :
    Call (app .actionBtn) := ((signInAsked.served [] asks answer).took [] asks answer).absorb f

/-- The one call of the device is `c`. -/
def signingIn (c : Call (app .actionBtn)) (log : List (Completion app)) (order : List Nat) : App Unit where
  device := {
    network := { world := (), calls := [⟨.actionBtn, c⟩], log := log }, session := none, order := order }

theorem sole_closed {job : Job app} {i : Nat} {k : Action} {d : Call (app k)}
    (found : [job][i]? = some ⟨k, d⟩) (closed : job.call.outstanding = []) : d.outstanding = [] := by
  rcases Network.concat_lookup (l := []) found with old | ⟨_, rfl⟩
  · cases old
  · exact closed

theorem signingIn_quiet {c : Call (app .actionBtn)} {log : List (Completion app)}
    (closed : c.outstanding = []) : (signingIn c log []).Quiet where
  requests _ _ _ found := sole_closed found closed
  locations _ member := nomatch member
  main := rfl
  blocks _ member := nomatch member

section Steps
variable {ok : Network app Unit → Network.Label app → Prop} {a₀ : App Unit} {c c' : Call (app .actionBtn)}
  {log : List (Completion app)} {order : List Nat}

theorem Run.call {a : App Unit} {d : Device app Unit} {e : Session} {i : Nat} {k : Action}
    {ev : Call.Event (app k)} (before : Run anyService .texts ⟨[]⟩ ok a₀ a)
    (allowed : ok a.device.network (.call e i k ev))
    (stepped : Device.Step anyService a.device (some (.call e i k ev)) d) :
    Run anyService .texts ⟨[]⟩ ok a₀ { a with device := d } := by
  refine .step before ?_ (.device ?_ stepped)
  · intro x same
    exact Option.some.inj same ▸ allowed
  · intro e r same
    injection Option.some.inj same

theorem Run.callback {ev : Call.Event (app .actionBtn)}
    (before : Run anyService .texts ⟨[]⟩ ok a₀ (signingIn c log order))
    (stepped : c.Step none ev c') (network : ∀ b, ev ≠ .block b)
    (allowed : ok (signingIn c log order).device.network (.call none 0 .actionBtn ev)) :
    Run anyService .texts ⟨[]⟩ ok a₀ (signingIn c'
      (log ++ Network.completions 0 .actionBtn (c'.reports.drop c.reports.length))
      (order ++ List.replicate (Device.added c c' ev) 0)) := by
  have moves : anyService.Moves () ev () := by
    cases ev with
    | serve => trivial
    | deliver => rfl
    | block b => exact absurd rfl (network b)
  exact before.call allowed
    (@Device.Step.callback _ _ app _ anyService (signingIn c log order).device .actionBtn c c' ev () 0 rfl
      stepped moves network)

theorem Run.block {b : (app .actionBtn).Block} {rest : List Nat}
    (before : Run anyService .texts ⟨[]⟩ ok a₀ (signingIn c log (0 :: rest)))
    (stepped : c.Step none (.block b) c')
    (allowed : ok (signingIn c log (0 :: rest)).device.network (.call none 0 .actionBtn (.block b))) :
    Run anyService .texts ⟨[]⟩ ok a₀ (signingIn c'
      (log ++ Network.completions 0 .actionBtn (c'.reports.drop c.reports.length))
      (rest ++ List.replicate (Device.added c c' (.block b)) 0)) :=
  before.call allowed
    (@Device.Step.block _ _ app _ anyService (signingIn c log (0 :: rest)).device .actionBtn c c' b 0 rest
      rfl rfl stepped)

end Steps

theorem signIn_served (answer : Option String × Option Error) :
    Run anyService .texts ⟨[]⟩ Smooth (launch () none)
      (signingIn (signInAsked.served [] asks answer) [⟨0, .actionBtn, .shown⟩] []) := by
  have opened : signInTapped.Step none (.block (.body tap)) signInAsked := .block rfl rfl
  have served : signInAsked.Step none (.serve asks answer) (signInAsked.served [] asks answer) :=
    Call.Step.serve (P := app .actionBtn) answer (.refl [asks])
  have tapped : Run anyService .texts ⟨[]⟩ Smooth (launch () none) (signingIn signInTapped [] [0]) := by
    refine .step .refl ?_ (.device ?_ (Device.Step.start (P := app) Action.actionBtn tap rfl))
    · intro x same
      exact Option.some.inj same ▸ trivial
    · intro e r same
      injection Option.some.inj same with _ same _
      cases same
  exact (tapped.block opened trivial).callback served nofun trivial

/-- Sign In succeeds, and the HUD has been shown and dismissed. -/
theorem hud_dismissed_sample :
    ∃ a : App Unit, a.device.network.log.length = 2 ∧ a.Quiet ∧ a.visible = false := by
  let answer : Option String × Option Error := (some "u", none)
  let welcomed := signInAnswered answer { vars := some (), queued := [.own .dismiss] }
  let closed := (welcomed.popped []).absorb { vars := some (), reported := [.dismissed] }
  have replied : (signInAsked.served [] asks answer).Step none (.deliver asks answer) welcomed :=
    .deliver (.refl _) rfl
  have dismissed : welcomed.Step none (.block (.own .dismiss)) closed := .block rfl rfl
  have answered : Run anyService .texts ⟨[]⟩ Smooth (launch () none) (signingIn welcomed _ [0]) :=
    (signIn_served answer).callback replied nofun ⟨rfl, rfl⟩
  let log : List (Completion app) := [⟨0, .actionBtn, .shown⟩, ⟨0, .actionBtn, .dismissed⟩]
  have run : Run anyService .texts ⟨[]⟩ Smooth (launch () none) (signingIn closed log []) :=
    answered.block dismissed trivial
  have quiet : (signingIn closed log []).Quiet := signingIn_quiet rfl
  exact ⟨_, rfl, quiet, (hud_dismissed ..).1 _ run quiet⟩

/-- Sign In is refused, and the HUD stays up with nothing pending. -/
theorem hud_stuck : ¬ ∀ a : App Unit,
    Run anyService .texts ⟨[]⟩ Network.AnyLabel (launch () none) a → a.Quiet → a.visible = false := by
  intro dismissed
  let answer : Option String × Option Error := (none, some ⟨"wrong password"⟩)
  let refused := signInAnswered answer { vars := some () }
  have replied : (signInAsked.served [] asks answer).Step none (.deliver asks answer) refused :=
    .deliver (.refl _) rfl
  have served : Run anyService .texts ⟨[]⟩ Network.AnyLabel (launch () none) _ :=
    (signIn_served answer).weaken fun _ _ _ => trivial
  have run : Run anyService .texts ⟨[]⟩ Network.AnyLabel (launch () none) (signingIn refused _ []) :=
    served.callback replied nofun trivial
  cases dismissed _ run (signingIn_quiet rfl)

end App
end SimpleSNS
