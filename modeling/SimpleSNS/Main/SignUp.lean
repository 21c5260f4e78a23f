import SimpleSNS.APIHandler.Profiles
import SimpleSNS.Async.Machine

/-!
`SignUpViewController`. Each tap on Submit enters one group and asks for the location; the
registrations of all taps wait on that group. A location leaves it, a failed request does not.
-/

namespace SimpleSNS
open Async

/-- Coordinates with Swift's printing and parsing of them. -/
structure CoreLocation where
  Degrees : Type
  description : Degrees → String
  double : String → Option Degrees
  parses : ∀ degrees, double (description degrees) = some degrees

/-- Degrees that are their texts. -/
def CoreLocation.texts : CoreLocation where
  Degrees := String
  description := id
  double := some
  parses _ := rfl

structure CLLocation (C : CoreLocation) where
  latitude : C.Degrees
  longitude : C.Degrees

/-- The one kind of notify block: the registration. -/
inductive SignUpBlock where
  | register
  deriving DecidableEq

/-- `requests` are the location requests without an answer; `located`, `failed` and `ran` count the
answers of both kinds and the registration blocks that have run. -/
structure SignUpViewController where
  userInfo : Option UserModel := some {}
  image : Option UIImage := none
  signUpDispatchGroup : DispatchGroup SignUpBlock := .new
  queue : List SignUpBlock := []
  registered : List SignUpNewUser.Input := []
  requests : Nat := 0
  located : Nat := 0
  failed : Nat := 0
  ran : Nat := 0

namespace SignUpViewController

inductive Event (C : CoreLocation) where
  | textFieldDidEndEditing (tag : Nat) (text : Option String)
  | imagePickerController (image : UIImage)
  | submitActionBtn
  | didUpdateLocations (locations : List (CLLocation C))
  | didFailWithError (error : Error)
  | main

def textFieldDidEndEditing (userInfo : UserModel) (tag : Nat) (text : Option String) : UserModel :=
  match tag with
  | 0 => { userInfo with firstName := text }
  | 1 => { userInfo with lastName := text }
  | 2 => { userInfo with emailId := text }
  | 3 => { userInfo with address := text }
  | 4 => { userInfo with phoneNumber := text }
  | 5 => { userInfo with password := text }
  | _ => userInfo

/-- The editing that the tap ends has called `textFieldDidEndEditing` before. -/
def submitActionBtn (v : SignUpViewController) : SignUpViewController :=
  let entered := v.signUpDispatchGroup.enter
  let (group, released) := entered.notify .register
  { v with signUpDispatchGroup := group, requests := v.requests + 1, queue := v.queue ++ released }

def didUpdateLocations (C : CoreLocation) (v : SignUpViewController) (locations : List (CLLocation C)) :
    Except Trap SignUpViewController :=
  match locations.getLast? with
  | some location => do
    let userInfo := v.userInfo.map fun userInfo => { userInfo with
      latitude := some (C.description location.latitude)
      longitude := some (C.description location.longitude) }
    let (group, released) ← v.signUpDispatchGroup.leave
    return { v with userInfo, signUpDispatchGroup := group, queue := v.queue ++ released }
  | none => .ok v

/-- The registration block. -/
def register (defaultUser : UIImage) (v : SignUpViewController) : SignUpViewController :=
  match SimpleSNS.submitActionBtn v.userInfo (v.image.getD defaultUser) with
  | some input => { v with registered := v.registered ++ [input] }
  | none => v

/-- `didFailWithError` only prints the error. -/
def react (C : CoreLocation) (defaultUser : UIImage) (v : SignUpViewController) :
    Event C → Except Trap SignUpViewController
  | .textFieldDidEndEditing tag text =>
    .ok { v with userInfo := v.userInfo.map fun userInfo => textFieldDidEndEditing userInfo tag text }
  | .imagePickerController image => .ok { v with image := some image }
  | .submitActionBtn => .ok v.submitActionBtn
  | .didUpdateLocations locations =>
    { v with requests := v.requests - 1, located := v.located + 1 }.didUpdateLocations C locations
  | .didFailWithError _ => .ok { v with requests := v.requests - 1, failed := v.failed + 1 }
  | .main =>
    match v.queue with
    | [] => .ok v
    | .register :: rest => .ok ({ v with queue := rest, ran := v.ran + 1 }.register defaultUser)

/-- Each location request is answered once, with at least one location or an error. -/
def Enabled {C : CoreLocation} (v : SignUpViewController) : Event C → Prop
  | .didUpdateLocations locations => 0 < v.requests ∧ locations ≠ []
  | .didFailWithError _ => 0 < v.requests
  | .main => v.queue ≠ []
  | _ => True

def machine (C : CoreLocation) (defaultUser : UIImage) : Machine SignUpViewController (Event C) :=
  ⟨Enabled, react C defaultUser⟩

/-! ### The gate -/

/-- The group counts the requests without a location, and no registration is lost or run twice. -/
structure Balanced (v : SignUpViewController) : Prop where
  count : v.signUpDispatchGroup.count = v.requests + v.failed
  blocks : v.ran + v.queue.length + v.signUpDispatchGroup.pending.length =
    v.requests + v.located + v.failed

/-- The group is at zero, nothing waits on it, and once the main queue has drained each located tap
has had its registration. -/
structure Settled (v : SignUpViewController) : Prop where
  count : v.signUpDispatchGroup.count = 0
  pending : v.signUpDispatchGroup.pending = []
  registrations : v.queue = [] → v.ran = v.located

variable {C : CoreLocation} {defaultUser : UIImage} {v v' : SignUpViewController} {ev : Event C}

theorem submitActionBtn_balanced (balanced : v.Balanced) : v.submitActionBtn.Balanced := by
  have positive : 0 < v.signUpDispatchGroup.enter.count := Nat.succ_pos _
  have released := DispatchGroup.notify_released positive SignUpBlock.register
  have pending := DispatchGroup.notify_pending positive SignUpBlock.register
  refine ⟨?_, ?_⟩
  · show (v.signUpDispatchGroup.enter.notify .register).1.count = v.requests + 1 + v.failed
    rw [DispatchGroup.notify_count, DispatchGroup.enter_count, balanced.count]
    omega
  · show v.ran + (v.queue ++ (v.signUpDispatchGroup.enter.notify .register).2).length +
      (v.signUpDispatchGroup.enter.notify .register).1.pending.length =
        v.requests + 1 + v.located + v.failed
    have blocks := balanced.blocks
    rw [released, pending, List.append_nil, List.length_append, DispatchGroup.enter_pending,
      List.length_singleton]
    omega

theorem didUpdateLocations_left {locations : List (CLLocation C)} (found : locations ≠ [])
    (ran : v.didUpdateLocations C locations = .ok v') : ∃ group released,
      v.signUpDispatchGroup.leave = .ok (group, released) ∧
      ∃ userInfo, v' = { v with userInfo, signUpDispatchGroup := group, queue := v.queue ++ released } := by
  unfold didUpdateLocations at ran
  cases last : locations.getLast? with
  | none => exact absurd (List.getLast?_eq_none_iff.mp last) found
  | some location =>
    rw [last] at ran
    obtain ⟨⟨group, released⟩, left, same⟩ := bind_ok.mp ran
    exact ⟨group, released, left, _, (Except.ok.inj same).symm⟩

theorem register_same (defaultUser : UIImage) (v : SignUpViewController) :
    ∃ registered, v.register defaultUser = { v with registered } := by
  unfold register
  split
  · exact ⟨_, rfl⟩
  · exact ⟨_, rfl⟩

theorem main_ran (queued : v.queue ≠ []) (ran : v.react C defaultUser .main = .ok v') :
    ∃ b rest registered, v.queue = b :: rest ∧
      v' = { v with queue := rest, ran := v.ran + 1, registered } := by
  simp only [react] at ran
  split at ran
  · rename_i empty
    exact absurd empty queued
  · rename_i rest next
    obtain ⟨registered, same⟩ := register_same defaultUser
      { v with queue := rest, ran := v.ran + 1 }
    exact ⟨_, rest, registered, next, (Except.ok.inj ran).symm.trans same⟩

theorem react_balanced (balanced : v.Balanced) (possible : v.Enabled ev)
    (ran : v.react C defaultUser ev = .ok v') : v'.Balanced := by
  have count := balanced.count
  have blocks := balanced.blocks
  cases ev with
  | textFieldDidEndEditing tag text =>
    obtain rfl := Except.ok.inj ran
    exact ⟨count, blocks⟩
  | imagePickerController image =>
    obtain rfl := Except.ok.inj ran
    exact ⟨count, blocks⟩
  | submitActionBtn =>
    obtain rfl := Except.ok.inj ran
    exact submitActionBtn_balanced balanced
  | didUpdateLocations locations =>
    obtain ⟨asked, found⟩ := possible
    obtain ⟨group, released, left, userInfo, rfl⟩ := didUpdateLocations_left found ran
    obtain ⟨lower, kept⟩ := DispatchGroup.leave_ok left
    have lengths := congrArg List.length kept
    change group.count + 1 = v.signUpDispatchGroup.count at lower
    change (released ++ group.pending).length = v.signUpDispatchGroup.pending.length at lengths
    rw [List.length_append] at lengths
    refine ⟨?_, ?_⟩
    · show group.count = v.requests - 1 + v.failed
      omega
    · show v.ran + (v.queue ++ released).length + group.pending.length =
        v.requests - 1 + (v.located + 1) + v.failed
      rw [List.length_append]
      omega
  | didFailWithError error =>
    obtain rfl := Except.ok.inj ran
    change 0 < v.requests at possible
    refine ⟨?_, ?_⟩
    · show v.signUpDispatchGroup.count = v.requests - 1 + (v.failed + 1)
      omega
    · show v.ran + v.queue.length + v.signUpDispatchGroup.pending.length =
        v.requests - 1 + v.located + (v.failed + 1)
      omega
  | main =>
    obtain ⟨b, rest, registered, next, rfl⟩ := main_ran possible ran
    rw [next, List.length_cons] at blocks
    refine ⟨count, ?_⟩
    show v.ran + 1 + rest.length + v.signUpDispatchGroup.pending.length =
      v.requests + v.located + v.failed
    omega

theorem run_balanced {ok : SignUpViewController → Event C → Prop}
    (run : (machine C defaultUser).Run ok {} v) : v.Balanced := by
  refine run.invariant (I := Balanced) ⟨rfl, rfl⟩ ?_
  intro v ev v' balanced possible _ ran
  exact react_balanced balanced possible ran

theorem never_traps (balanced : v.Balanced) (possible : v.Enabled ev) (t : Trap) :
    v.react C defaultUser ev ≠ .error t := by
  intro trapped
  cases ev with
  | textFieldDidEndEditing tag text => cases trapped
  | imagePickerController image => cases trapped
  | submitActionBtn => cases trapped
  | didFailWithError error => cases trapped
  | main =>
    simp only [react] at trapped
    split at trapped
    · cases trapped
    · cases trapped
  | didUpdateLocations locations =>
    obtain ⟨asked, found⟩ := possible
    simp only [react, didUpdateLocations] at trapped
    split at trapped
    · cases left : v.signUpDispatchGroup.leave with
      | ok result => rw [left] at trapped; cases trapped
      | error t' =>
        have zero := (DispatchGroup.leave_error_iff.mp left).1
        have count := balanced.count
        omega
    · cases trapped

/-- With no request outstanding, the gate has settled exactly when no location request failed. -/
theorem Balanced.settled_iff (balanced : v.Balanced) (answered : v.requests = 0) :
    v.Settled ↔ v.failed = 0 := by
  have count := balanced.count
  have blocks := balanced.blocks
  constructor
  · intro settled
    have zero := settled.count
    omega
  · intro none_failed
    have zero : v.signUpDispatchGroup.count = 0 := by omega
    have pending := v.signUpDispatchGroup.drained zero
    refine ⟨zero, pending, ?_⟩
    intro drained
    rw [pending, drained, List.length_nil] at blocks
    omega

/-! ### After a failed request -/

/-- Once a request has failed, no registration is released again. -/
theorem react_blocked (balanced : v.Balanced) (blocked : 0 < v.failed) (possible : v.Enabled ev)
    (ran : v.react C defaultUser ev = .ok v') :
    0 < v'.failed ∧ v'.ran + v'.queue.length = v.ran + v.queue.length := by
  have count := balanced.count
  cases ev with
  | textFieldDidEndEditing tag text =>
    obtain rfl := Except.ok.inj ran
    exact ⟨blocked, rfl⟩
  | imagePickerController image =>
    obtain rfl := Except.ok.inj ran
    exact ⟨blocked, rfl⟩
  | submitActionBtn =>
    obtain rfl := Except.ok.inj ran
    have released := DispatchGroup.notify_released (g := v.signUpDispatchGroup.enter)
      (Nat.succ_pos _) SignUpBlock.register
    refine ⟨blocked, ?_⟩
    show v.ran + (v.queue ++ (v.signUpDispatchGroup.enter.notify .register).2).length = _
    rw [released, List.append_nil]
  | didUpdateLocations locations =>
    obtain ⟨asked, found⟩ := possible
    obtain ⟨group, released, left, userInfo, rfl⟩ := didUpdateLocations_left found ran
    obtain ⟨group', left', _⟩ := DispatchGroup.leave_more (g := v.signUpDispatchGroup) (by omega)
    obtain ⟨-, rfl⟩ := Prod.mk.inj (Except.ok.inj (left.symm.trans left'))
    refine ⟨blocked, ?_⟩
    show v.ran + (v.queue ++ []).length = _
    rw [List.append_nil]
  | didFailWithError error =>
    obtain rfl := Except.ok.inj ran
    exact ⟨Nat.succ_pos _, rfl⟩
  | main =>
    obtain ⟨b, rest, registered, next, rfl⟩ := main_ran possible ran
    refine ⟨blocked, ?_⟩
    show v.ran + 1 + rest.length = v.ran + v.queue.length
    rw [next, List.length_cons]
    omega

theorem run_blocked (balanced : v.Balanced) (blocked : 0 < v.failed)
    (run : (machine C defaultUser).Run Machine.AnyEvent v v') :
    v'.ran + v'.queue.length = v.ran + v.queue.length := by
  have kept := run.invariant
    (I := fun w => w.Balanced ∧ 0 < w.failed ∧ w.ran + w.queue.length = v.ran + v.queue.length)
    ⟨balanced, blocked, rfl⟩ (by
      intro w ev w' held possible _ ran
      obtain ⟨balanced, blocked, same⟩ := held
      have step := react_blocked balanced blocked possible ran
      exact ⟨react_balanced balanced possible ran, step.1, step.2.trans same⟩)
  exact kept.2.2

/-! ### What is registered -/

/-- Coordinates that are set have been printed from degrees. -/
structure Placed (C : CoreLocation) (userInfo : UserModel) : Prop where
  latitude : ∀ text, userInfo.latitude = some text → ∃ degrees, text = C.description degrees
  longitude : ∀ text, userInfo.longitude = some text → ∃ degrees, text = C.description degrees

/-- The model and everything that was registered has coordinates of a location, and what was
registered has passed the check of the screen. -/
structure Registers (C : CoreLocation) (v : SignUpViewController) : Prop where
  userInfo : ∀ userInfo, v.userInfo = some userInfo → Placed C userInfo
  registered : ∀ input ∈ v.registered, Placed C input.userInfo ∧
    SimpleSNS.submitActionBtn (some input.userInfo) input.userImg = some input

theorem ended_placed {userInfo : UserModel} (placed : Placed C userInfo) (tag : Nat)
    (text : Option String) : Placed C (textFieldDidEndEditing userInfo tag text) := by
  unfold textFieldDidEndEditing
  split
  all_goals exact ⟨placed.latitude, placed.longitude⟩

theorem register_registers (registers : Registers C v) : Registers C (v.register defaultUser) := by
  unfold register
  cases submitted : SimpleSNS.submitActionBtn v.userInfo (v.image.getD defaultUser) with
  | none => exact registers
  | some input =>
    refine ⟨registers.userInfo, ?_⟩
    intro input' member
    rcases List.mem_append.mp member with old | new
    · exact registers.registered input' old
    · obtain rfl := List.mem_singleton.mp new
      unfold SimpleSNS.submitActionBtn at submitted
      cases model : v.userInfo with
      | none =>
        rw [model] at submitted
        cases submitted
      | some userInfo =>
        rw [model] at submitted
        obtain ⟨checked, same⟩ := Option.ite_none_right_eq_some.mp submitted
        obtain rfl := Option.some.inj same
        exact ⟨registers.userInfo userInfo model, if_pos checked⟩

theorem react_registers (registers : Registers C v) (possible : v.Enabled ev)
    (ran : v.react C defaultUser ev = .ok v') : Registers C v' := by
  cases ev with
  | textFieldDidEndEditing tag text =>
    obtain rfl := Except.ok.inj ran
    refine ⟨?_, registers.registered⟩
    intro userInfo' model'
    obtain ⟨userInfo, model, rfl⟩ := Option.map_eq_some_iff.mp model'
    exact ended_placed (registers.userInfo userInfo model) tag text
  | imagePickerController image =>
    obtain rfl := Except.ok.inj ran
    exact ⟨registers.userInfo, registers.registered⟩
  | submitActionBtn =>
    obtain rfl := Except.ok.inj ran
    exact ⟨registers.userInfo, registers.registered⟩
  | didUpdateLocations locations =>
    simp only [react, didUpdateLocations] at ran
    cases last : locations.getLast? with
    | none => exact absurd (List.getLast?_eq_none_iff.mp last) possible.2
    | some location =>
      rw [last] at ran
      obtain ⟨⟨group, released⟩, _, same⟩ := bind_ok.mp ran
      obtain rfl := Except.ok.inj same
      refine ⟨?_, registers.registered⟩
      intro userInfo' model'
      obtain ⟨userInfo, _, rfl⟩ := Option.map_eq_some_iff.mp model'
      exact ⟨fun _ set => ⟨location.latitude, (Option.some.inj set).symm⟩,
        fun _ set => ⟨location.longitude, (Option.some.inj set).symm⟩⟩
  | didFailWithError error =>
    obtain rfl := Except.ok.inj ran
    exact ⟨registers.userInfo, registers.registered⟩
  | main =>
    simp only [react] at ran
    split at ran
    · obtain rfl := Except.ok.inj ran
      exact registers
    · obtain rfl := Except.ok.inj ran
      exact register_registers ⟨registers.userInfo, registers.registered⟩

theorem run_registers {ok : SignUpViewController → Event C → Prop}
    (run : (machine C defaultUser).Run ok {} v) : Registers C v := by
  refine run.invariant (I := Registers C) ⟨?_, fun _ member => absurd member List.not_mem_nil⟩ ?_
  · intro userInfo model
    obtain rfl := Option.some.inj model
    exact ⟨nofun, nofun⟩
  · intro v ev v' registers possible _ ran
    exact react_registers registers possible ran

theorem react_userInfo (modelled : v.userInfo.isSome) (ran : v.react C defaultUser ev = .ok v') :
    v'.userInfo.isSome := by
  cases ev with
  | textFieldDidEndEditing tag text =>
    obtain rfl := Except.ok.inj ran
    exact (Option.isSome_map ..).trans modelled
  | imagePickerController image =>
    obtain rfl := Except.ok.inj ran
    exact modelled
  | submitActionBtn =>
    obtain rfl := Except.ok.inj ran
    exact modelled
  | didUpdateLocations locations =>
    simp only [react, didUpdateLocations] at ran
    split at ran
    · obtain ⟨⟨group, released⟩, _, same⟩ := bind_ok.mp ran
      obtain rfl := Except.ok.inj same
      exact (Option.isSome_map ..).trans modelled
    · obtain rfl := Except.ok.inj ran
      exact modelled
  | didFailWithError error =>
    obtain rfl := Except.ok.inj ran
    exact modelled
  | main =>
    simp only [react] at ran
    split at ran
    · obtain rfl := Except.ok.inj ran
      exact modelled
    · rename_i rest _
      obtain ⟨registered, same⟩ := register_same defaultUser
        { v with queue := rest, ran := v.ran + 1 }
      obtain rfl := (Except.ok.inj ran).symm.trans same
      exact modelled

/-- Every location request is answered with a location. -/
def Located (_ : SignUpViewController) : Event C → Prop
  | .didFailWithError _ => False
  | _ => True

theorem run_located (run : (machine C defaultUser).Run Located {} v) : v.failed = 0 := by
  refine run.invariant (M := machine C defaultUser) (I := fun v => v.failed = 0) rfl ?_
  intro v ev v' none_failed possible located ran
  cases ev with
  | textFieldDidEndEditing tag text =>
    obtain rfl := Except.ok.inj ran
    exact none_failed
  | imagePickerController image =>
    obtain rfl := Except.ok.inj ran
    exact none_failed
  | submitActionBtn =>
    obtain rfl := Except.ok.inj ran
    exact none_failed
  | didUpdateLocations locations =>
    obtain ⟨_, _, _, _, rfl⟩ := didUpdateLocations_left possible.2 ran
    exact none_failed
  | didFailWithError error => exact located.elim
  | main =>
    obtain ⟨_, _, _, _, rfl⟩ := main_ran (C := C) possible ran
    exact none_failed

/-- The group is never left at zero. With no location request outstanding the gate has settled if no
request failed, and only then; after a failed request no registration is ever released. -/
theorem gate_settles (C : CoreLocation) (defaultUser : UIImage) :
    (∀ v, (machine C defaultUser).Run Machine.AnyEvent {} v →
      (∀ ev, v.Enabled ev → ∀ t, v.react C defaultUser ev ≠ .error t) ∧
      (v.requests = 0 → (v.Settled ↔ v.failed = 0)) ∧
      (0 < v.failed → ∀ v', (machine C defaultUser).Run Machine.AnyEvent v v' →
        v'.ran + v'.queue.length = v.ran + v.queue.length)) ∧
    (∀ v, (machine C defaultUser).Run Located {} v → v.requests = 0 → v.Settled) := by
  refine ⟨?_, ?_⟩
  · intro v run
    have balanced := run_balanced run
    exact ⟨fun _ possible => never_traps balanced possible, balanced.settled_iff,
      fun blocked _ => run_blocked balanced blocked⟩
  · intro v run answered
    exact ((run_balanced run).settled_iff answered).mpr (run_located run)

/-- One tap, answered with a location; the registration has run. -/
theorem gate_settles_sample : ∃ v : SignUpViewController, v.ran = 1 ∧ v.located = 1 ∧ v.Settled := by
  let M := machine .texts ⟨[]⟩
  have tapped : M.Run Located {} _ := .step (i := .submitActionBtn) .refl trivial trivial rfl
  have located : M.Run Located {} _ :=
    .step (i := .didUpdateLocations [⟨"37.3", "-122.0"⟩]) tapped ⟨Nat.one_pos, nofun⟩ trivial rfl
  have registered : M.Run Located {} _ := .step (i := .main) located nofun trivial rfl
  refine ⟨_, ?_, ?_, (gate_settles .texts ⟨[]⟩).2 _ registered rfl⟩
  · rfl
  · rfl

/-- One failed request, and the registration of a second tap that is located never runs. -/
theorem gate_stuck : ¬ ∀ v, (machine .texts ⟨[]⟩).Run Machine.AnyEvent {} v → v.requests = 0 → v.Settled := by
  intro settles
  let M := machine .texts ⟨[]⟩
  have tapped : M.Run Machine.AnyEvent {} _ := .step (i := .submitActionBtn) .refl trivial trivial rfl
  have failed : M.Run Machine.AnyEvent {} _ :=
    .step (i := .didFailWithError ⟨"no location"⟩) tapped Nat.one_pos trivial rfl
  have again : M.Run Machine.AnyEvent {} _ :=
    .step (i := .submitActionBtn) failed trivial trivial rfl
  have located : M.Run Machine.AnyEvent {} _ :=
    .step (i := .didUpdateLocations [⟨"37.3", "-122.0"⟩]) again ⟨Nat.one_pos, nofun⟩ trivial rfl
  have settled := settles _ located rfl
  have registrations : 0 = 1 := settled.registrations rfl
  omega

end SignUpViewController

end SimpleSNS
