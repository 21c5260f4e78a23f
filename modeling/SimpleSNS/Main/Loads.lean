import SimpleSNS.APIHandler.Handler
import SimpleSNS.Async.Listener
import SimpleSNS.Main.Screens

/-!
Loads that overlap. A screen shows what the load that was delivered last has brought, whichever
was started last.
-/

namespace SimpleSNS
open Async UIKit Network

/-- No load of this kind was started after call `i`. -/
def Newest (k : Api) (s : Network api Backend) (i : Nat) (c : Call (api k)) : Prop :=
  s.calls[i]? = some ⟨k, c⟩ ∧ ∀ (j : Nat) (d : Call (api k)), s.calls[j]? = some ⟨k, d⟩ → j ≤ i

/-- The loads have delivered in the order in which they were started. -/
def InStartOrder (k : Api) (s : Network api Backend) : Prop :=
  (delivered k s.log).Pairwise fun x y => x.1 ≤ y.1

/-- If the loads deliver in start order, what is delivered last is the newest load's. -/
theorem newest_delivered {ok : Network api Backend → Label api → Prop} {w : Backend} {k : Api}
    {s : Network api Backend} {i : Nat} {c : Call (api k)} (run : Run backend ok { world := w } s)
    (newest : Newest k s i c) (reported : c.reports ≠ []) (ordered : InStartOrder k s) :
    ∃ r, (delivered k s.log).getLast? = some (i, r) ∧ c.reports.getLast? = some r := by
  obtain ⟨found, upper⟩ := newest
  obtain ⟨r, last⟩ := run.logged.newest_last found upper reported ordered
  exact ⟨r, last, run.logged.last_report found last⟩

namespace HomeViewController

def hear (v : HomeViewController) : Completion api → HomeViewController
  | ⟨_, .fetchAllPost, result⟩ => v.fetchPost result
  | _ => v

/-- The table view and the main queue. -/
def Own (v v' : HomeViewController) : Prop :=
  ∃ ev, (∀ result, ev ≠ .fetchPost result) ∧ v.Enabled ev ∧ v.react ev = .ok v'

theorem hears (v : HomeViewController) (x : Completion api) : (hear v x).postInfoArray =
    ((ofKind .fetchAllPost x).map fun y => y.2).getD v.postInfoArray := by
  obtain ⟨i, k, r⟩ := x
  cases k <;> rfl

theorem own_keeps {v v' : HomeViewController} (own : Own v v') :
    v'.postInfoArray = v.postInfoArray := by
  obtain ⟨ev, other, _, ran⟩ := own
  cases ev with
  | fetchPost result => exact absurd rfl (other result)
  | willDisplay cell row =>
    obtain rfl := Except.ok.inj ran
    rfl
  | main =>
    have blocks : v.runBlock = .ok v' := ran
    cases next : v.table.queue with
    | nil =>
      unfold runBlock at blocks
      rw [next] at blocks
      cases blocks
      rfl
    | cons b rest =>
      cases b with
      | row cell row =>
        rw [runBlock_row next] at blocks
        obtain ⟨table, filled, same⟩ := bind_ok.mp blocks
        obtain rfl := Except.ok.inj same
        obtain ⟨_, rfl⟩ := Table.fill_ok_iff.mp filled
        rfl
      | own b =>
        rw [runBlock_reload next] at blocks
        cases blocks
        rfl

end HomeViewController

namespace FriendViewController

def hear (v : FriendViewController) : Completion api → FriendViewController
  | ⟨_, .fetchFriendList, result⟩ => v.fetchFriends result
  | _ => v

/-- Everything else that happens on the screen, searches and processed removals apart. -/
def Passive (v : FriendViewController) : Event → Prop
  | .fetchFriends _ | .textDidChange _ | .searchBarCancelButtonClicked => False
  | .main => ∀ friendId result sender rest,
    v.list.table.queue ≠ .own (.remove friendId result sender) :: rest
  | _ => True

def Own (F : Foundation) (v v' : FriendViewController) : Prop :=
  ∃ ev, v.Passive ev ∧ v.Enabled ev ∧ v.react F ev = .ok v'

def arrays (v : FriendViewController) : List UserModel × List UserModel :=
  (v.friendListArray, v.unFilteredFriendListArray)

theorem hears (v : FriendViewController) (x : Completion api) : (hear v x).arrays =
    ((ofKind .fetchFriendList x).map fun y => (y.2.getD [], y.2.getD [])).getD v.arrays := by
  obtain ⟨i, k, r⟩ := x
  cases k <;> rfl

theorem own_keeps {F : Foundation} {v v' : FriendViewController} (own : Own F v v') :
    v'.arrays = v.arrays := by
  obtain ⟨ev, passive, _, ran⟩ := own
  cases ev with
  | fetchFriends result => exact passive.elim
  | textDidChange searchText => exact passive.elim
  | searchBarCancelButtonClicked => exact passive.elim
  | willDisplay cell row =>
    obtain rfl := Except.ok.inj ran
    rfl
  | cancelAction alert =>
    obtain rfl := Except.ok.inj ran
    rfl
  | unFriend sender =>
    obtain ⟨friends, _, same⟩ := bind_ok.mp ran
    obtain rfl := Except.ok.inj same
    rfl
  | removeAction alert =>
    obtain ⟨_, _, rest⟩ := bind_ok.mp ran
    obtain ⟨_, _, same⟩ := bind_ok.mp rest
    obtain rfl := Except.ok.inj same
    rfl
  | removed request result =>
    obtain ⟨_, _, same⟩ := bind_ok.mp ran
    obtain rfl := Except.ok.inj same
    rfl
  | main =>
    have blocks : v.runBlock = .ok v' := ran
    cases next : v.list.table.queue with
    | nil =>
      unfold runBlock at blocks
      rw [next] at blocks
      cases blocks
      rfl
    | cons b rest =>
      cases b with
      | row cell row =>
        rw [runBlock_row next] at blocks
        obtain ⟨table, filled, same⟩ := bind_ok.mp blocks
        obtain rfl := Except.ok.inj same
        obtain ⟨_, rfl⟩ := Table.fill_ok_iff.mp filled
        rfl
      | own b =>
        cases b with
        | loaded =>
          rw [runBlock_loaded next] at blocks
          cases blocks
          rfl
        | reloadData =>
          rw [runBlock_reload next] at blocks
          cases blocks
          rfl
        | remove friendId result sender => exact absurd next (passive friendId result sender rest)

end FriendViewController

/-- Both screens show the result that was delivered last. It is the newest load's when the loads
deliver in the order in which they were started. -/
theorem last_delivered_shown (F : Foundation) (ok : Network api Backend → Label api → Prop)
    (w : Backend) :
    (∀ s v, Attended backend ok HomeViewController.hear HomeViewController.Own { world := w } {} s v →
      v.postInfoArray = ((delivered .fetchAllPost s.log).getLast?.map fun y => y.2).getD [] ∧
      ∀ (i : Nat) (c : Call fetchAllPost), Newest .fetchAllPost s i c → c.reports ≠ [] →
        InStartOrder .fetchAllPost s → c.reports.getLast? = some v.postInfoArray) ∧
    (∀ s v, Attended backend ok FriendViewController.hear (FriendViewController.Own F)
        { world := w } {} s v →
      v.friendListArray =
        ((delivered .fetchFriendList s.log).getLast?.map fun y => y.2.getD []).getD [] ∧
      v.unFilteredFriendListArray = v.friendListArray ∧
      ∀ (i : Nat) (c : Call fetchFriendList), Newest .fetchFriendList s i c → c.reports ≠ [] →
        InStartOrder .fetchFriendList s →
        ∃ result, c.reports.getLast? = some result ∧ v.friendListArray = result.getD []) := by
  refine ⟨?_, ?_⟩
  · intro s v attended
    have shown : v.postInfoArray =
        ((delivered .fetchAllPost s.log).getLast?.map fun y => y.2).getD [] :=
      Attended.shows_last .fetchAllPost HomeViewController.postInfoArray id rfl attended
        HomeViewController.hears fun _ _ => HomeViewController.own_keeps
    refine ⟨shown, ?_⟩
    intro i c newest reported ordered
    obtain ⟨r, last, own_last⟩ := newest_delivered attended.run newest reported ordered
    rw [last] at shown
    rw [own_last, shown]
    rfl
  · intro s v attended
    have shown : v.arrays = ((delivered .fetchFriendList s.log).getLast?.map fun y =>
        (y.2.getD [], y.2.getD [])).getD ([], []) :=
      Attended.shows_last .fetchFriendList FriendViewController.arrays
        (fun result : Option (List UserModel) => (result.getD [], result.getD [])) rfl attended
        FriendViewController.hears fun _ _ => FriendViewController.own_keeps
    have both : v.friendListArray =
        ((delivered .fetchFriendList s.log).getLast?.map fun y => y.2.getD []).getD [] ∧
        v.unFilteredFriendListArray = v.friendListArray := by
      have first := congrArg Prod.fst shown
      have second := congrArg Prod.snd shown
      change v.friendListArray = _ at first
      change v.unFilteredFriendListArray = _ at second
      cases last : (delivered .fetchFriendList s.log).getLast? with
      | none =>
        rw [last] at first second
        exact ⟨first, second.trans first.symm⟩
      | some y =>
        rw [last] at first second
        exact ⟨first, second.trans first.symm⟩
    refine ⟨both.1, both.2, ?_⟩
    intro i c newest reported ordered
    obtain ⟨r, last, own_last⟩ := newest_delivered attended.run newest reported ordered
    refine ⟨r, own_last, ?_⟩
    rw [both.1, last]
    rfl

/-- A user with one friend. -/
def befriended : Backend where
  database := .obj [("USER", .obj [
    ("u", .obj [("FRIENDS", .obj [("f", .str "Friend Id")])]),
    ("f", .obj [("First Name", .str "Ann")])])]
  storage := fun name => if name = "UserImages/f.png" then some ⟨[1]⟩ else none

def loadFriends : List (Device.Choice backend) :=
  let respond := policy true sampleAccount
  [.session (some sampleAccount), .start .fetchFriendList (), .serve 0 0 respond, .deliver 0 0,
    .serve 0 0 respond, .deliver 0 0, .serve 0 0 respond, .deliver 0 0, .block]

/-- One load, shown. -/
theorem last_delivered_shown_sample :
    ∃ s v c, Attended backend AnyLabel FriendViewController.hear (FriendViewController.Own .ascii)
        { world := befriended } {} s v ∧ Newest .fetchFriendList s 0 c ∧
      ∃ friend, c.reports = [some [friend]] ∧ v.friendListArray = [friend] := by
  have ran : ((Device.boot befriended none).exec AnyLabel loadFriends).isSome := rfl
  have run := (Device.exec_run (Option.some_get ran).symm).network
  have calls : (Option.get _ ran).network.calls = [⟨.fetchFriendList, _⟩] := rfl
  have found : (Option.get _ ran).network.calls[0]? = some ⟨.fetchFriendList, _⟩ := rfl
  have upper : ∀ (j : Nat) (d : Call fetchFriendList),
      (Option.get _ ran).network.calls[j]? = some ⟨.fetchFriendList, d⟩ → j ≤ 0 := by
    intro j d found
    have bound := (List.getElem?_eq_some_iff.mp found).1
    rw [calls] at bound
    exact Nat.le_of_lt_succ bound
  have ordered : InStartOrder .fetchFriendList (Option.get _ ran).network :=
    List.pairwise_singleton _ _
  have attended : Attended backend AnyLabel FriendViewController.hear
    (FriendViewController.Own .ascii) { world := befriended } {} _ _ := Attended.of_run rfl run
  obtain ⟨result, reported, shown⟩ := ((last_delivered_shown .ascii AnyLabel befriended).2 _ _
    attended).2.2 0 _ ⟨found, upper⟩ (List.cons_ne_nil _ _) ordered
  obtain rfl := Option.some.inj reported
  exact ⟨_, _, _, attended, ⟨found, upper⟩, _, rfl, shown⟩

/-- A list of friends is read only after all loads started before it have read theirs. -/
def readInOrder (s : Network api Backend) : Label api → Bool
  | .call _ i .fetchFriendList (.serve (.friends _) _) =>
    (s.calls.take i).all fun job =>
      match job with
      | ⟨.fetchFriendList, d⟩ => d.waiting.all fun r =>
        match r with
        | .friends _ => false
        | _ => true
      | _ => true
  | _ => true

def ReadInOrder (s : Network api Backend) (l : Label api) : Prop := readInOrder s l = true

instance (s : Network api Backend) (l : Label api) : Decidable (ReadInOrder s l) :=
  inferInstanceAs (Decidable (readInOrder s l = true))

/-- The second load reads an empty list, after the friend has been removed, and delivers at once.
The first is still reading the friend's record and picture. -/
def reappear : List (Device.Choice backend) :=
  let respond := policy true sampleAccount
  [.session (some sampleAccount), .start .fetchFriendList (), .serve 0 0 respond, .deliver 0 0,
    .start .removeFromFriendList "f", .serve 1 0 respond, .start .fetchFriendList (),
    .serve 2 0 respond, .deliver 2 0, .serve 0 0 respond, .deliver 0 0, .serve 0 0 respond,
    .deliver 0 0, .block]

theorem older_load_shown : ¬ ∀ w s v,
    Attended backend ReadInOrder FriendViewController.hear (FriendViewController.Own .ascii)
      { world := w } {} s v →
    (∀ (i : Nat) (c : Call fetchFriendList), s.calls[i]? = some ⟨.fetchFriendList, c⟩ →
      c.reports ≠ []) →
    ∀ (i : Nat) (c : Call fetchFriendList), Newest .fetchFriendList s i c →
      ∃ result, c.reports.getLast? = some result ∧ v.friendListArray = result.getD [] := by
  intro newest_shown
  have ran : ((Device.boot befriended none).exec ReadInOrder reappear).isSome := rfl
  have run := (Device.exec_run (Option.some_get ran).symm).network
  have calls : (Option.get _ ran).network.calls =
      [⟨.fetchFriendList, _⟩, ⟨.removeFromFriendList, _⟩, ⟨.fetchFriendList, _⟩] := rfl
  have first : (Option.get _ ran).network.calls[0]? = some ⟨.fetchFriendList, _⟩ := rfl
  have second : (Option.get _ ran).network.calls[2]? = some ⟨.fetchFriendList, _⟩ := rfl
  have all_reported : ∀ (i : Nat) (c : Call fetchFriendList),
      (Option.get _ ran).network.calls[i]? = some ⟨.fetchFriendList, c⟩ → c.reports ≠ [] := by
    intro i c found
    match i with
    | 0 =>
      obtain rfl := job_inj (Option.some.inj (first.symm.trans found))
      exact List.cons_ne_nil _ _
    | 1 =>
      rw [calls] at found
      cases found
    | 2 =>
      obtain rfl := job_inj (Option.some.inj (second.symm.trans found))
      exact List.cons_ne_nil _ _
    | _ + 3 =>
      rw [calls] at found
      cases found
  have newest : ∀ (j : Nat) (d : Call fetchFriendList),
      (Option.get _ ran).network.calls[j]? = some ⟨.fetchFriendList, d⟩ → j ≤ 2 := by
    intro j d found
    have bound := (List.getElem?_eq_some_iff.mp found).1
    rw [calls] at bound
    exact Nat.le_of_lt_succ bound
  obtain ⟨result, none_left, shown⟩ :=
    newest_shown befriended _ _ (Attended.of_run rfl run) all_reported 2 _ ⟨second, newest⟩
  obtain rfl : none = result := Option.some.inj none_left
  cases shown

end SimpleSNS
