import SimpleSNS.Main.Screens

/-!
Unfriending. The friend is captured when the button is tapped, and the row is read from the
button when the server's answer is processed. The right entry is taken out if and only if the
answer is a success and the row the button then carries is the friend's.
-/

namespace SimpleSNS.FriendViewController
open Async UIKit

/-- The entry at `row` is the friend's. -/
def Holds (array : List UserModel) (row : Nat) (friendId : String) : Prop :=
  array[row]?.bind UserModel.userId = some friendId

theorem Holds.inside {array : List UserModel} {row : Nat} {friendId : String}
    (holds : Holds array row friendId) : row < array.length := by
  by_contra outside
  have missing := List.getElem?_eq_none (l := array) (i := row) (by omega)
  unfold Holds at holds
  rw [missing] at holds
  cases holds

/-- What processing an answer should do: take out the friend's entry if the server removed it and
it is listed, and nothing otherwise. -/
def RightRow (v : FriendViewController) (friendId : String) (result : FriendList.Result) :
    Except Trap FriendViewController → Prop
  | .ok v' =>
    (result = .reference → ∀ row, Holds v.friendListArray row friendId →
      ∃ row, Holds v.friendListArray row friendId ∧
        v'.friendListArray = v.friendListArray.eraseIdx row) ∧
    (¬ (result = .reference ∧ ∃ row, Holds v.friendListArray row friendId) →
      v'.friendListArray = v.friendListArray)
  | .error _ => False

theorem eraseIdx_same {array : List UserModel} {i j : Nat} (inside : i < array.length)
    (inside' : j < array.length) (same : array.eraseIdx i = array.eraseIdx j) :
    array[i] = array[j] := by
  have first := List.getElem_cons_eraseIdx_perm inside
  have second := List.getElem_cons_eraseIdx_perm inside'
  rw [same] at first
  have counts := (first.trans second.symm).count_eq array[j]
  rw [List.count_cons_self, List.count_cons] at counts
  by_contra different
  rw [if_neg (by simpa using different)] at counts
  omega

variable {v v' : FriendViewController} {friendId : String} {result : FriendList.Result}
  {sender : Nat} {rest : List (Block FriendBlock)}

theorem runBlock_removes (next : v.list.table.queue = .own (.remove friendId result sender) :: rest)
    (inside : v.list.row sender < v.friendListArray.length) :
    ∃ v', v.runBlock = .ok v' ∧ v'.friendListArray = v.friendListArray.eraseIdx (v.list.row sender) ∧
      v'.list.table.queue = rest ∧ v'.list.table.tag = v.list.table.tag ∧ v'.requests = v.requests := by
  have removed : (v.list.table.popped rest).remove (v.list.row sender) = _ :=
    Table.remove_inside inside
  refine ⟨_, (runBlock_remove next).trans (bind_ok.mpr ⟨_, removed, rfl⟩), rfl, rfl, rfl, rfl⟩

theorem runBlock_traps (next : v.list.table.queue = .own (.remove friendId result sender) :: rest)
    (outside : v.friendListArray.length ≤ v.list.row sender) :
    v.runBlock = .error .indexOutOfRange := by
  have missing : (v.list.table.popped rest).remove (v.list.row sender) = _ :=
    Table.remove_outside outside
  rw [runBlock_remove next, missing]
  rfl

theorem runBlock_fills {cell row : Nat} (next : v.list.table.queue = .row cell row :: rest)
    (ran : v.runBlock = .ok v') :
    v'.friendListArray = v.friendListArray ∧ v'.list.table.queue = rest ∧ v'.requests = v.requests ∧
      v'.list.row cell = row ∧ ∀ sender, sender ≠ cell → v'.list.row sender = v.list.row sender := by
  rw [runBlock_row next] at ran
  obtain ⟨table, filled, same⟩ := bind_ok.mp ran
  obtain rfl := Except.ok.inj same
  obtain ⟨_, rfl⟩ := Table.fill_ok_iff.mp filled
  refine ⟨rfl, rfl, rfl, ?_, ?_⟩
  · unfold UserList.row
    dsimp only
    rw [Function.update_self]
    rfl
  · intro sender other
    unfold UserList.row
    dsimp only
    rw [Function.update_of_ne other]
    rfl

/-- Exactly when processing an answer is right. -/
theorem rightRow_iff (next : v.list.table.queue = .own (.remove friendId result sender) :: rest) :
    RightRow v friendId result v.runBlock ↔
      result = .reference ∧ Holds v.friendListArray (v.list.row sender) friendId := by
  by_cases inside : v.list.row sender < v.friendListArray.length
  · obtain ⟨v', ran, erased, _⟩ := runBlock_removes next inside
    rw [ran]
    constructor
    · rintro ⟨listed_right, otherwise⟩
      have listed : result = .reference ∧ ∃ row, Holds v.friendListArray row friendId := by
        by_contra unlisted
        have lengths := congrArg List.length (erased.symm.trans (otherwise unlisted))
        rw [List.length_eraseIdx_of_lt inside] at lengths
        omega
      obtain ⟨success, row, holds⟩ := listed
      refine ⟨success, ?_⟩
      obtain ⟨row', holds', taken⟩ := listed_right success row holds
      have entries := eraseIdx_same inside holds'.inside (erased.symm.trans taken)
      unfold Holds at holds' ⊢
      rw [List.getElem?_eq_getElem inside, entries, ← List.getElem?_eq_getElem]
      exact holds'
    · rintro ⟨success, holds⟩
      refine ⟨fun _ _ _ => ⟨_, holds, erased⟩, ?_⟩
      intro unlisted
      exact absurd ⟨success, _, holds⟩ unlisted
  · rw [runBlock_traps next (by omega)]
    constructor
    · intro wrong
      exact wrong.elim
    · rintro ⟨_, holds⟩
      exact absurd holds.inside inside

/-! ### Unfriends in flight -/

def removals : List (Block FriendBlock) → List (String × Nat)
  | [] => []
  | .own (.remove friendId _ sender) :: rest => (friendId, sender) :: removals rest
  | _ :: rest => removals rest

theorem removals_append (xs ys : List (Block FriendBlock)) :
    removals (xs ++ ys) = removals xs ++ removals ys := by
  induction xs with
  | nil => rfl
  | cons b rest ih =>
    cases b with
    | row cell row => exact ih
    | own b =>
      cases b with
      | remove friendId result sender => exact congrArg ((friendId, sender) :: ·) ih
      | loaded => exact ih
      | reloadData => exact ih

/-- Every confirmed unfriend whose answer has not been processed. -/
def inFlight (v : FriendViewController) : List (String × Nat) :=
  v.requests ++ removals v.list.table.queue

/-- With this array, the button of every unfriend in flight carries the row of its friend. -/
def AlignedWith (v : FriendViewController) (array : List UserModel) : Prop :=
  ∀ unfriend ∈ v.inFlight, Holds array (v.list.row unfriend.2) unfriend.1

/-- No answer in the queue is an error and all unfriends in flight are aligned. -/
structure Aligned (v : FriendViewController) : Prop where
  rows : v.AlignedWith v.friendListArray
  accepted : ∀ friendId result sender,
    .own (.remove friendId result sender) ∈ v.list.table.queue → result = .reference

/-- The event moves no entry away from under an unfriend in flight, gives no such button another
row, confirms no unfriend of another row, and is no failed removal. -/
def Undisturbed (F : Foundation) (v : FriendViewController) : Event → Prop
  | .fetchFriends result => v.AlignedWith (result.getD [])
  | .removeAction alert => ∀ friends sender friendId, v.alerts[alert]? = some (friends, sender) →
    friends.userId = some friendId → Holds v.friendListArray (v.list.row sender) friendId
  | .removed _ result => result = .reference
  | .textDidChange searchText => ∀ users,
    UserList.filter F (F.uppercased searchText) v.unFilteredFriendListArray = .ok users →
      v.AlignedWith users
  | .searchBarCancelButtonClicked => v.AlignedWith v.unFilteredFriendListArray
  | .main =>
    match v.list.table.queue with
    | .row cell row :: _ => ∀ unfriend ∈ v.inFlight, unfriend.2 = cell →
      Holds v.friendListArray row unfriend.1
    | .own (.remove _ _ sender) :: rest => ∀ unfriend ∈ v.requests ++ removals rest,
      Holds (v.friendListArray.eraseIdx (v.list.row sender)) (v.list.row unfriend.2) unfriend.1
    | _ => True
  | _ => True

/-- The queue holds no answer that is an error. -/
theorem accepted_append {xs ys : List (Block FriendBlock)}
    (accepted : ∀ friendId result sender, .own (.remove friendId result sender) ∈ xs → result = .reference)
    (added : ∀ friendId result sender, .own (.remove friendId result sender) ∈ ys → result = .reference)
    (friendId : String) (result : FriendList.Result) (sender : Nat)
    (member : .own (.remove friendId result sender) ∈ xs ++ ys) : result = .reference := by
  rcases List.mem_append.mp member with old | new
  · exact accepted _ _ _ old
  · exact added _ _ _ new

/-- A new array keeps the unfriends in flight aligned if it holds their friends where the old one
did. -/
theorem assign_aligned {array : List UserModel} {b : FriendBlock} (aligned : v.Aligned)
    (quiet : ∀ friendId result sender, b ≠ .remove friendId result sender)
    (table : v'.list.table = v.list.table.assign array b) (requests : v'.requests = v.requests) :
    v'.Aligned ↔ v.AlignedWith array := by
  have flight : v'.inFlight = v.inFlight := by
    unfold inFlight
    rw [requests, table, Table.assign, removals_append]
    cases b with
    | remove friendId result sender => exact absurd rfl (quiet _ _ _)
    | loaded => exact congrArg _ (List.append_nil _)
    | reloadData => exact congrArg _ (List.append_nil _)
  have rows : v'.AlignedWith v'.friendListArray ↔ v.AlignedWith array := by
    unfold AlignedWith friendListArray UserList.row
    rw [flight, table]
    exact Iff.rfl
  constructor
  · intro aligned'
    exact rows.mp aligned'.rows
  · intro kept
    refine ⟨rows.mpr kept, ?_⟩
    rw [table]
    apply accepted_append aligned.accepted
    intro friendId result sender member
    cases List.mem_singleton.mp member
    exact absurd rfl (quiet _ _ _)

theorem same_aligned (aligned : v.Aligned) (array : v'.friendListArray = v.friendListArray)
    (tag : v'.list.table.tag = v.list.table.tag)
    (flight : ∀ unfriend, unfriend ∈ v'.inFlight → unfriend ∈ v.inFlight)
    (accepted : ∀ friendId result sender,
      .own (.remove friendId result sender) ∈ v'.list.table.queue → result = .reference) : v'.Aligned := by
  refine ⟨?_, accepted⟩
  intro unfriend member
  unfold UserList.row
  rw [array, tag]
  exact aligned.rows unfriend (flight unfriend member)

theorem removed_aligned {request : Nat} (aligned : v.Aligned) (ran : v.removed request result = .ok v') :
    v'.Aligned ↔ result = .reference := by
  obtain ⟨⟨friendId, sender⟩, found, same⟩ := bind_ok.mp ran
  obtain rfl := Except.ok.inj same
  have asked : v.requests[request]? = some (friendId, sender) := item_ok_iff.mp found
  have moved : ∀ unfriend, unfriend ∈ v.requests.eraseIdx request ++
      removals (v.list.table.queue ++ [.own (.remove friendId result sender)]) →
      unfriend ∈ v.inFlight := by
    intro unfriend member
    rw [removals_append] at member
    rcases List.mem_append.mp member with kept | queued
    · exact List.mem_append_left _ (List.mem_of_mem_eraseIdx kept)
    · rcases List.mem_append.mp queued with old | new
      · exact List.mem_append_right _ old
      · obtain rfl := List.mem_singleton.mp new
        exact List.mem_append_left _ (List.mem_of_getElem? asked)
  constructor
  · intro aligned'
    exact aligned'.accepted friendId result sender (List.mem_append_right _ List.mem_cons_self)
  · intro success
    refine same_aligned aligned rfl rfl moved ?_
    apply accepted_append aligned.accepted
    intro friendId' result' sender' member
    cases List.mem_singleton.mp member
    exact success

theorem removeAction_aligned {alert : Nat} (aligned : v.Aligned)
    (ran : v.removeAction alert = .ok v') :
    v'.Aligned ↔ ∀ friends sender friendId, v.alerts[alert]? = some (friends, sender) →
      friends.userId = some friendId → Holds v.friendListArray (v.list.row sender) friendId := by
  obtain ⟨⟨friends, sender⟩, found, rest⟩ := bind_ok.mp ran
  obtain ⟨friendId, id_found, same⟩ := bind_ok.mp rest
  obtain rfl := Except.ok.inj same
  have shown : v.alerts[alert]? = some (friends, sender) := item_ok_iff.mp found
  have id_set : friends.userId = some friendId := by
    cases id : friends.userId with
    | none =>
      rw [id] at id_found
      cases id_found
    | some _ =>
      rw [id] at id_found
      rw [Except.ok.inj id_found]
  constructor
  · intro aligned' friends' sender' friendId' shown' id_set'
    rw [shown] at shown'
    cases shown'
    rw [id_set] at id_set'
    cases id_set'
    exact aligned'.rows (friendId, sender)
      (List.mem_append_left _ (List.mem_append_right _ List.mem_cons_self))
  · intro confirmed
    refine ⟨?_, aligned.accepted⟩
    intro unfriend member
    rcases List.mem_append.mp member with asked | queued
    · rcases List.mem_append.mp asked with old | new
      · exact aligned.rows unfriend (List.mem_append_left _ old)
      · obtain rfl := List.mem_singleton.mp new
        exact confirmed friends sender friendId shown id_set
    · exact aligned.rows unfriend (List.mem_append_right _ queued)

theorem row_aligned {cell row : Nat} (aligned : v.Aligned)
    (next : v.list.table.queue = .row cell row :: rest) (ran : v.runBlock = .ok v') :
    v'.Aligned ↔
      ∀ unfriend ∈ v.inFlight, unfriend.2 = cell → Holds v.friendListArray row unfriend.1 := by
  obtain ⟨array, queue, requests, given, other⟩ := runBlock_fills next ran
  have flight : v'.inFlight = v.inFlight := by
    unfold inFlight
    rw [queue, requests, next]
    rfl
  constructor
  · rintro aligned' unfriend member rfl
    have holds := aligned'.rows unfriend (flight ▸ member)
    rw [given, array] at holds
    exact holds
  · intro refilled
    refine ⟨?_, ?_⟩
    · intro unfriend member
      rw [flight] at member
      rw [array]
      by_cases same_cell : unfriend.2 = cell
      · rw [same_cell, given]
        exact refilled unfriend member same_cell
      · rw [other _ same_cell]
        exact aligned.rows unfriend member
    · intro friendId result sender member
      apply aligned.accepted friendId result sender
      rw [next, ← queue]
      exact List.mem_cons_of_mem _ member

theorem remove_aligned (aligned : v.Aligned)
    (next : v.list.table.queue = .own (.remove friendId result sender) :: rest)
    (ran : v.runBlock = .ok v') :
    v'.Aligned ↔ ∀ unfriend ∈ v.requests ++ removals rest,
      Holds (v.friendListArray.eraseIdx (v.list.row sender)) (v.list.row unfriend.2) unfriend.1 := by
  have inside : v.list.row sender < v.friendListArray.length := by
    by_contra outside
    rw [runBlock_traps next (by omega)] at ran
    cases ran
  obtain ⟨v₁, removed, array, queue, tag, requests⟩ := runBlock_removes next inside
  rw [removed] at ran
  obtain rfl := Except.ok.inj ran
  have rows : v₁.AlignedWith v₁.friendListArray ↔ ∀ unfriend ∈ v.requests ++ removals rest,
      Holds (v.friendListArray.eraseIdx (v.list.row sender)) (v.list.row unfriend.2) unfriend.1 := by
    unfold AlignedWith inFlight UserList.row
    rw [array, queue, tag, requests]
    exact Iff.rfl
  constructor
  · intro aligned'
    exact rows.mp aligned'.rows
  · intro kept
    refine ⟨rows.mpr kept, ?_⟩
    rw [queue]
    intro friendId' result' sender' member
    apply aligned.accepted friendId' result' sender'
    rw [next]
    exact List.mem_cons_of_mem _ member

theorem reload_aligned {b : FriendBlock} (aligned : v.Aligned) (next : v.list.table.queue = .own b :: rest)
    (quiet : ∀ friendId result sender, b ≠ .remove friendId result sender)
    (array : v'.friendListArray = v.friendListArray) (tag : v'.list.table.tag = v.list.table.tag)
    (queue : v'.list.table.queue = rest) (requests : v'.requests = v.requests) : v'.Aligned := by
  refine same_aligned aligned array tag ?_ ?_
  · intro unfriend
    unfold inFlight
    rw [queue, requests, next]
    cases b with
    | remove friendId result sender => exact absurd rfl (quiet _ _ _)
    | loaded => exact id
    | reloadData => exact id
  · intro friendId result sender member
    apply aligned.accepted friendId result sender
    rw [next, ← queue]
    exact List.mem_cons_of_mem _ member

/-- Exactly the undisturbing events keep all unfriends in flight aligned. -/
theorem react_aligned {F : Foundation} {ev : Event} (aligned : v.Aligned)
    (ran : v.react F ev = .ok v') : v'.Aligned ↔ v.Undisturbed F ev := by
  cases ev with
  | fetchFriends loaded =>
    obtain rfl := Except.ok.inj ran
    exact assign_aligned (b := .loaded) aligned (fun _ _ _ => nofun) rfl rfl
  | willDisplay cell row =>
    obtain rfl := Except.ok.inj ran
    refine iff_of_true (same_aligned aligned rfl rfl ?_ ?_) trivial
    · intro unfriend member
      change unfriend ∈ v.requests ++ removals (v.list.table.queue ++ [.row cell row]) at member
      have quiet : removals [Block.row cell row] = [] := rfl
      rw [removals_append, quiet, List.append_nil] at member
      exact member
    · apply accepted_append aligned.accepted
      intro friendId result sender member
      cases List.mem_singleton.mp member
  | unFriend sender =>
    obtain ⟨friends, _, same⟩ := bind_ok.mp ran
    obtain rfl := Except.ok.inj same
    exact iff_of_true ⟨aligned.rows, aligned.accepted⟩ trivial
  | removeAction alert => exact removeAction_aligned aligned ran
  | cancelAction alert =>
    obtain rfl := Except.ok.inj ran
    exact iff_of_true ⟨aligned.rows, aligned.accepted⟩ trivial
  | removed request result => exact removed_aligned aligned ran
  | textDidChange searchText =>
    obtain ⟨list, searched, same⟩ := bind_ok.mp ran
    obtain rfl := Except.ok.inj same
    obtain ⟨users, found, rfl⟩ := UserList.textDidChange_ok searched
    apply Iff.trans (b := v.AlignedWith users)
    · exact assign_aligned (b := .reloadData) aligned (fun _ _ _ => nofun) rfl rfl
    · constructor
      · intro kept users' found'
        obtain rfl := Except.ok.inj (found.symm.trans found')
        exact kept
      · intro kept
        exact kept users found
  | searchBarCancelButtonClicked =>
    obtain rfl := Except.ok.inj ran
    exact assign_aligned (b := .reloadData) aligned (fun _ _ _ => nofun) rfl rfl
  | main =>
    have blocks : v.runBlock = .ok v' := ran
    unfold Undisturbed
    cases next : v.list.table.queue with
    | nil =>
      unfold runBlock at blocks
      rw [next] at blocks
      cases blocks
      exact iff_of_true aligned trivial
    | cons b rest =>
      cases b with
      | row cell row => exact row_aligned aligned next blocks
      | own b =>
        cases b with
        | loaded =>
          rw [runBlock_loaded next] at blocks
          cases blocks
          exact iff_of_true (reload_aligned aligned next (fun _ _ _ => nofun) rfl rfl rfl rfl) trivial
        | reloadData =>
          rw [runBlock_reload next] at blocks
          cases blocks
          exact iff_of_true (reload_aligned aligned next (fun _ _ _ => nofun) rfl rfl rfl rfl) trivial
        | remove friendId result sender => exact remove_aligned aligned next blocks

theorem run_aligned {F : Foundation} (run : (machine F).Run (Undisturbed F) {} v) : v.Aligned := by
  refine run.invariant (I := Aligned) ⟨nofun, nofun⟩ ?_
  intro v ev v' aligned _ undisturbed ran
  exact (react_aligned aligned ran).mpr undisturbed

/-- Whenever the answer to an unfriend is processed: what happens is right if and only if the answer
is a success and the row the button carries is the friend's. In a run without disturbance it always
is. -/
theorem unFriend_right_row (F : Foundation) :
    (∀ v, (machine F).Run Machine.AnyEvent {} v → ∀ friendId result sender rest,
      v.list.table.queue = .own (.remove friendId result sender) :: rest →
      (RightRow v friendId result (v.react F .main) ↔
        result = .reference ∧ Holds v.friendListArray (v.list.row sender) friendId)) ∧
    (∀ v, (machine F).Run (Undisturbed F) {} v → ∀ friendId result sender rest,
      v.list.table.queue = .own (.remove friendId result sender) :: rest →
      RightRow v friendId result (v.react F .main)) := by
  refine ⟨fun v _ friendId result sender rest => rightRow_iff, ?_⟩
  intro v run friendId result sender rest next
  have aligned := run_aligned run
  have queued : (friendId, sender) ∈ removals v.list.table.queue := by
    rw [next]
    exact List.mem_cons_self
  refine (rightRow_iff next).mpr ⟨?_, ?_⟩
  · apply aligned.accepted friendId result sender
    rw [next]
    exact List.mem_cons_self
  · exact aligned.rows _ (List.mem_append_right _ queued)

/-- One friend is loaded, displayed and unfriended, and the server has removed him. -/
theorem unFriend_right_row_sample : ∃ v : FriendViewController,
    v.list.table.queue = [.own (.remove "b" .reference 0)] ∧
      RightRow v "b" .reference (v.react .ascii .main) := by
  have loaded : (machine .ascii).Run (Undisturbed .ascii) {} _ :=
    .step (i := .fetchFriends (some [bob])) .refl trivial nofun rfl
  have reloaded : (machine .ascii).Run (Undisturbed .ascii) {} _ :=
    .step (i := .main) loaded nofun trivial rfl
  have displayed : (machine .ascii).Run (Undisturbed .ascii) {} _ :=
    .step (i := .willDisplay 0 0) reloaded (by decide : 0 < 1) trivial rfl
  have filled : (machine .ascii).Run (Undisturbed .ascii) {} _ :=
    .step (i := .main) displayed nofun nofun rfl
  have tapped : (machine .ascii).Run (Undisturbed .ascii) {} _ :=
    .step (i := .unFriend 0) filled rfl trivial rfl
  have confirmed : (machine .ascii).Run (Undisturbed .ascii) {} _ :=
    .step (i := .removeAction 0) tapped (by decide : 0 < 1)
      (fun _ _ _ shown id_set => by cases shown; cases id_set; rfl) rfl
  have answered : (machine .ascii).Run (Undisturbed .ascii) {} _ :=
    .step (i := .removed 0 .reference) confirmed (by decide : 0 < 1) rfl rfl
  exact ⟨_, rfl, (unFriend_right_row .ascii).2 _ answered "b" .reference 0 [] rfl⟩

/-- Both friends of a list are unfriended before the server answers; both answers are successes. -/
def unfriendBoth : List Event :=
  [.fetchFriends (some [ann, bob]), .main, .willDisplay 0 0, .willDisplay 1 1, .main, .main,
    .unFriend 0, .removeAction 0, .unFriend 1, .removeAction 0, .removed 0 .reference,
    .removed 0 .reference, .main]

theorem unFriend_wrong_row : ¬ ∀ v, (machine .ascii).Run Machine.AnyEvent {} v →
    ∀ friendId result sender rest,
      v.list.table.queue = .own (.remove friendId result sender) :: rest →
      RightRow v friendId result (v.react .ascii .main) := by
  intro always_right
  have ran : (Machine.exec (machine .ascii) Machine.AnyEvent {} unfriendBoth).isSome := rfl
  have run := Machine.exec_run (Option.some_get ran).symm
  have next : (Option.get _ ran).list.table.queue = [.own (.remove "b" .reference 1)] := rfl
  have outside : (Option.get _ ran).react .ascii .main = .error .indexOutOfRange := rfl
  have right := always_right _ run "b" .reference 1 [] next
  rw [outside] at right
  exact right

end SimpleSNS.FriendViewController
