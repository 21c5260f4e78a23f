import SimpleSNS.Main.Screens

/-!
The blocks that fill cells on the three list screens. They stay inside the array as long as every
change of it leaves it longer than the rows that wait in the queue, and every row that is about
to be displayed exists in the array as it is, not only in the table of the last reload.
-/

namespace SimpleSNS
open Async UIKit

namespace HomeViewController

def Fitting (v : HomeViewController) : Event → Prop
  | .fetchPost result => v.table.Below result.length
  | .willDisplay _ row => row < v.postInfoArray.length
  | .main => True

theorem drains : Table.Drains machine .main HomeViewController.table (fun v t => { v with table := t }) where
  possible := fun _ nonempty => nonempty
  put_table := fun _ _ => rfl
  row := fun _ _ _ _ next => runBlock_row next
  own := fun _ _ _ next => Or.inr ⟨_, runBlock_reload next, rfl, Nat.le_refl _⟩

theorem react_fits {v v' : HomeViewController} {ev : Event} (fits : v.table.Fits)
    (ran : v.react ev = .ok v') : v'.table.Fits ↔ v.Fitting ev := by
  cases ev with
  | fetchPost result =>
    obtain rfl := Except.ok.inj ran
    exact Table.assign_fits _ _ _
  | willDisplay cell row =>
    obtain rfl := Except.ok.inj ran
    exact (Table.willDisplay_fits _ _ _).trans (and_iff_right fits)
  | main =>
    refine iff_of_true ?_ trivial
    have blocks : v.runBlock = .ok v' := ran
    unfold runBlock at blocks
    split at blocks
    · cases blocks
      exact fits
    · rename_i next
      exact drains.row_fits fits next ran
    · rename_i next
      cases blocks
      exact fits.popped next

end HomeViewController

namespace UserList

variable {β : Type}

/-- What a search would leave is longer than every row in the queue. -/
def SearchFits (F : Foundation) (l : UserList β) (searchText : String) : Prop :=
  ∀ users, filter F (F.uppercased searchText) l.unfiltered = .ok users → l.table.Below users.length

theorem textDidChange_fits {F : Foundation} {l l' : UserList β} {searchText : String} {b : β}
    (ran : l.textDidChange F searchText b = .ok l') :
    l'.table.Fits ↔ l.SearchFits F searchText := by
  obtain ⟨users, found, rfl⟩ := textDidChange_ok ran
  refine (Table.assign_fits _ _ _).trans ?_
  constructor
  · intro below users' found'
    rw [found] at found'
    obtain rfl := Except.ok.inj found'
    exact below
  · intro fits
    exact fits users found

end UserList

namespace UserViewController

def Fitting (F : Foundation) (v : UserViewController) : Event → Prop
  | .fetchAllUser (some users) => v.list.table.Below users.length
  | .willDisplay _ row => row < v.userInfoArray.length
  | .textDidChange searchText => v.list.SearchFits F searchText
  | .searchBarCancelButtonClicked => v.list.table.Below v.unSortedUserInfoArray.length
  | _ => True

theorem drains (F : Foundation) : Table.Drains (machine F) .main (fun v => v.list.table)
    (fun v t => { v with list := { v.list with table := t } }) where
  possible := fun _ nonempty => nonempty
  put_table := fun _ _ => rfl
  row := fun _ _ _ _ next => runBlock_row next
  own := by
    intro v b rest next
    cases b with
    | loaded => exact Or.inr ⟨_, runBlock_loaded next, rfl, Nat.le_refl _⟩
    | reloadData => exact Or.inr ⟨_, runBlock_reload next, rfl, Nat.le_refl _⟩

theorem react_fits {F : Foundation} {v v' : UserViewController} {ev : Event}
    (fits : v.list.table.Fits) (ran : v.react F ev = .ok v') :
    v'.list.table.Fits ↔ v.Fitting F ev := by
  cases ev with
  | fetchAllUser result =>
    cases result with
    | none => cases ran
    | some users =>
      obtain rfl := Except.ok.inj ran
      exact Table.assign_fits _ _ _
  | willDisplay cell row =>
    obtain rfl := Except.ok.inj ran
    exact (Table.willDisplay_fits _ _ _).trans (and_iff_right fits)
  | addFriend sender =>
    obtain ⟨user, _, same⟩ := bind_ok.mp ran
    obtain rfl := Except.ok.inj same
    exact iff_of_true fits trivial
  | addAction alert =>
    obtain ⟨user, _, rest⟩ := bind_ok.mp ran
    obtain ⟨friendId, _, same⟩ := bind_ok.mp rest
    obtain rfl := Except.ok.inj same
    exact iff_of_true fits trivial
  | cancelAction alert =>
    obtain rfl := Except.ok.inj ran
    exact iff_of_true fits trivial
  | textDidChange searchText =>
    obtain ⟨list, searched, same⟩ := bind_ok.mp ran
    obtain rfl := Except.ok.inj same
    exact UserList.textDidChange_fits searched
  | searchBarCancelButtonClicked =>
    obtain rfl := Except.ok.inj ran
    exact Table.assign_fits _ _ _
  | main =>
    refine iff_of_true ?_ trivial
    have blocks : v.runBlock = .ok v' := ran
    unfold runBlock at blocks
    split at blocks
    · cases blocks
      exact fits
    · rename_i next
      exact (drains F).row_fits fits next ran
    all_goals
      rename_i next
      cases blocks
      exact fits.popped next

end UserViewController

namespace FriendViewController

def Fitting (F : Foundation) (v : FriendViewController) : Event → Prop
  | .fetchFriends result => v.list.table.Below (result.getD []).length
  | .willDisplay _ row => row < v.friendListArray.length
  | .textDidChange searchText => v.list.SearchFits F searchText
  | .searchBarCancelButtonClicked => v.list.table.Below v.unFilteredFriendListArray.length
  | .main =>
    match v.list.table.queue with
    | .own (.remove _ _ _) :: _ => v.list.table.Below (v.friendListArray.length - 1)
    | _ => True
  | _ => True

theorem drains (F : Foundation) : Table.Drains (machine F) .main (fun v => v.list.table)
    (fun v t => { v with list := { v.list with table := t } }) where
  possible := fun _ nonempty => nonempty
  put_table := fun _ _ => rfl
  row := fun _ _ _ _ next => runBlock_row next
  own := by
    intro v b rest next
    cases b with
    | loaded => exact Or.inr ⟨_, runBlock_loaded next, rfl, Nat.le_refl _⟩
    | reloadData => exact Or.inr ⟨_, runBlock_reload next, rfl, Nat.le_refl _⟩
    | remove friendId result sender =>
      by_cases inside : v.list.row sender < v.friendListArray.length
      · have removed : (v.list.table.popped rest).remove (v.list.row sender) = _ :=
          Table.remove_inside inside
        refine Or.inr ⟨_, (runBlock_remove next).trans (bind_ok.mpr ⟨_, removed, rfl⟩), rfl, ?_⟩
        exact List.length_eraseIdx_le _ _
      · have missing : (v.list.table.popped rest).remove (v.list.row sender) = _ :=
          Table.remove_outside (Nat.le_of_not_lt inside)
        refine Or.inl ((runBlock_remove next).trans ?_)
        rw [missing]
        rfl

theorem react_fits {F : Foundation} {v v' : FriendViewController} {ev : Event}
    (fits : v.list.table.Fits) (ran : v.react F ev = .ok v') :
    v'.list.table.Fits ↔ v.Fitting F ev := by
  cases ev with
  | fetchFriends result =>
    obtain rfl := Except.ok.inj ran
    exact Table.assign_fits _ _ _
  | willDisplay cell row =>
    obtain rfl := Except.ok.inj ran
    exact (Table.willDisplay_fits _ _ _).trans (and_iff_right fits)
  | unFriend sender =>
    obtain ⟨user, _, same⟩ := bind_ok.mp ran
    obtain rfl := Except.ok.inj same
    exact iff_of_true fits trivial
  | removeAction alert =>
    obtain ⟨⟨friends, sender⟩, _, rest⟩ := bind_ok.mp ran
    obtain ⟨friendId, _, same⟩ := bind_ok.mp rest
    obtain rfl := Except.ok.inj same
    exact iff_of_true fits trivial
  | cancelAction alert =>
    obtain rfl := Except.ok.inj ran
    exact iff_of_true fits trivial
  | removed request result =>
    obtain ⟨⟨friendId, sender⟩, _, same⟩ := bind_ok.mp ran
    obtain rfl := Except.ok.inj same
    exact iff_of_true ((Table.enqueue_fits _ _).mpr fits) trivial
  | textDidChange searchText =>
    obtain ⟨list, searched, same⟩ := bind_ok.mp ran
    obtain rfl := Except.ok.inj same
    exact UserList.textDidChange_fits searched
  | searchBarCancelButtonClicked =>
    obtain rfl := Except.ok.inj ran
    exact Table.assign_fits _ _ _
  | main =>
    have blocks : v.runBlock = .ok v' := ran
    unfold runBlock at blocks
    unfold Fitting
    split at blocks
    · rename_i empty
      cases blocks
      rw [empty]
      exact iff_of_true fits trivial
    · rename_i next
      rw [next]
      exact iff_of_true ((drains F).row_fits fits next ran) trivial
    · rename_i next
      cases blocks
      rw [next]
      exact iff_of_true (fits.popped next) trivial
    · rename_i next
      cases blocks
      rw [next]
      exact iff_of_true (fits.popped next) trivial
    · rename_i next
      obtain ⟨table, removed, same⟩ := bind_ok.mp blocks
      obtain rfl := Except.ok.inj same
      rw [next]
      refine (Table.remove_fits removed).trans ?_
      unfold Table.Below
      rw [next]
      exact Iff.rfl

end FriendViewController

/-- On all three screens a queued row block finds its row in every run whose events fit, and an
event that does not fit leaves a queue whose blocks run out of the array. -/
theorem row_blocks_safe (F : Foundation) :
    Table.SafeWhile HomeViewController.machine .main (fun v => v.table)
      HomeViewController.Fitting {} ∧
    Table.SafeWhile (UserViewController.machine F) .main (fun v => v.list.table)
      (UserViewController.Fitting F) {} ∧
    Table.SafeWhile (FriendViewController.machine F) .main (fun v => v.list.table)
      (FriendViewController.Fitting F) {} := by
  refine ⟨?_, ?_, ?_⟩
  · exact HomeViewController.drains.safeWhile nofun fun _ _ _ => HomeViewController.react_fits
  · exact (UserViewController.drains F).safeWhile nofun fun _ _ _ => UserViewController.react_fits
  · exact (FriendViewController.drains F).safeWhile nofun fun _ _ _ => FriendViewController.react_fits

/-- Two friends are loaded and displayed; the second cell is still to be filled. -/
theorem row_blocks_safe_sample : ∃ v : FriendViewController,
    (FriendViewController.machine .ascii).Run (FriendViewController.Fitting .ascii) {} v ∧
      v.list.table.queue = [.row 1 1] ∧ 1 < v.friendListArray.length := by
  have loaded : (FriendViewController.machine .ascii).Run (FriendViewController.Fitting .ascii) {} _ :=
    .step (i := .fetchFriends (some [ann, bob])) .refl trivial nofun rfl
  have reloaded : (FriendViewController.machine .ascii).Run (FriendViewController.Fitting .ascii) {} _ :=
    .step (i := .main) loaded nofun trivial rfl
  have first : (FriendViewController.machine .ascii).Run (FriendViewController.Fitting .ascii) {} _ :=
    .step (i := .willDisplay 0 0) reloaded (by decide : 0 < 2) (by decide : 0 < 2) rfl
  have second : (FriendViewController.machine .ascii).Run (FriendViewController.Fitting .ascii) {} _ :=
    .step (i := .willDisplay 1 1) first (by decide : 1 < 2) (by decide : 1 < 2) rfl
  have filled : (FriendViewController.machine .ascii).Run (FriendViewController.Fitting .ascii) {} _ :=
    .step (i := .main) second nofun trivial rfl
  exact ⟨_, filled, rfl, (row_blocks_safe .ascii).2.2.inRange _ filled 1 1 [] rfl⟩

/-- The two users are displayed and a search leaves one of them before the blocks have run. -/
def searchWhileDisplaying : List UserViewController.Event :=
  [.fetchAllUser (some [ann, bob]), .main, .willDisplay 0 0, .willDisplay 1 1, .textDidChange "b", .main]

theorem row_block_out_of_range : ¬ ∀ v : UserViewController,
    (UserViewController.machine .ascii).Run Machine.AnyEvent {} v → v.list.table.NextInRange := by
  intro in_range
  have ran : (Machine.exec (UserViewController.machine .ascii) Machine.AnyEvent {}
    searchWhileDisplaying).isSome := rfl
  have run := Machine.exec_run (Option.some_get ran).symm
  have next : (Option.get _ ran).list.table.queue = [.row 1 1, .own .reloadData] := rfl
  have inside : 1 < 1 := in_range _ run 1 1 _ next
  omega

end SimpleSNS
