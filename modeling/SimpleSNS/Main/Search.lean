import SimpleSNS.Main.Unfriend
import SimpleSNS.UIKit.SearchBar

/-!
The search bars. A search edit or cancel makes the displayed users those that the text selects. A
load displays all it delivers whatever the bar says, and the removal of a friend leaves the
unfiltered friends as they are, so that the friend comes back with the next search that selects it.
-/

namespace SimpleSNS
open Async UIKit

/-- `contains` is substring search. -/
def Foundation.Substring (F : Foundation) : Prop :=
  ∀ s text, F.contains s text = true ↔ text.toList <:+: s.toList

theorem Foundation.Substring.empty {F : Foundation} (substring : F.Substring) (s : String) :
    F.contains s "" = true := (substring s "").mpr List.nil_infix

theorem Foundation.ascii_substring : Foundation.ascii.Substring := by
  intro s text
  exact decide_eq_true_iff

namespace UserList

variable {β : Type} {F : Foundation}

/-- The user's uppercased first name contains the text. -/
def Matches (F : Foundation) (text : String) (user : UserModel) : Bool :=
  match user.firstName with
  | some firstName => F.contains (F.uppercased firstName) text
  | none => false

/-- Every user has a first name. -/
def Named (users : List UserModel) : Prop := ∀ user ∈ users, user.firstName.isSome

/-- The two arrays of a screen and the text in its search bar. -/
def searchable (l : UserList β) : Searchable UserModel String where
  array := l.table.array
  unfiltered := l.unfiltered
  text := l.searchText

theorem matches_named {text firstName : String} {user : UserModel}
    (named : user.firstName = some firstName) :
    Matches F text user = F.contains (F.uppercased firstName) text := by
  unfold Matches
  rw [named]

/-- The filter of the search bars runs exactly when all users have a name. -/
theorem filter_ok_iff {text : String} {users found : List UserModel} :
    filter F text users = .ok found ↔ Named users ∧ found = users.filter (Matches F text) := by
  induction users generalizing found with
  | nil =>
    constructor
    · intro ran
      exact ⟨fun _ member => absurd member List.not_mem_nil, (Except.ok.inj ran).symm⟩
    · rintro ⟨_, rfl⟩
      rfl
  | cons user rest ih =>
    unfold filter
    constructor
    · intro ran
      obtain ⟨firstName, read, ran⟩ := bind_ok.mp ran
      obtain ⟨later, found_later, same⟩ := bind_ok.mp ran
      obtain ⟨named_later, rfl⟩ := ih.mp found_later
      have named : user.firstName = some firstName := by
        cases name : user.firstName with
        | none => rw [name] at read; cases read
        | some _ => rw [name] at read; rw [Except.ok.inj read]
      refine ⟨?_, ?_⟩
      · intro user' member
        rcases List.mem_cons.mp member with rfl | later
        · rw [named]
          rfl
        · exact named_later user' later
      · rw [← Except.ok.inj same, List.filter_cons, matches_named named]
    · rintro ⟨named, rfl⟩
      obtain ⟨firstName, known⟩ := Option.isSome_iff_exists.mp (named user List.mem_cons_self)
      have later := ih.mpr ⟨fun user' member => named user' (List.mem_cons_of_mem _ member), rfl⟩
      rw [known, later, List.filter_cons, matches_named known]
      rfl

/-- The empty text selects every user. -/
theorem empty_matches (substring : F.Substring) {users : List UserModel} (named : Named users) :
    ∀ user ∈ users, Matches F "" user = true := by
  intro user member
  obtain ⟨firstName, known⟩ := Option.isSome_iff_exists.mp (named user member)
  rw [matches_named known]
  exact substring.empty _

/-- The display follows the text in the search bar; the empty text shows everything. -/
structure Follows (F : Foundation) (l : UserList β) : Prop where
  selected : l.searchable.Follows (Matches F)
  whole : l.searchText = "" → l.table.array = l.unfiltered

theorem follows_iff {l : UserList β} (substring : F.Substring) (named : Named l.unfiltered) :
    Follows F l ↔ l.searchable.Follows (Matches F) := by
  refine ⟨Follows.selected, fun selected => ⟨selected, fun empty => ?_⟩⟩
  apply selected.whole
  change ∀ user ∈ l.unfiltered, Matches F l.searchText user = true
  rw [empty]
  exact empty_matches substring named

/-- A screen's step is an edit of its list. -/
structure Edited (F : Foundation) (l : UserList β) (edit : Edit UserModel String)
    (l' : UserList β) : Prop where
  inside : l.searchable.Inside edit
  result : l'.searchable = l.searchable.edit (Matches F) "" edit

theorem Edited.same {l l' : UserList β} (array : l'.table.array = l.table.array)
    (unfiltered : l'.unfiltered = l.unfiltered) (text : l'.searchText = l.searchText) :
    Edited F l .none l' := by
  refine ⟨trivial, ?_⟩
  unfold searchable
  rw [array, unfiltered, text]
  rfl

theorem textDidChange_edited {l l' : UserList β} {searchText : String} {b : β}
    (ran : l.textDidChange F searchText b = .ok l') :
    Edited F l (.search (F.uppercased searchText)) l' := by
  obtain ⟨users, found, rfl⟩ := textDidChange_ok ran
  obtain ⟨_, rfl⟩ := filter_ok_iff.mp found
  exact ⟨trivial, rfl⟩

/-- What a load delivers has names. -/
def NamedEdit : Edit UserModel String → Prop
  | .load users => Named users
  | _ => True

instance (edit : Edit UserModel String) : Decidable (NamedEdit edit) :=
  match edit with
  | .load users => inferInstanceAs (Decidable (∀ user ∈ users, user.firstName.isSome = true))
  | .search _ | .cancel | .remove _ | .none => isTrue trivial

theorem Edited.named {l l' : UserList β} {edit : Edit UserModel String} (edited : Edited F l edit l')
    (named : Named l.unfiltered) (loaded : NamedEdit edit) : Named l'.unfiltered := by
  have unfiltered := congrArg Searchable.unfiltered edited.result
  change l'.unfiltered = _ at unfiltered
  rw [unfiltered]
  cases edit with
  | load users => exact loaded
  | search text => exact named
  | cancel => exact named
  | remove row => exact named
  | none => exact named

theorem Edited.follows {l l' : UserList β} {edit : Edit UserModel String} (substring : F.Substring)
    (edited : Edited F l edit l') (named : Named l.unfiltered) (loaded : NamedEdit edit)
    (follows : Follows F l) : Follows F l' ↔ l.searchable.Fits (Matches F) edit := by
  rw [follows_iff substring (edited.named named loaded), edited.result]
  exact Searchable.edit_follows (empty_matches substring named) follows.selected edited.inside

end UserList

open UserList

/-! ### Users -/

namespace UserViewController

def edit (F : Foundation) : Event → Edit UserModel String
  | .fetchAllUser (some users) => .load users
  | .textDidChange searchText => .search (F.uppercased searchText)
  | .searchBarCancelButtonClicked => .cancel
  | _ => .none

variable {F : Foundation} {v v' : UserViewController} {ev : Event}

theorem runBlock_edited (ran : v.runBlock = .ok v') : Edited F v.list .none v'.list := by
  cases next : v.list.table.queue with
  | nil =>
    unfold runBlock at ran
    rw [next] at ran
    obtain rfl := Except.ok.inj ran
    exact Edited.same rfl rfl rfl
  | cons b rest =>
    rcases b with ⟨cell, row⟩ | ⟨⟨⟩⟩
    · rw [runBlock_row next] at ran
      obtain ⟨table, filled, same⟩ := bind_ok.mp ran
      obtain rfl := Except.ok.inj same
      obtain ⟨_, rfl⟩ := Table.fill_ok_iff.mp filled
      exact Edited.same rfl rfl rfl
    · rw [runBlock_loaded next] at ran
      obtain rfl := Except.ok.inj ran
      exact Edited.same rfl rfl rfl
    · rw [runBlock_reload next] at ran
      obtain rfl := Except.ok.inj ran
      exact Edited.same rfl rfl rfl

theorem react_edited (ran : v.react F ev = .ok v') : Edited F v.list (edit F ev) v'.list := by
  cases ev with
  | fetchAllUser result =>
    cases result with
    | none => cases ran
    | some users =>
      obtain rfl := Except.ok.inj ran
      exact ⟨trivial, rfl⟩
  | willDisplay cell row =>
    obtain rfl := Except.ok.inj ran
    exact Edited.same rfl rfl rfl
  | addFriend sender =>
    obtain ⟨user, _, same⟩ := bind_ok.mp ran
    obtain rfl := Except.ok.inj same
    exact Edited.same rfl rfl rfl
  | addAction alert =>
    obtain ⟨user, _, rest⟩ := bind_ok.mp ran
    obtain ⟨friendId, _, same⟩ := bind_ok.mp rest
    obtain rfl := Except.ok.inj same
    exact Edited.same rfl rfl rfl
  | cancelAction alert =>
    obtain rfl := Except.ok.inj ran
    exact Edited.same rfl rfl rfl
  | textDidChange searchText =>
    obtain ⟨list, searched, same⟩ := bind_ok.mp ran
    obtain rfl := Except.ok.inj same
    exact textDidChange_edited searched
  | searchBarCancelButtonClicked =>
    obtain rfl := Except.ok.inj ran
    exact ⟨trivial, rfl⟩
  | main => exact runBlock_edited ran

/-- A load delivers users with a name. -/
def Named (F : Foundation) (_ : UserViewController) (ev : Event) : Prop := NamedEdit (edit F ev)

instance (v : UserViewController) (ev : Event) : Decidable (v.Named F ev) :=
  inferInstanceAs (Decidable (NamedEdit (edit F ev)))

/-- A load delivers only users that the text in the bar selects. -/
def Fits (F : Foundation) (v : UserViewController) (ev : Event) : Prop :=
  v.list.searchable.Fits (Matches F) (edit F ev)

theorem run_named (run : (machine F).Run (Named F) {} v) : UserList.Named v.list.unfiltered := by
  refine run.invariant (I := fun v => UserList.Named v.list.unfiltered)
    (fun _ member => absurd member List.not_mem_nil) ?_
  intro v ev v' named _ loaded ran
  exact (react_edited ran).named named loaded

/-- Exactly the fitting events keep the display in line with the text. -/
theorem react_follows (substring : F.Substring) (named : UserList.Named v.list.unfiltered)
    (loaded : v.Named F ev) (follows : Follows F v.list) (ran : v.react F ev = .ok v') :
    Follows F v'.list ↔ v.Fits F ev := (react_edited ran).follows substring named loaded follows

theorem run_follows (substring : F.Substring)
    (run : (machine F).Run (fun v ev => v.Named F ev ∧ v.Fits F ev) {} v) : Follows F v.list := by
  induction run with
  | refl => exact ⟨rfl, fun _ => rfl⟩
  | step before _ allowed ran ih =>
    have named := run_named (before.weaken fun _ _ => And.left)
    exact (react_follows substring named allowed.1 ih ran).mpr allowed.2

end UserViewController

/-! ### Friends -/

namespace FriendViewController

def edit (F : Foundation) (v : FriendViewController) : Event → Edit UserModel String
  | .fetchFriends result => .load (result.getD [])
  | .textDidChange searchText => .search (F.uppercased searchText)
  | .searchBarCancelButtonClicked => .cancel
  | .main =>
    match v.list.table.queue with
    | .own (.remove _ _ sender) :: _ => .remove (v.list.row sender)
    | _ => .none
  | _ => .none

variable {F : Foundation} {v v' : FriendViewController} {ev : Event}

/-- A block changes the friends only when it removes one. -/
theorem runBlock_edited (ran : v.runBlock = .ok v') : Edited F v.list (v.edit F .main) v'.list := by
  unfold edit
  cases next : v.list.table.queue with
  | nil =>
    unfold runBlock at ran
    rw [next] at ran
    obtain rfl := Except.ok.inj ran
    exact Edited.same rfl rfl rfl
  | cons b rest =>
    rcases b with ⟨cell, row⟩ | ⟨_ | _ | ⟨friendId, result, sender⟩⟩
    · obtain ⟨array, _⟩ := runBlock_fills next ran
      rw [runBlock_row next] at ran
      obtain ⟨table, _, same⟩ := bind_ok.mp ran
      obtain rfl := Except.ok.inj same
      exact Edited.same array rfl rfl
    · rw [runBlock_loaded next] at ran
      obtain rfl := Except.ok.inj ran
      exact Edited.same rfl rfl rfl
    · rw [runBlock_reload next] at ran
      obtain rfl := Except.ok.inj ran
      exact Edited.same rfl rfl rfl
    · rw [runBlock_remove next] at ran
      obtain ⟨table, removed, same⟩ := bind_ok.mp ran
      obtain rfl := Except.ok.inj same
      obtain ⟨inside, rfl⟩ := Table.remove_ok_iff.mp removed
      exact ⟨inside, rfl⟩

theorem react_edited (ran : v.react F ev = .ok v') : Edited F v.list (v.edit F ev) v'.list := by
  cases ev with
  | fetchFriends result =>
    obtain rfl := Except.ok.inj ran
    exact ⟨trivial, rfl⟩
  | willDisplay cell row =>
    obtain rfl := Except.ok.inj ran
    exact Edited.same rfl rfl rfl
  | unFriend sender =>
    obtain ⟨friends, _, same⟩ := bind_ok.mp ran
    obtain rfl := Except.ok.inj same
    exact Edited.same rfl rfl rfl
  | removeAction alert =>
    obtain ⟨⟨friends, sender⟩, _, rest⟩ := bind_ok.mp ran
    obtain ⟨friendId, _, same⟩ := bind_ok.mp rest
    obtain rfl := Except.ok.inj same
    exact Edited.same rfl rfl rfl
  | cancelAction alert =>
    obtain rfl := Except.ok.inj ran
    exact Edited.same rfl rfl rfl
  | removed request result =>
    obtain ⟨⟨friendId, sender⟩, _, same⟩ := bind_ok.mp ran
    obtain rfl := Except.ok.inj same
    exact Edited.same rfl rfl rfl
  | textDidChange searchText =>
    obtain ⟨list, searched, same⟩ := bind_ok.mp ran
    obtain rfl := Except.ok.inj same
    exact textDidChange_edited searched
  | searchBarCancelButtonClicked =>
    obtain rfl := Except.ok.inj ran
    exact ⟨trivial, rfl⟩
  | main => exact runBlock_edited ran

/-- A load delivers friends with a name. -/
def Named (F : Foundation) (v : FriendViewController) (ev : Event) : Prop := NamedEdit (v.edit F ev)

instance (v : FriendViewController) (ev : Event) : Decidable (v.Named F ev) :=
  inferInstanceAs (Decidable (NamedEdit (v.edit F ev)))

/-- A load delivers only friends that the text in the bar selects, and no friend is removed. -/
def Fits (F : Foundation) (v : FriendViewController) (ev : Event) : Prop :=
  v.list.searchable.Fits (Matches F) (v.edit F ev)

/-- A load delivers each friend once. -/
def Distinct (_ : FriendViewController) : Event → Prop
  | .fetchFriends result => ((result.getD []).map UserModel.userId).Nodup
  | _ => True

instance (v : FriendViewController) (ev : Event) : Decidable (v.Distinct ev) := by
  unfold Distinct
  split <;> infer_instance

/-- The event is no load, no cancel, and no search for a part of the friend's uppercased first name. -/
def Hides (F : Foundation) (friend : UserModel) : Event → Prop
  | .fetchFriends _ => False
  | .searchBarCancelButtonClicked => False
  | .textDidChange searchText => Matches F (F.uppercased searchText) friend = false
  | _ => True

/-- A load does not deliver a friend of this id. -/
def Lacks (userId : Option String) (_ : FriendViewController) : Event → Prop
  | .fetchFriends result => Searchable.Absent UserModel.userId userId (result.getD [])
  | _ => True

theorem run_named (run : (machine F).Run (Named F) {} v) : UserList.Named v.list.unfiltered := by
  refine run.invariant (I := fun v => UserList.Named v.list.unfiltered)
    (fun _ member => absurd member List.not_mem_nil) ?_
  intro v ev v' named _ loaded ran
  exact (react_edited ran).named named loaded

/-- Exactly the fitting events keep the display in line with the text. -/
theorem react_follows (substring : F.Substring) (named : UserList.Named v.list.unfiltered)
    (loaded : v.Named F ev) (follows : Follows F v.list) (ran : v.react F ev = .ok v') :
    Follows F v'.list ↔ v.Fits F ev := (react_edited ran).follows substring named loaded follows

theorem run_follows (substring : F.Substring)
    (run : (machine F).Run (fun v ev => v.Named F ev ∧ v.Fits F ev) {} v) : Follows F v.list := by
  induction run with
  | refl => exact ⟨rfl, fun _ => rfl⟩
  | step before _ allowed ran ih =>
    have named := run_named (before.weaken fun _ _ => And.left)
    exact (react_follows substring named allowed.1 ih ran).mpr allowed.2

/-! ### A removed friend -/

theorem edit_load {xs : List UserModel} (loads : v.edit F ev = .load xs) :
    ∃ result, ev = .fetchFriends result ∧ xs = result.getD [] := by
  cases ev with
  | fetchFriends result => exact ⟨result, rfl, (Edit.load.inj loads).symm⟩
  | main =>
    unfold edit at loads
    dsimp only at loads
    split at loads <;> cases loads
  | _ => cases loads

theorem hides_edit (no_load : ∀ result, ev ≠ .fetchFriends result) (friend : UserModel) :
    (v.edit F ev).Hides (Matches F) friend ↔ Hides F friend ev := by
  cases ev with
  | fetchFriends result => exact absurd rfl (no_load result)
  | main =>
    refine iff_of_true ?_ trivial
    unfold edit
    dsimp only
    split <;> exact trivial
  | _ => exact Iff.rfl

theorem Hides.no_load {friend : UserModel} (hidden : Hides F friend ev) (result : Option (List UserModel)) :
    ev ≠ .fetchFriends result := by
  rintro rfl
  exact hidden

/-- Only a load changes the unfiltered friends. -/
theorem react_unfiltered (no_load : ∀ result, ev ≠ .fetchFriends result) (ran : v.react F ev = .ok v') :
    v'.unFilteredFriendListArray = v.unFilteredFriendListArray := by
  have unfiltered : v'.unFilteredFriendListArray = _ :=
    congrArg Searchable.unfiltered (react_edited ran).result
  rw [unfiltered]
  refine Searchable.edit_unfiltered _ _ ?_
  intro xs loads
  obtain ⟨result, rfl, _⟩ := edit_load loads
  exact no_load result rfl

/-- The displayed friends are some of the unfiltered ones, and these are listed once each. -/
structure Within (v : FriendViewController) : Prop where
  sublist : v.friendListArray.Sublist v.unFilteredFriendListArray
  unique : (v.unFilteredFriendListArray.map UserModel.userId).Nodup

theorem run_within (run : (machine F).Run Distinct {} v) : v.Within := by
  refine run.invariant (I := Within) ⟨List.Sublist.refl [], List.nodup_nil⟩ ?_
  intro v ev v' within _ loaded ran
  have result := (react_edited ran).result
  have kept := Searchable.edit_sublist (s := v.list.searchable) (Matches F) "" (v.edit F ev) within.sublist
  rw [← result] at kept
  refine ⟨kept, ?_⟩
  by_cases load : ∃ result, ev = .fetchFriends result
  · obtain ⟨result, rfl⟩ := load
    obtain rfl := Except.ok.inj ran
    exact loaded
  · rw [react_unfiltered (fun result same => load ⟨result, same⟩) ran]
    exact within.unique

/-- The next block takes this friend out of the displayed ones. -/
def Removes (v : FriendViewController) (friend : UserModel) : Prop :=
  ∃ removed result sender rest, v.list.table.queue = .own (.remove removed result sender) :: rest ∧
    v.friendListArray[v.list.row sender]? = some friend

theorem removes_absent {friend : UserModel} (within : v.Within) (removes : v.Removes friend)
    (ran : v.react F .main = .ok v') :
    Searchable.Absent UserModel.userId friend.userId v'.friendListArray := by
  obtain ⟨removed, result, sender, rest, next, at_row⟩ := removes
  obtain ⟨inside, _⟩ := List.getElem?_eq_some_iff.mp at_row
  obtain ⟨v₁, took, array, _⟩ := runBlock_removes next inside
  obtain rfl := Except.ok.inj (took.symm.trans ran)
  rw [array]
  refine Searchable.eraseIdx_absent (within.unique.sublist (within.sublist.map _)) ?_
  rw [at_row]
  rfl

/-- A removed friend stays among the unfiltered ones. -/
theorem removes_stays {friend : UserModel} (within : v.Within) (removes : v.Removes friend)
    (ran : v.react F .main = .ok v') : v'.unFilteredFriendListArray = v.unFilteredFriendListArray ∧
      friend ∈ v'.unFilteredFriendListArray := by
  have no_load : ∀ result, Event.main ≠ .fetchFriends result := by simp
  have same := react_unfiltered no_load ran
  obtain ⟨_, _, _, _, _, at_row⟩ := removes
  refine ⟨same, ?_⟩
  rw [same]
  exact within.sublist.subset (List.mem_of_getElem? at_row)

/-- Between loads, while the unfiltered friends hold one that is not displayed: exactly the events that
hide it keep it so. -/
theorem react_absent {friend : UserModel} (unique : (v.unFilteredFriendListArray.map UserModel.userId).Nodup)
    (listed : friend ∈ v.unFilteredFriendListArray)
    (absent : Searchable.Absent UserModel.userId friend.userId v.friendListArray)
    (no_load : ∀ result, ev ≠ .fetchFriends result) (ran : v.react F ev = .ok v') :
    Searchable.Absent UserModel.userId friend.userId v'.friendListArray ↔ Hides F friend ev := by
  have array : v'.friendListArray = _ := congrArg Searchable.array (react_edited ran).result
  rw [array, ← hides_edit no_load friend]
  refine Searchable.edit_absent unique listed absent ?_
  intro xs loads
  obtain ⟨result, rfl, _⟩ := edit_load loads
  exact no_load result rfl

theorem run_absent {friend : UserModel} {v₀ : FriendViewController}
    (unique : (v₀.unFilteredFriendListArray.map UserModel.userId).Nodup)
    (listed : friend ∈ v₀.unFilteredFriendListArray)
    (absent : Searchable.Absent UserModel.userId friend.userId v₀.friendListArray)
    (run : (machine F).Run (fun _ ev => Hides F friend ev) v₀ v) :
    v.unFilteredFriendListArray = v₀.unFilteredFriendListArray ∧
      Searchable.Absent UserModel.userId friend.userId v.friendListArray := by
  refine run.invariant (I := fun v => v.unFilteredFriendListArray = v₀.unFilteredFriendListArray ∧
    Searchable.Absent UserModel.userId friend.userId v.friendListArray) ⟨rfl, absent⟩ ?_
  rintro v ev v' ⟨same, absent⟩ _ hidden ran
  refine ⟨(react_unfiltered hidden.no_load ran).trans same, ?_⟩
  exact (react_absent (same ▸ unique) (same ▸ listed) absent hidden.no_load ran).mpr hidden

/-- What a load did not deliver is not displayed until a load delivers it. -/
theorem run_lacks {userId : Option String} {v₀ : FriendViewController}
    (array : Searchable.Absent UserModel.userId userId v₀.friendListArray)
    (unfiltered : Searchable.Absent UserModel.userId userId v₀.unFilteredFriendListArray)
    (run : (machine F).Run (Lacks userId) v₀ v) :
    Searchable.Absent UserModel.userId userId v.friendListArray := by
  refine (run.invariant (I := fun v => Searchable.Absent UserModel.userId userId v.friendListArray ∧
    Searchable.Absent UserModel.userId userId v.unFilteredFriendListArray) ⟨array, unfiltered⟩ ?_).1
  rintro v ev v' ⟨array, unfiltered⟩ _ lacks ran
  have all := Searchable.edit_all (s := v.list.searchable) (Q := fun user => user.userId ≠ userId)
    (Matches F) "" (v.edit F ev) array unfiltered ?_
  · rw [← (react_edited ran).result] at all
    exact all
  · intro xs loads
    obtain ⟨result, rfl, rfl⟩ := edit_load loads
    exact lacks

end FriendViewController

/-! ### Both screens -/

/-- In runs whose loads fit the text in the bar and that process no removal, both screens display
what the text selects, and nothing else keeps them doing so. A removed friend stays among the unfiltered
ones: until the next load it stays off display as long as no search is cancelled and none is for a part
of its uppercased first name, and no longer. Once a load did not deliver it, it stays away until one
does. -/
theorem search_follows (F : Foundation) (substring : F.Substring) :
    (∀ v : UserViewController, (UserViewController.machine F).Run
      (fun v ev => v.Named F ev ∧ v.Fits F ev) {} v → Follows F v.list) ∧
    (∀ v : FriendViewController, (FriendViewController.machine F).Run
      (fun v ev => v.Named F ev ∧ v.Fits F ev) {} v → Follows F v.list) ∧
    (∀ v v' : UserViewController, (UserViewController.machine F).Run (·.Named F) {} v →
      Follows F v.list → ∀ ev, v.Named F ev → v.react F ev = .ok v' →
      (Follows F v'.list ↔ v.Fits F ev)) ∧
    (∀ v v' : FriendViewController, (FriendViewController.machine F).Run (·.Named F) {} v →
      Follows F v.list → ∀ ev, v.Named F ev → v.react F ev = .ok v' →
      (Follows F v'.list ↔ v.Fits F ev)) ∧
    (∀ (v v₁ : FriendViewController) (friend : UserModel),
      (FriendViewController.machine F).Run FriendViewController.Distinct {} v → v.Removes friend →
      v.react F .main = .ok v₁ →
      v₁.unFilteredFriendListArray = v.unFilteredFriendListArray ∧ friend ∈ v₁.unFilteredFriendListArray ∧
      ∀ v₂, (FriendViewController.machine F).Run (fun _ ev => FriendViewController.Hides F friend ev) v₁ v₂ →
        Searchable.Absent UserModel.userId friend.userId v₂.friendListArray ∧
        ∀ ev v₃, (∀ result, ev ≠ .fetchFriends result) → v₂.react F ev = .ok v₃ →
          (Searchable.Absent UserModel.userId friend.userId v₃.friendListArray ↔
            FriendViewController.Hides F friend ev)) ∧
    (∀ (v v₁ v₂ : FriendViewController) (userId : Option String) (result : Option (List UserModel)),
      Searchable.Absent UserModel.userId userId (result.getD []) →
      v.react F (.fetchFriends result) = .ok v₁ →
      (FriendViewController.machine F).Run (FriendViewController.Lacks userId) v₁ v₂ →
      Searchable.Absent UserModel.userId userId v₂.friendListArray) := by
  refine ⟨?_, ?_, ?_, ?_, ?_, ?_⟩
  · intro v run
    exact UserViewController.run_follows substring run
  · intro v run
    exact FriendViewController.run_follows substring run
  · intro v v' run follows ev loaded ran
    exact UserViewController.react_follows substring (UserViewController.run_named run) loaded follows ran
  · intro v v' run follows ev loaded ran
    exact FriendViewController.react_follows substring (FriendViewController.run_named run) loaded
      follows ran
  · intro v v₁ friend run removes ran
    have within := FriendViewController.run_within run
    obtain ⟨same, listed⟩ := FriendViewController.removes_stays within removes ran
    refine ⟨same, listed, ?_⟩
    intro v₂ later
    have unique := same ▸ within.unique
    obtain ⟨kept, absent⟩ := FriendViewController.run_absent unique listed
      (FriendViewController.removes_absent within removes ran) later
    refine ⟨absent, ?_⟩
    intro ev v₃ no_load ran'
    exact FriendViewController.react_absent (kept ▸ unique) (kept ▸ listed) absent no_load ran'
  · intro v v₁ v₂ userId result absent ran later
    obtain rfl := Except.ok.inj ran
    have displayed : Searchable.Absent UserModel.userId userId
        (v.fetchFriends result).friendListArray := absent
    exact FriendViewController.run_lacks displayed absent later

theorem ann_bob_named : UserList.Named [ann, bob] := by
  intro user member
  rcases List.mem_cons.mp member with rfl | later
  · rfl
  · obtain rfl := List.mem_singleton.mp later
    rfl

/-- Ann and Bob are loaded, and a search for "b" leaves Bob. -/
theorem search_follows_sample : ∃ v : FriendViewController,
    v.friendListArray = [bob] ∧ v.list.searchText = "B" ∧ Follows .ascii v.list := by
  have loaded : (FriendViewController.machine .ascii).Run
      (fun v ev => v.Named .ascii ev ∧ v.Fits .ascii ev) {} _ :=
    .step (i := .fetchFriends (some [ann, bob])) .refl trivial
      ⟨ann_bob_named, empty_matches Foundation.ascii_substring ann_bob_named⟩ rfl
  have searched : (FriendViewController.machine .ascii).Run
      (fun v ev => v.Named .ascii ev ∧ v.Fits .ascii ev) {} _ :=
    .step (i := .textDidChange "b") loaded trivial ⟨trivial, trivial⟩ rfl
  refine ⟨_, ?_, ?_, (search_follows .ascii Foundation.ascii_substring).2.1 _ searched⟩
  · rfl
  · rfl

/-- Ann and Bob are loaded and Ann is unfriended; the removal waits in the queue. -/
def unfriendAnn : List FriendViewController.Event :=
  [.fetchFriends (some [ann, bob]), .main, .willDisplay 0 0, .main, .unFriend 0, .removeAction 0,
    .removed 0 .reference]

/-- The removal shortens the display alone, and Ann is back when the search is cancelled. On the
users' screen a load that arrives after the first search edit is displayed whole. -/
theorem search_not_followed :
    (¬ ∀ v : UserViewController, (UserViewController.machine .ascii).Run (·.Named .ascii) {} v →
      Follows .ascii v.list) ∧
    (¬ ∀ v : FriendViewController, (FriendViewController.machine .ascii).Run (·.Named .ascii) {} v →
      Follows .ascii v.list) ∧
    (¬ ∀ v v₁ v₂ : FriendViewController, (FriendViewController.machine .ascii).Run (·.Named .ascii) {} v →
      v.Removes ann → v.react .ascii .main = .ok v₁ →
      v₁.react .ascii .searchBarCancelButtonClicked = .ok v₂ →
      Searchable.Absent UserModel.userId (some "a") v₂.friendListArray) := by
  have ran : (Machine.exec (FriendViewController.machine .ascii) (·.Named .ascii) {}
    unfriendAnn).isSome := rfl
  have run := Machine.exec_run (Option.some_get ran).symm
  have enabled : (FriendViewController.machine .ascii).enabled (Option.get _ ran) .main := nofun
  have removed : (Option.get _ ran).react .ascii .main = .ok _ := rfl
  refine ⟨?_, ?_, ?_⟩
  · intro always
    have typed : (Machine.exec (UserViewController.machine .ascii) (·.Named .ascii) {}
      [.textDidChange "b", .fetchAllUser (some [ann])]).isSome := rfl
    have shown : [ann] = [ann].filter (Matches .ascii (Foundation.ascii.uppercased "b")) :=
      (always _ (Machine.exec_run (Option.some_get typed).symm)).selected
    exact absurd shown (by decide)
  · intro always
    have shown := (always _ (run.step enabled trivial removed)).selected
    have lengths : 1 = 2 := congrArg List.length shown
    omega
  · intro gone
    have taken : (Option.get _ ran).Removes ann := ⟨"a", .reference, 0, [], rfl, rfl⟩
    exact gone _ _ _ run taken removed rfl ann List.mem_cons_self rfl

end SimpleSNS
