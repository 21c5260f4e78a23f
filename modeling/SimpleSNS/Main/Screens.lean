import Mathlib.Data.List.Infix
import SimpleSNS.APIHandler.Writers
import SimpleSNS.UIKit.Table

/-!
The three list screens: `HomeViewController`, `UserViewController` and `FriendViewController`.
An event is a callback of the API handler, an action of the user or of the table view, or the
main queue running its first block.
-/

namespace SimpleSNS
open Async UIKit

/-- The string functions that the search bars call. -/
structure Foundation where
  uppercased : String → String
  contains : String → String → Bool

/-- Strings of ASCII letters. -/
def Foundation.ascii : Foundation where
  uppercased s := String.ofList (s.toList.map Char.toUpper)
  contains s text := decide (text.toList <:+: s.toList)

def ann : UserModel := { userId := some "a", firstName := some "Ann" }
def bob : UserModel := { userId := some "b", firstName := some "Bob" }

/-! ### Home -/

structure HomeViewController where
  table : Table UserPost Unit := {}

namespace HomeViewController

def postInfoArray (v : HomeViewController) : List UserPost := v.table.array

inductive Event where
  | fetchPost (result : List UserPost)
  | willDisplay (cell row : Nat)
  | main

/-- The completion that `fetchPost` hands to `fetchAllPost`. -/
def fetchPost (v : HomeViewController) (result : List UserPost) : HomeViewController :=
  { v with table := v.table.assign result () }

def runBlock (v : HomeViewController) : Except Trap HomeViewController :=
  match v.table.queue with
  | [] => .ok v
  | .row cell row :: rest => do
    let table ← (v.table.popped rest).fill cell row
    return { v with table := table }
  | .own () :: rest => .ok { v with table := (v.table.popped rest).reloadData }

def react (v : HomeViewController) : Event → Except Trap HomeViewController
  | .fetchPost result => .ok (v.fetchPost result)
  | .willDisplay cell row => .ok { v with table := v.table.willDisplay cell row }
  | .main => v.runBlock

def Enabled (v : HomeViewController) : Event → Prop
  | .fetchPost _ => True
  | .willDisplay _ row => row < v.table.rows
  | .main => v.table.queue ≠ []

def machine : Machine HomeViewController Event := ⟨Enabled, react⟩

theorem runBlock_row {v : HomeViewController} {cell row : Nat} {rest : List (Block Unit)}
    (next : v.table.queue = .row cell row :: rest) : v.runBlock =
      (v.table.popped rest).fill cell row >>= fun table => .ok { v with table := table } := by
  unfold runBlock
  rw [next]
  rfl

theorem runBlock_reload {v : HomeViewController} {rest : List (Block Unit)}
    (next : v.table.queue = .own () :: rest) :
    v.runBlock = .ok { v with table := (v.table.popped rest).reloadData } := by
  unfold runBlock
  rw [next]

end HomeViewController

/-! ### What the two lists of users share -/

structure UserList (β : Type) where
  table : Table UserModel β := {}
  unfiltered : List UserModel := []
  searchText : String := ""
  totalLabel : String := ""

namespace UserList

variable {β : Type}

/-- The users whose uppercased first name contains the text. -/
def filter (F : Foundation) (text : String) : List UserModel → Except Trap (List UserModel)
  | [] => .ok []
  | user :: rest => do
    let firstName ← unwrap user.firstName
    let later ← filter F text rest
    return if F.contains (F.uppercased firstName) text then user :: later else later

def load (l : UserList β) (users : List UserModel) (b : β) : UserList β :=
  { l with table := l.table.assign users b, unfiltered := users }

def textDidChange (F : Foundation) (l : UserList β) (searchText : String) (b : β) :
    Except Trap (UserList β) := do
  let text := F.uppercased searchText
  let users ← filter F text l.unfiltered
  return { l with table := l.table.assign users b, searchText := text }

def searchBarCancelButtonClicked (l : UserList β) (b : β) : UserList β :=
  { l with table := l.table.assign l.unfiltered b, searchText := "" }

def willDisplay (l : UserList β) (cell row : Nat) : UserList β :=
  { l with table := l.table.willDisplay cell row }

def fill (l : UserList β) (cell row : Nat) : Except Trap (UserList β) := do
  let table ← l.table.fill cell row
  return { l with table := table }

def popped (l : UserList β) (rest : List (Block β)) : UserList β :=
  { l with table := l.table.popped rest }

def reloadData (l : UserList β) : UserList β := { l with table := l.table.reloadData }

def showTotal (l : UserList β) : UserList β :=
  { l with totalLabel := "Total : " ++ toString l.table.array.length }

/-- A button that no block has filled yet carries 0. -/
def row (l : UserList β) (sender : Nat) : Nat := (l.table.tag sender).getD 0

theorem textDidChange_ok {F : Foundation} {l l' : UserList β} {searchText : String} {b : β}
    (ran : l.textDidChange F searchText b = .ok l') :
    ∃ users, filter F (F.uppercased searchText) l.unfiltered = .ok users ∧
      l' = { l with table := l.table.assign users b, searchText := F.uppercased searchText } := by
  obtain ⟨users, found, same⟩ := bind_ok.mp ran
  exact ⟨users, found, (Except.ok.inj same).symm⟩

end UserList

/-! ### Users -/

inductive UserBlock where
  | loaded
  | reloadData
  deriving DecidableEq

/-- `alerts` are the users an open alert asks about, `added` the ids that were confirmed. -/
structure UserViewController where
  list : UserList UserBlock := {}
  alerts : List UserModel := []
  added : List String := []

namespace UserViewController

def userInfoArray (v : UserViewController) : List UserModel := v.list.table.array
def unSortedUserInfoArray (v : UserViewController) : List UserModel := v.list.unfiltered

inductive Event where
  | fetchAllUser (result : Option (List UserModel))
  | willDisplay (cell row : Nat)
  | addFriend (sender : Nat)
  | addAction (alert : Nat)
  | cancelAction (alert : Nat)
  | textDidChange (searchText : String)
  | searchBarCancelButtonClicked
  | main

/-- The result is cast to a list by force. -/
def fetchAllUser (v : UserViewController) : Option (List UserModel) → Except Trap UserViewController
  | some users => .ok { v with list := v.list.load users .loaded }
  | none => .error .failedCast

def addFriend (v : UserViewController) (sender : Nat) : Except Trap UserViewController := do
  let user ← item v.userInfoArray (v.list.row sender)
  return { v with alerts := v.alerts ++ [user] }

def addAction (v : UserViewController) (alert : Nat) : Except Trap UserViewController := do
  let user ← item v.alerts alert
  let friendId ← unwrap user.userId
  return { v with alerts := v.alerts.eraseIdx alert, added := v.added ++ [friendId] }

def runBlock (v : UserViewController) : Except Trap UserViewController :=
  match v.list.table.queue with
  | [] => .ok v
  | .row cell row :: rest => do
    let list ← (v.list.popped rest).fill cell row
    return { v with list := list }
  | .own .loaded :: rest => .ok { v with list := (v.list.popped rest).showTotal.reloadData }
  | .own .reloadData :: rest => .ok { v with list := (v.list.popped rest).reloadData }

def react (F : Foundation) (v : UserViewController) : Event → Except Trap UserViewController
  | .fetchAllUser result => v.fetchAllUser result
  | .willDisplay cell row => .ok { v with list := v.list.willDisplay cell row }
  | .addFriend sender => v.addFriend sender
  | .addAction alert => v.addAction alert
  | .cancelAction alert => .ok { v with alerts := v.alerts.eraseIdx alert }
  | .textDidChange searchText => do
    let list ← v.list.textDidChange F searchText .reloadData
    return { v with list := list }
  | .searchBarCancelButtonClicked =>
    .ok { v with list := v.list.searchBarCancelButtonClicked .reloadData }
  | .main => v.runBlock

/-- A button acts once a block has given it its target. -/
def Enabled (v : UserViewController) : Event → Prop
  | .willDisplay _ row => row < v.list.table.rows
  | .addFriend sender => (v.list.table.tag sender).isSome
  | .addAction alert => alert < v.alerts.length
  | .cancelAction alert => alert < v.alerts.length
  | .main => v.list.table.queue ≠ []
  | _ => True

def machine (F : Foundation) : Machine UserViewController Event := ⟨Enabled, react F⟩

instance (F : Foundation) (v : UserViewController) (ev : Event) :
    Decidable ((machine F).enabled v ev) :=
  match ev with
  | .willDisplay _ row => inferInstanceAs (Decidable (row < v.list.table.rows))
  | .addFriend sender => inferInstanceAs (Decidable ((v.list.table.tag sender).isSome = true))
  | .addAction alert => inferInstanceAs (Decidable (alert < v.alerts.length))
  | .cancelAction alert => inferInstanceAs (Decidable (alert < v.alerts.length))
  | .main => inferInstanceAs (Decidable (v.list.table.queue ≠ []))
  | .fetchAllUser _ | .textDidChange _ | .searchBarCancelButtonClicked => isTrue trivial

theorem runBlock_row {v : UserViewController} {cell row : Nat} {rest : List (Block UserBlock)}
    (next : v.list.table.queue = .row cell row :: rest) : v.runBlock =
      (v.list.table.popped rest).fill cell row >>= fun table =>
        .ok { v with list := { v.list with table := table } } := by
  unfold runBlock
  rw [next]
  exact bind_assoc _ _ _

theorem runBlock_loaded {v : UserViewController} {rest : List (Block UserBlock)}
    (next : v.list.table.queue = .own .loaded :: rest) :
    v.runBlock = .ok { v with list := (v.list.popped rest).showTotal.reloadData } := by
  unfold runBlock
  rw [next]

theorem runBlock_reload {v : UserViewController} {rest : List (Block UserBlock)}
    (next : v.list.table.queue = .own .reloadData :: rest) :
    v.runBlock = .ok { v with list := (v.list.popped rest).reloadData } := by
  unfold runBlock
  rw [next]

end UserViewController

/-! ### Friends -/

/-- The block of a removal captures the button. The friend and the result are in its scope and
it reads neither. -/
inductive FriendBlock where
  | loaded
  | reloadData
  | remove (friendId : String) (result : FriendList.Result) (sender : Nat)
  deriving DecidableEq

/-- `alerts` are the open alerts, `requests` the removals that the server has not answered, both
with the button that was tapped. -/
structure FriendViewController where
  list : UserList FriendBlock := {}
  alerts : List (UserModel × Nat) := []
  requests : List (String × Nat) := []

namespace FriendViewController

def friendListArray (v : FriendViewController) : List UserModel := v.list.table.array
def unFilteredFriendListArray (v : FriendViewController) : List UserModel := v.list.unfiltered

inductive Event where
  | fetchFriends (result : Option (List UserModel))
  | willDisplay (cell row : Nat)
  | unFriend (sender : Nat)
  | removeAction (alert : Nat)
  | cancelAction (alert : Nat)
  | removed (request : Nat) (result : FriendList.Result)
  | textDidChange (searchText : String)
  | searchBarCancelButtonClicked
  | main

def fetchFriends (v : FriendViewController) (result : Option (List UserModel)) : FriendViewController :=
  { v with list := v.list.load (result.getD []) .loaded }

def unFriend (v : FriendViewController) (sender : Nat) : Except Trap FriendViewController := do
  let friends ← item v.friendListArray (v.list.row sender)
  return { v with alerts := v.alerts ++ [(friends, sender)] }

def removeAction (v : FriendViewController) (alert : Nat) : Except Trap FriendViewController := do
  let (friends, sender) ← item v.alerts alert
  let friendId ← unwrap friends.userId
  return { v with alerts := v.alerts.eraseIdx alert, requests := v.requests ++ [(friendId, sender)] }

/-- The completion that `removeAction` hands to `removeFromFriendList`. -/
def removed (v : FriendViewController) (request : Nat) (result : FriendList.Result) :
    Except Trap FriendViewController := do
  let (friendId, sender) ← item v.requests request
  return { v with
    list := { v.list with table := v.list.table.enqueue (.remove friendId result sender) }
    requests := v.requests.eraseIdx request }

def runBlock (v : FriendViewController) : Except Trap FriendViewController :=
  match v.list.table.queue with
  | [] => .ok v
  | .row cell row :: rest => do
    let list ← (v.list.popped rest).fill cell row
    return { v with list := list }
  | .own .loaded :: rest => .ok { v with list := (v.list.popped rest).showTotal.reloadData }
  | .own .reloadData :: rest => .ok { v with list := (v.list.popped rest).reloadData }
  | .own (.remove _ _ sender) :: rest => do
    let table ← (v.list.table.popped rest).remove (v.list.row sender)
    let list := { v.list with table := table }
    return { v with list := list.showTotal.reloadData }

def react (F : Foundation) (v : FriendViewController) : Event → Except Trap FriendViewController
  | .fetchFriends result => .ok (v.fetchFriends result)
  | .willDisplay cell row => .ok { v with list := v.list.willDisplay cell row }
  | .unFriend sender => v.unFriend sender
  | .removeAction alert => v.removeAction alert
  | .cancelAction alert => .ok { v with alerts := v.alerts.eraseIdx alert }
  | .removed request result => v.removed request result
  | .textDidChange searchText => do
    let list ← v.list.textDidChange F searchText .reloadData
    return { v with list := list }
  | .searchBarCancelButtonClicked =>
    .ok { v with list := v.list.searchBarCancelButtonClicked .reloadData }
  | .main => v.runBlock

def Enabled (v : FriendViewController) : Event → Prop
  | .willDisplay _ row => row < v.list.table.rows
  | .unFriend sender => (v.list.table.tag sender).isSome
  | .removeAction alert => alert < v.alerts.length
  | .cancelAction alert => alert < v.alerts.length
  | .removed request _ => request < v.requests.length
  | .main => v.list.table.queue ≠ []
  | _ => True

def machine (F : Foundation) : Machine FriendViewController Event := ⟨Enabled, react F⟩

instance (F : Foundation) (v : FriendViewController) (ev : Event) :
    Decidable ((machine F).enabled v ev) :=
  match ev with
  | .willDisplay _ row => inferInstanceAs (Decidable (row < v.list.table.rows))
  | .unFriend sender => inferInstanceAs (Decidable ((v.list.table.tag sender).isSome = true))
  | .removeAction alert => inferInstanceAs (Decidable (alert < v.alerts.length))
  | .cancelAction alert => inferInstanceAs (Decidable (alert < v.alerts.length))
  | .removed request _ => inferInstanceAs (Decidable (request < v.requests.length))
  | .main => inferInstanceAs (Decidable (v.list.table.queue ≠ []))
  | .fetchFriends _ | .textDidChange _ | .searchBarCancelButtonClicked => isTrue trivial

theorem runBlock_row {v : FriendViewController} {cell row : Nat} {rest : List (Block FriendBlock)}
    (next : v.list.table.queue = .row cell row :: rest) : v.runBlock =
      (v.list.table.popped rest).fill cell row >>= fun table =>
        .ok { v with list := { v.list with table := table } } := by
  unfold runBlock
  rw [next]
  exact bind_assoc _ _ _

theorem runBlock_loaded {v : FriendViewController} {rest : List (Block FriendBlock)}
    (next : v.list.table.queue = .own .loaded :: rest) :
    v.runBlock = .ok { v with list := (v.list.popped rest).showTotal.reloadData } := by
  unfold runBlock
  rw [next]

theorem runBlock_reload {v : FriendViewController} {rest : List (Block FriendBlock)}
    (next : v.list.table.queue = .own .reloadData :: rest) :
    v.runBlock = .ok { v with list := (v.list.popped rest).reloadData } := by
  unfold runBlock
  rw [next]

theorem runBlock_remove {v : FriendViewController} {friendId : String} {result : FriendList.Result}
    {sender : Nat} {rest : List (Block FriendBlock)}
    (next : v.list.table.queue = .own (.remove friendId result sender) :: rest) : v.runBlock =
      (v.list.table.popped rest).remove (v.list.row sender) >>= fun table =>
        .ok { v with list := { v.list with table := table }.showTotal.reloadData } := by
  unfold runBlock
  rw [next]
  rfl

end FriendViewController

end SimpleSNS
