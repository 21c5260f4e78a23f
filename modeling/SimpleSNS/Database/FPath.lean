import SimpleSNS.Database.FSnapshotUtilities

/-!
Paths of the local database, and the references that the app builds from strings. The loops over a path go from
`pieceNum` on, so a path is the pieces that are left of it.
-/

namespace SimpleSNS
open Std FUtilities FValidation

def componentsSeparatedByString (string : String) : List String := (string.toList.splitOn '/').map String.ofList

theorem splitOn_mem {c : Char} {l part : List Char} (member : part ∈ l.splitOn c) :
    ∀ x ∈ part, x ∈ l ∧ x ≠ c := by
  induction l generalizing part with
  | nil =>
    rw [List.splitOn_nil, List.mem_singleton] at member
    rw [member]
    nofun
  | cons first rest ih =>
    have later {part : List Char} (member : part ∈ rest.splitOn c) : ∀ x ∈ part, x ∈ first :: rest ∧ x ≠ c :=
      fun x inside => ⟨List.mem_cons_of_mem _ (ih member x inside).1, (ih member x inside).2⟩
    rw [List.splitOn_cons_eq_if_modifyHead] at member
    split at member
    · rcases List.mem_cons.mp member with rfl | tail
      · nofun
      · exact later tail
    · rename_i other
      obtain ⟨head, tail, split⟩ := List.exists_cons_of_ne_nil (List.splitOn_ne_nil c rest)
      rw [split, List.modifyHead_cons] at member
      rcases List.mem_cons.mp member with rfl | there
      · intro x inside
        rcases List.mem_cons.mp inside with rfl | within
        · exact ⟨List.mem_cons_self, by simpa using other⟩
        · exact later (split ▸ List.mem_cons_self) x within
      · exact later (split ▸ List.mem_cons_of_mem _ there)

def Piece (piece : String) : Prop := piece ≠ "" ∧ '/' ∉ piece.toList

/-- What `pieceNum` passes has been popped. -/
structure FPath where
  pieces : List String
  pieceNum : Nat
  inside : pieceNum ≤ pieces.length
  whole : ∀ piece ∈ pieces, Piece piece

inductive InternalException where
  | internalError (reason : String)
  deriving DecidableEq

namespace FPath

def piecesOf (path : String) : List String := (componentsSeparatedByString path).filter (0 < ·.length)

theorem piecesOf_whole (path : String) : ∀ piece ∈ piecesOf path, Piece piece := by
  intro piece member
  obtain ⟨component, filled⟩ := List.mem_filter.mp member
  obtain ⟨part, split, rfl⟩ := List.mem_map.mp component
  refine ⟨?_, ?_⟩
  · intro empty
    rw [empty] at filled
    cases filled
  · rw [String.toList_ofList]
    exact fun slash => (splitOn_mem split '/' slash).2 rfl

def initWith (path : String) : FPath := ⟨piecesOf path, 0, Nat.zero_le _, piecesOf_whole path⟩

/-- The pieces that are left, over which the loops go. -/
def rest (path : FPath) : List String := path.pieces.drop path.pieceNum

theorem rest_whole (path : FPath) : ∀ piece ∈ path.rest, Piece piece :=
  fun piece member => path.whole piece (List.mem_of_mem_drop member)

def getFront (path : FPath) : Option String := path.pieces[path.pieceNum]?

def length (path : FPath) : Nat := path.pieces.length - path.pieceNum

def popFront (path : FPath) : FPath :=
  if more : path.pieceNum < path.pieces.length then { path with pieceNum := path.pieceNum + 1, inside := more }
  else path

def isEmpty (path : FPath) : Bool := path.pieces.length ≤ path.pieceNum

def getBack (path : FPath) : Option String :=
  if path.pieceNum < path.pieces.length then path.pieces.getLast? else none

def toStringWithTrailingSlash (path : FPath) (trailingSlash : Bool) : String :=
  let pathString := String.join (path.rest.map ("/" ++ ·))
  if pathString.length = 0 then "/" else if trailingSlash then pathString ++ "/" else pathString

def toString (path : FPath) : String := path.toStringWithTrailingSlash false

def wireFormat (path : FPath) : String := if path.isEmpty then "/" else "/".intercalate path.rest

def parent (path : FPath) : Option FPath :=
  if path.isEmpty then none
  else some ⟨path.rest.dropLast, 0, Nat.zero_le _, fun piece member =>
    path.rest_whole piece ((List.dropLast_sublist _).subset member)⟩

def child (path childPathObj : FPath) : FPath :=
  ⟨path.rest ++ childPathObj.rest, 0, Nat.zero_le _, by
    intro piece member
    rcases List.mem_append.mp member with above | below
    · exact path.rest_whole piece above
    · exact childPathObj.rest_whole piece below⟩

def childFromString (path : FPath) (childPath : String) : FPath :=
  ⟨path.rest ++ piecesOf childPath, 0, Nat.zero_le _, by
    intro piece member
    rcases List.mem_append.mp member with above | below
    · exact path.rest_whole piece above
    · exact piecesOf_whole childPath piece below⟩

/-- The loop of `contains` and of `isEqual`. -/
def samePieces : List String → List String → Bool
  | [], _ => true
  | thisSeg :: rest, otherSeg :: rest' => if thisSeg = otherSeg then samePieces rest rest' else false
  | _ :: _, [] => false

def contains (path other : FPath) : Bool :=
  if path.length > other.length then false else samePieces path.rest other.rest

def isEqual (path other : FPath) : Bool :=
  if path.length ≠ other.length then false else samePieces path.rest other.rest

def comparePieces : List String → List String → Ordering
  | piece :: rest, piece' :: rest' =>
    match keyComparator piece piece' with
    | .eq => comparePieces rest rest'
    | comparison => comparison
  | _, _ => .eq

def compare (path other : FPath) : Ordering :=
  match comparePieces path.rest other.rest with
  | .eq => Ord.compare path.length other.length
  | comparison => comparison

/-! ### A path is the pieces that are left -/

theorem getFront_rest (path : FPath) : path.getFront = path.rest.head? := by
  rw [getFront, rest, List.head?_drop]

theorem length_rest (path : FPath) : path.length = path.rest.length := (List.length_drop ..).symm

theorem isEmpty_rest (path : FPath) : path.isEmpty = true ↔ path.rest = [] := by
  rw [isEmpty, decide_eq_true_iff, rest, List.drop_eq_nil_iff]

theorem popFront_rest (path : FPath) : path.popFront.rest = path.rest.tail := by
  unfold popFront
  split
  · rw [rest, rest, List.tail_drop]
  · rename_i none
    have nothing : path.rest = [] := List.drop_eq_nil_iff.mpr (Nat.le_of_not_lt none)
    rw [nothing, List.tail_nil]

def relativePathFrom (outer inner : FPath) : Except InternalException FPath :=
  match _found : outer.getFront with
  | none => .ok inner
  | some outerFront =>
    if some outerFront = inner.getFront then relativePathFrom outer.popFront inner.popFront
    else
      .error <| .internalError <| "innerPath (" ++ inner.toString ++ ") is not within outerPath (" ++
        outer.toString ++ ")"
termination_by outer.length
decreasing_by
  rw [getFront_rest] at _found
  rw [length_rest, length_rest, popFront_rest]
  cases left : outer.rest with
  | nil =>
    rw [left] at _found
    cases _found
  | cons => exact Nat.lt_succ_self _

theorem samePieces_iff (l l' : List String) : samePieces l l' = true ↔ l <+: l' := by
  fun_induction samePieces l l' with
  | case1 l' => exact iff_of_true rfl (List.nil_prefix)
  | case2 rest otherSeg rest' ih => rw [ih, List.cons_prefix_cons, and_iff_right rfl]
  | case3 thisSeg rest otherSeg rest' other => simp [other]
  | case4 => simp

theorem contains_iff {path other : FPath} : path.contains other = true ↔ path.rest <+: other.rest := by
  unfold contains
  rw [length_rest, length_rest]
  split
  · rename_i longer
    refine iff_of_false Bool.false_ne_true fun within => ?_
    exact Nat.not_lt_of_le within.length_le longer
  · exact samePieces_iff path.rest other.rest

theorem isEqual_iff {path other : FPath} : path.isEqual other = true ↔ path.rest = other.rest := by
  unfold isEqual
  rw [length_rest, length_rest]
  split
  · rename_i lengths
    exact iff_of_false Bool.false_ne_true fun same => lengths (congrArg _ same)
  · rename_i lengths
    rw [samePieces_iff]
    exact ⟨fun within => within.eq_of_length (not_not.mp lengths), fun same => same ▸ List.prefix_rfl⟩

/-- The way from a path to one that it contains: what is left once its own pieces are popped. -/
theorem relativePathFrom_ok {outer inner relative : FPath} :
    relativePathFrom outer inner = .ok relative → outer.rest ++ relative.rest = inner.rest := by
  fun_induction relativePathFrom outer inner with
  | case1 outer inner found =>
    intro same
    obtain rfl := Except.ok.inj same
    rw [getFront_rest, List.head?_eq_none_iff] at found
    rw [found, List.nil_append]
  | case2 outer inner outerFront found same ih =>
    intro reached
    have popped := ih reached
    rw [getFront_rest] at found same
    rw [popFront_rest, popFront_rest] at popped
    rw [← List.cons_head?_tail found, List.cons_append, popped, List.cons_head?_tail same.symm]
  | case3 => nofun

theorem relativePathFrom_within {outer inner : FPath} (within : outer.rest <+: inner.rest) :
    ∃ relative, relativePathFrom outer inner = .ok relative := by
  fun_induction relativePathFrom outer inner with
  | case1 outer inner => exact ⟨inner, rfl⟩
  | case2 outer inner outerFront found same ih =>
    rw [getFront_rest] at found same
    apply ih
    rw [popFront_rest, popFront_rest]
    rw [← List.cons_head?_tail found, ← List.cons_head?_tail same.symm] at within
    exact (List.cons_prefix_cons.mp within).2
  | case3 outer inner outerFront found other =>
    rw [getFront_rest] at found other
    obtain ⟨below, split⟩ := within
    rw [← split, ← List.cons_head?_tail found] at other
    exact absurd rfl other

theorem join_pieces (pieces : List String) : (String.join (pieces.map ("/" ++ ·))).toList =
    (pieces.map fun piece => '/' :: piece.toList).flatten := by
  induction pieces with
  | nil => rfl
  | cons piece pieces ih =>
    rw [List.map_cons, String.join_cons, String.toList_append, ih]
    simp

theorem components_join (pieces : List String) (whole : ∀ piece ∈ pieces, Piece piece) :
    componentsSeparatedByString (String.join (pieces.map ("/" ++ ·))) = "" :: pieces := by
  unfold componentsSeparatedByString
  rw [join_pieces]
  induction pieces with
  | nil => rfl
  | cons piece pieces ih =>
    obtain ⟨⟨_, free⟩, whole⟩ := List.forall_mem_cons.mp whole
    have ih := ih whole
    rw [List.map_cons, List.flatten_cons, List.cons_append, ← List.nil_append ('/' :: _),
      List.splitOn_append_cons_self_of_not_mem List.not_mem_nil, List.map_cons]
    cases pieces with
    | nil =>
      rw [List.map_nil, List.flatten_nil, List.append_nil, List.splitOn_eq_singleton free, List.map_singleton,
        String.ofList_toList]
    | cons next rest =>
      rw [List.map_cons, List.flatten_cons, List.cons_append, ← List.nil_append ('/' :: _),
        List.splitOn_append_cons_self_of_not_mem List.not_mem_nil, List.map_cons] at ih
      rw [List.map_cons, List.flatten_cons, List.cons_append, List.splitOn_append_cons_self_of_not_mem free,
        List.map_cons, (List.cons.inj ih).2, String.ofList_toList]

theorem filled_pieces {pieces : List String} (whole : ∀ piece ∈ pieces, Piece piece) :
    pieces.filter (0 < ·.length) = pieces := by
  apply List.filter_eq_self.mpr
  intro piece member
  have filled := (whole piece member).1
  simp [String.length_eq_zero_iff, Nat.pos_iff_ne_zero, filled]

theorem piecesOf_slash (string : String) : piecesOf (string ++ "/") = piecesOf string := by
  unfold piecesOf componentsSeparatedByString
  have slash : "/".toList = '/' :: [] := rfl
  rw [String.toList_append, slash, List.splitOn_append_cons_self, List.splitOn_nil, List.map_append,
    List.filter_append, List.map_singleton, List.filter_cons_of_neg (by decide), List.filter_nil, List.append_nil]

/-- A path that is printed is read as the same pieces, with a slash at its end or without. -/
theorem piecesOf_toString (path : FPath) (trailingSlash : Bool) :
    piecesOf (path.toStringWithTrailingSlash trailingSlash) = path.rest := by
  have components := components_join path.rest path.rest_whole
  have pieces : piecesOf (String.join (path.rest.map ("/" ++ ·))) = path.rest := by
    unfold piecesOf
    rw [components, List.filter_cons_of_neg (by decide), filled_pieces path.rest_whole]
  unfold toStringWithTrailingSlash
  simp only
  split
  · rename_i nothing
    rw [String.length_eq_zero_iff.mp nothing] at pieces
    exact (piecesOf_slash "").trans pieces
  · split
    · exact (piecesOf_slash _).trans pieces
    · exact pieces

theorem piecesOf_wireFormat (path : FPath) : piecesOf path.wireFormat = path.rest := by
  unfold wireFormat
  split
  · rename_i nothing
    rw [path.isEmpty_rest.mp nothing]
    exact piecesOf_slash ""
  · rename_i there
    have filled : path.rest.map String.toList ≠ [] :=
      fun none => there (path.isEmpty_rest.mpr (List.map_eq_nil_iff.mp none))
    unfold piecesOf componentsSeparatedByString
    have slash : "/".toList = ['/'] := rfl
    rw [String.toList_intercalate, slash, List.splitOn_intercalate '/' ?_ filled, List.map_map]
    · have same : path.rest.map (String.ofList ∘ String.toList) = path.rest := by simp
      rw [same, filled_pieces path.rest_whole]
    · intro part member
      obtain ⟨piece, there, rfl⟩ := List.mem_map.mp member
      exact (path.rest_whole piece there).2

theorem piecesOf_piece {piece : String} (whole : Piece piece) : piecesOf piece = [piece] := by
  unfold piecesOf componentsSeparatedByString
  rw [List.splitOn_eq_singleton whole.2, List.map_singleton, String.ofList_toList]
  exact filled_pieces (List.forall_mem_singleton.mpr whole)

theorem getBack_rest (path : FPath) : path.getBack = path.rest.getLast? := by
  rw [getBack, rest, List.getLast?_drop]
  split
  · rename_i more
    rw [if_neg (Nat.not_le_of_lt more)]
  · rename_i none
    rw [if_pos (Nat.le_of_not_lt none)]

theorem compare_rest (path other : FPath) :
    path.compare other = List.compareLex keyComparator path.rest other.rest := by
  unfold compare
  rw [length_rest, length_rest]
  generalize path.rest = l
  generalize other.rest = l'
  fun_induction comparePieces l l' with
  | case1 piece rest piece' rest' same ih =>
    rw [List.compareLex_cons_cons, same, Ordering.eq_then, ← ih, List.length_cons, List.length_cons]
    split
    · simp [Nat.compare_eq_ite_lt]
    · rfl
  | case2 piece rest piece' rest' differ =>
    rw [List.compareLex_cons_cons]
    cases place : keyComparator piece piece' with
    | eq => exact absurd place differ
    | lt => rfl
    | gt => rfl
  | case3 l l' short =>
    cases l with
    | nil => cases l' <;> rfl
    | cons piece rest =>
      cases l' with
      | nil => rfl
      | cons piece' rest' => exact absurd rfl (short piece rest piece' rest' rfl)

theorem compare_trans : TransCmp compare where
  eq_swap := by
    intro a b
    rw [compare_rest, compare_rest]
    exact OrientedCmp.eq_swap
  isLE_trans := by
    intro a b c ab bc
    rw [compare_rest] at ab bc ⊢
    exact TransCmp.isLE_trans ab bc

theorem parent_rest {path parent : FPath} (above : path.parent = some parent) :
    path.rest ≠ [] ∧ parent.rest = path.rest.dropLast := by
  unfold FPath.parent at above
  split at above
  · cases above
  · rename_i there
    obtain rfl := Option.some.inj above
    exact ⟨fun none => there (path.isEmpty_rest.mpr none), rfl⟩

theorem prefix_compare (l below : List String) : List.compareLex keyComparator l (l ++ below) ≠ .gt := by
  induction l with
  | nil => exact Ordering.isLE_iff_ne_gt.mp List.isLE_compareLex_nil_left
  | cons piece rest ih =>
    have same : keyComparator piece piece = .eq := ReflCmp.compare_self
    rw [List.cons_append, List.compareLex_cons_cons, same, Ordering.eq_then]
    exact ih

/-- The key of a path is what its parent lacks of it. -/
theorem parent_key {path parent : FPath} (above : path.parent = some parent) :
    ∃ key, path.getBack = some key ∧ Piece key ∧ path.rest = parent.rest ++ [key] := by
  obtain ⟨there, shorter⟩ := parent_rest above
  refine ⟨path.rest.getLast there, ?_, path.rest_whole _ (List.getLast_mem there), ?_⟩
  · rw [getBack_rest, List.getLast?_eq_getLast_of_ne_nil there]
  · rw [shorter, List.dropLast_append_getLast there]

/-- A path contains just those that it has a way to, and the way is what leads there and nothing else; in the order it
comes first. Above every path but the root is the least of those that contain it, and there the path is the child of
its own key. Printed, a path is read as itself. -/
theorem paths (path other : FPath) :
    (path.contains other = true ↔ ∃ way, relativePathFrom path other = .ok way) ∧
      (∀ way, relativePathFrom path other = .ok way → (path.child way).isEqual other = true) ∧
      (∃ way, relativePathFrom path (path.child other) = .ok way ∧ way.isEqual other = true) ∧
      (TransCmp compare ∧ (path.contains other = true → path.compare other ≠ .gt)) ∧
      (path.parent = none ↔ path.isEmpty = true) ∧
      (∀ parent, path.parent = some parent → parent.contains path = true ∧ parent.isEqual path = false ∧
        (∃ key, path.getBack = some key ∧ (parent.childFromString key).isEqual path = true) ∧
        (other.contains path = true → other.isEqual path = true ∨ other.contains parent = true)) ∧
      (∀ trailingSlash, (initWith (path.toStringWithTrailingSlash trailingSlash)).isEqual path = true) ∧
      (initWith path.wireFormat).isEqual path = true := by
  refine ⟨?_, ?_, ?_, ?_, ?_, ?_, ?_, ?_⟩
  · rw [contains_iff]
    refine ⟨relativePathFrom_within, ?_⟩
    rintro ⟨way, reached⟩
    exact ⟨way.rest, relativePathFrom_ok reached⟩
  · intro way reached
    exact isEqual_iff.mpr (relativePathFrom_ok reached)
  · have within : path.rest <+: (path.child other).rest := List.prefix_append path.rest other.rest
    obtain ⟨way, reached⟩ := relativePathFrom_within within
    exact ⟨way, reached, isEqual_iff.mpr (List.append_cancel_left (relativePathFrom_ok reached))⟩
  · refine ⟨compare_trans, ?_⟩
    intro within
    obtain ⟨below, split⟩ := contains_iff.mp within
    rw [compare_rest, ← split]
    exact prefix_compare path.rest below
  · unfold FPath.parent
    split <;> simp_all
  · intro parent above
    obtain ⟨key, back, whole, split⟩ := parent_key above
    refine ⟨?_, ?_, ⟨key, back, ?_⟩, ?_⟩
    · rw [contains_iff, split]
      exact List.prefix_append ..
    · rw [Bool.eq_false_iff, ne_eq, isEqual_iff, split]
      simp
    · have spelled : (parent.childFromString key).rest = parent.rest ++ piecesOf key := rfl
      rw [isEqual_iff, spelled, piecesOf_piece whole, split]
    · intro within
      rw [contains_iff, split, List.prefix_concat_iff, ← split] at within
      rw [isEqual_iff, contains_iff]
      exact within
  · intro trailingSlash
    exact isEqual_iff.mpr (path.piecesOf_toString trailingSlash)
  · exact isEqual_iff.mpr path.piecesOf_wireFormat

end FPath

end SimpleSNS
