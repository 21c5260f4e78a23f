import SimpleSNS.Async.DispatchGroup
import SimpleSNS.Database.Export

/-!
Writes to the local database: whatever is written, under valid keys, leaves a valid node or none, so that it can be
exported and read back.
-/

namespace SimpleSNS
open Std Sorted FUtilities FValidation FSnapshotUtilities Async

namespace FNode

/-- No node, or a valid one. -/
def WellFormed (node : FNode) : Prop := node = emptyNode ∨ Valid node

theorem WellFormed.valid {node : FNode} (well : WellFormed node) (there : node.isEmpty = false) : Valid node := by
  rcases well with rfl | valid
  · cases there
  · exact valid

/-! ### What is accepted -/

theorem leafValue_of {fn : String} {path : List String} {value : Json}
    (accepted : isValidLeafValue fn path value = .ok true) : LeafValue value := by
  intro fn' path'
  cases value with
  | null | num | bool => rfl
  | arr => cases accepted
  | str s =>
    simp only [isValidLeafValue] at accepted ⊢
    split at accepted
    · cases accepted
    · rename_i fits
      rw [if_neg fits]
  | obj fields =>
    simp only [isValidLeafValue] at accepted ⊢
    split at accepted
    · rename_i key
      split at accepted
      · cases accepted
      · rename_i one
        rw [if_pos key, if_neg one]
    · cases accepted

/-- What is not a dictionary or an array is refused or a leaf. -/
theorem scalar_of {fn : String} {path : List String} {value : Json} {b : Bool} (scalar : isScalar value = true)
    (accepted : isValidLeafValue fn path value = .ok b) : LeafValue value := by
  have certain : b = true := by
    cases value with
    | null | obj | arr => cases scalar
    | num | bool => exact (Except.ok.inj accepted).symm
    | str s =>
      simp only [isValidLeafValue] at accepted
      split at accepted
      · cases accepted
      · exact (Except.ok.inj accepted).symm
  exact leafValue_of (certain ▸ accepted)

theorem priorityFrom_ok {fn : String} {path : List String} {raw : Json} {priority : Option Json}
    (accepted : priorityFrom fn path raw = .ok priority) : ∀ p ∈ priority, PriorityValue p := by
  unfold priorityFrom at accepted
  obtain ⟨_, valid, accepted⟩ := bind_ok.mp accepted
  split at accepted
  · cases accepted
    nofun
  · rename_i there
    obtain ⟨b, held, accepted⟩ := bind_ok.mp accepted
    cases accepted
    rintro p ⟨rfl⟩
    refine ⟨?_, fun null => there (Json.isEmpty_iff.mpr null), ?_⟩
    · cases raw with
      | null => exact absurd rfl there
      | bool | arr => cases valid
      | num | str => exact scalar_of rfl held
      | obj fields =>
        simp only [isValidPriorityValue] at valid
        split at valid
        · rename_i key
          split at valid
          · cases valid
          · rename_i one
            refine @leafValue_of fn path _ ?_
            simp only [isValidLeafValue]
            rw [if_pos key, if_neg one]
        · cases valid
    · intro fn' path'
      cases raw with
      | bool | arr => cases valid
      | null | num | str => rfl
      | obj fields =>
        simp only [isValidPriorityValue] at valid ⊢
        split at valid
        · rename_i key
          split at valid
          · cases valid
          · rename_i one
            rw [if_pos key, if_neg one]
        · cases valid

theorem ownPriority_ok {fn : String} {path : List String} {given priority : Option Json}
    {fields : List (String × Json)} (ranked : ∀ p ∈ given, PriorityValue p)
    (accepted : ownPriority fn path given fields = .ok priority) : ∀ p ∈ priority, PriorityValue p := by
  unfold ownPriority at accepted
  split at accepted
  · exact priorityFrom_ok accepted
  · cases accepted
    exact ranked

theorem leafValue?_ok {fn : String} {path : List String} {fields : List (String × Json)} {value : Json}
    (accepted : leafValue? fn path fields = .ok (some value)) : LeafValue value := by
  unfold leafValue? at accepted
  split at accepted
  · obtain ⟨b, held, accepted⟩ := bind_ok.mp accepted
    cases b with
    | false => cases accepted
    | true =>
      cases accepted
      exact leafValue_of held
  · obtain ⟨b, held, accepted⟩ := bind_ok.mp accepted
    cases b with
    | false => cases accepted
    | true =>
      cases accepted
      exact leafValue_of held

/-- Valid keys and valid nodes below them. -/
def Sound (nodes : List (String × FNode)) : Prop := ∀ e ∈ nodes, isValidKey e.1 = true ∧ Valid e.2

theorem childrenNode_ok {priority : Option Json} {nodes : List (String × FNode)} {node : FNode}
    (ranked : ∀ p ∈ priority, PriorityValue p) (sound : Sound nodes)
    (accepted : childrenNode priority nodes = .ok node) : WellFormed node := by
  unfold childrenNode at accepted
  split at accepted
  · cases accepted
    exact Or.inl rfl
  · rename_i there
    split at accepted
    · rename_i small
      by_cases apart : nodes.Pairwise (keyComparator ·.1 ·.1 ≠ .eq)
      · obtain ⟨d, built, perm, _⟩ := FImmutableSortedDictionary.fromDictionary_ok ⟨nodes, small⟩ apart
        rw [built] at accepted
        cases accepted
        have sound' : Sound d.entries := fun e member => sound e (perm.subset member)
        refine Or.inr (.children ranked ?_ (FImmutableSortedDictionary.reads d).ascending
          (fun e member => (sound' e member).1) (fun e member => (sound' e member).2))
        intro nothing
        rw [nothing] at perm
        exact there (List.isEmpty_iff.mpr perm.nil_eq.symm)
      · rw [@FImmutableSortedDictionary.fromDictionary_error _ _ keyComparator _ ⟨nodes, small⟩ apart] at accepted
        cases accepted
    · cases accepted

/-- A key that is read as a child's is a valid one. -/
theorem plainKey_ok {fn : String} {path : List String} {key : String}
    (checked : validDictionaryKey fn path key = .ok ()) (plain : ¬ key.toList.head? = some '.') :
    isValidKey key = true := by
  unfold validDictionaryKey at checked
  split at checked
  · cases checked
  · rename_i passed
    have other : key ≠ ".priority" ∧ key ≠ ".value" ∧ key ≠ ".sv" := by
      refine ⟨?_, ?_, ?_⟩
      all_goals
        rintro rfl
        exact plain (by decide)
    have known := fun invalid => passed ⟨other.1, other.2.1, other.2.2, invalid⟩
    simpa using known

theorem scalar_ok {fn : String} {val aPriority : Json} {depth : Nat} {path : List String} {node : FNode}
    (room : depth ≤ kFirebaseMaxObjectDepth) (scalar : isScalar val = true)
    (accepted : internalNodeFrom fn val aPriority depth path = .ok node) : WellFormed node := by
  rw [internalNodeFrom_scalar room scalar] at accepted
  obtain ⟨priority, made, accepted⟩ := bind_ok.mp accepted
  obtain ⟨b, held, accepted⟩ := bind_ok.mp accepted
  cases accepted
  exact Or.inr (.leaf (scalar_of scalar held) (priorityFrom_ok made))

theorem toString_valid (i : Nat) : isValidKey (toString i) = true := by
  unfold isValidKey
  rw [Nat.toString_eq_repr, Nat.toList_repr, Bool.and_eq_true, List.all_eq_true]
  refine ⟨by simp [Nat.toDigits_ne_nil], ?_⟩
  intro c member
  have digit := Nat.isDigit_of_mem_toDigits (by decide) (by decide) member
  obtain ⟨d, inside, rfl⟩ := digitChar_toNat digit
  have all : ∀ d < 10, (!kInvalidKeyCharacters.contains (Nat.digitChar d)) = true := by decide
  exact all d inside

mutual

theorem internalNodeFrom_ok {fn : String} : (val aPriority : Json) → (depth : Nat) → (path : List String) →
    {node : FNode} → internalNodeFrom fn val aPriority depth path = .ok node → WellFormed node
  | val, aPriority, depth, path, node, accepted => by
    by_cases room : depth ≤ kFirebaseMaxObjectDepth
    · match val with
      | .null =>
        rw [internalNodeFrom_null room] at accepted
        cases accepted
        exact Or.inl rfl
      | .obj fields =>
        rw [internalNodeFrom_obj room] at accepted
        obtain ⟨given, made, accepted⟩ := bind_ok.mp accepted
        obtain ⟨priority, own, accepted⟩ := bind_ok.mp accepted
        have ranked := ownPriority_ok (priorityFrom_ok made) own
        obtain ⟨value, held, accepted⟩ := bind_ok.mp accepted
        cases value with
        | some value =>
          cases accepted
          exact Or.inr (.leaf (leafValue?_ok held) ranked)
        | none =>
          obtain ⟨nodes, below, accepted⟩ := bind_ok.mp accepted
          exact childrenNode_ok ranked (fieldNodes_ok fields depth path below) accepted
      | .arr items =>
        rw [internalNodeFrom_arr room] at accepted
        obtain ⟨priority, made, accepted⟩ := bind_ok.mp accepted
        obtain ⟨nodes, below, accepted⟩ := bind_ok.mp accepted
        exact childrenNode_ok (priorityFrom_ok made) (itemNodes_ok items 0 depth path below) accepted
      | .str s => exact scalar_ok room rfl accepted
      | .num q => exact scalar_ok room rfl accepted
      | .bool b => exact scalar_ok room rfl accepted
    · rw [internalNodeFrom.eq_def] at accepted
      simp only [if_pos (Nat.lt_of_not_le room)] at accepted
      cases accepted

theorem fieldNodes_ok {fn : String} : (fields : List (String × Json)) → (depth : Nat) → (path : List String) →
    {nodes : List (String × FNode)} → fieldNodes fn fields depth path = .ok nodes → Sound nodes
  | [], depth, path, nodes, accepted => by
    cases accepted
    nofun
  | (key, val) :: rest, depth, path, nodes, accepted => by
    rw [fieldNodes] at accepted
    obtain ⟨_, checked, accepted⟩ := bind_ok.mp accepted
    split at accepted
    · exact fieldNodes_ok rest depth path accepted
    · rename_i plain
      obtain ⟨child, made, accepted⟩ := bind_ok.mp accepted
      obtain ⟨others, further, accepted⟩ := bind_ok.mp accepted
      have well := internalNodeFrom_ok val .null (depth + 1) (path ++ [key]) made
      have sound := fieldNodes_ok rest depth path further
      cases accepted
      split
      · exact sound
      · rename_i there
        intro e member
        rcases List.mem_cons.mp member with rfl | other
        · exact ⟨plainKey_ok checked plain, well.valid (by simpa using there)⟩
        · exact sound e other

theorem itemNodes_ok {fn : String} : (items : List Json) → (i depth : Nat) → (path : List String) →
    {nodes : List (String × FNode)} → itemNodes fn items i depth path = .ok nodes → Sound nodes
  | [], i, depth, path, nodes, accepted => by
    cases accepted
    nofun
  | val :: rest, i, depth, path, nodes, accepted => by
    rw [itemNodes] at accepted
    obtain ⟨child, made, accepted⟩ := bind_ok.mp accepted
    obtain ⟨others, further, accepted⟩ := bind_ok.mp accepted
    have well := internalNodeFrom_ok val .null (depth + 1) (path ++ [toString i]) made
    have sound := itemNodes_ok rest (i + 1) depth path further
    cases accepted
    split
    · exact sound
    · rename_i there
      intro e member
      rcases List.mem_cons.mp member with rfl | other
      · exact ⟨toString_valid i, well.valid (by simpa using there)⟩
      · exact sound e other

end

/-! ### What a write leaves -/

theorem Sound.erase {nodes : List (String × FNode)} (sound : Sound nodes) (key : String) :
    Sound (erase keyComparator key nodes) := fun e member => sound e (List.mem_of_mem_filter member)

/-- What holds of the children of every well-formed node, also of the empty one. -/
theorem WellFormed.parts {priority : Option Json} {isTree : Bool} {entries : List (String × FNode)}
    (well : WellFormed (children priority isTree entries)) :
    (∀ p ∈ priority, PriorityValue p) ∧ Ascending keyComparator entries ∧ Sound entries := by
  rcases well with empty | valid
  · obtain ⟨rfl, rfl, rfl⟩ := FNode.children.inj empty
    exact ⟨nofun, .nil, nofun⟩
  · cases valid with
    | children ranked _ sorted keys below => exact ⟨ranked, sorted, fun e there => ⟨keys e there, below e there⟩⟩

theorem newChildren_sound {childName : String} {newChild : FNode} (isTree : Bool) {entries : List (String × FNode)}
    (valid : isValidKey childName = true) (well : WellFormed newChild) (sorted : Ascending keyComparator entries)
    (sound : Sound entries) : Ascending keyComparator (newChildren childName newChild isTree entries).2 ∧
      Sound (newChildren childName newChild isTree entries).2 := by
  unfold newChildren
  split
  · exact ⟨erase_ascending sorted, sound.erase childName⟩
  · rename_i there
    have valid' := well.valid (by simpa using there)
    refine ⟨alike_ascending (setObject_alike childName newChild isTree sorted) (insert_ascending sorted), ?_⟩
    exact setObject_forall (P := (isValidKey · = true)) (Q := Valid) isTree sound valid valid'

theorem children_well {priority : Option Json} {isTree : Bool} {entries : List (String × FNode)}
    (ranked : ∀ p ∈ priority, PriorityValue p) (sorted : Ascending keyComparator entries) (sound : Sound entries) :
    WellFormed (if entries.isEmpty then emptyNode else children priority isTree entries) := by
  split
  · exact Or.inl rfl
  · rename_i there
    exact Or.inr (.children ranked (by simpa using there) sorted (fun e member => (sound e member).1)
      (fun e member => (sound e member).2))

theorem updateImmediateChild_well {node newChild : FNode} {childName : String} (well : WellFormed node)
    (valid : isValidKey childName = true) (well' : WellFormed newChild) :
    WellFormed (node.updateImmediateChild childName newChild) := by
  unfold updateImmediateChild
  rw [if_neg (valid_ne valid).1]
  cases node with
  | leaf value priority =>
    obtain held | ⟨held, ranked⟩ := well
    · cases held
    simp only
    split
    · exact Or.inr (.leaf held ranked)
    · rename_i there
      obtain ⟨sorted, sound⟩ := newChildren_sound false valid well' .nil nofun
      refine Or.inr (.children ranked ?_ sorted (fun e member => (sound e member).1)
        (fun e member => (sound e member).2))
      unfold newChildren
      rw [if_neg there]
      exact List.cons_ne_nil _ _
  | children priority isTree entries =>
    obtain ⟨ranked, sorted, sound⟩ := well.parts
    obtain ⟨sorted', sound'⟩ := newChildren_sound isTree valid well' sorted sound
    exact children_well ranked sorted' sound'

theorem getImmediateChild_well {node : FNode} {childName : String} (well : WellFormed node)
    (valid : isValidKey childName = true) : WellFormed (node.getImmediateChild childName) := by
  unfold getImmediateChild
  rw [if_neg (valid_ne valid).1]
  cases node with
  | leaf => exact Or.inl rfl
  | children priority isTree entries =>
    cases found : find keyComparator childName entries with
    | none =>
      simp only [found]
      exact Or.inl rfl
    | some child =>
      simp only [found]
      obtain ⟨e, there, rfl⟩ := find_mem found
      exact Or.inr (well.parts.2.2 e there).2

theorem updateChild_well {node newChild : FNode} {path : List String} (well : WellFormed node)
    (keys : ∀ key ∈ path, isValidKey key = true) (well' : WellFormed newChild) :
    WellFormed (node.updateChild path newChild) := by
  induction path generalizing node with
  | nil =>
    rw [updateChild.eq_def]
    exact well'
  | cons front path ih =>
    obtain ⟨valid, keys⟩ := List.forall_mem_cons.mp keys
    cases node with
    | leaf value priority =>
      rw [updateChild]
      split
      · exact well
      · exact updateImmediateChild_well well valid (ih (Or.inl rfl) keys)
    | children priority isTree entries =>
      rw [updateChild]
      · exact updateImmediateChild_well well valid (ih (getImmediateChild_well well valid) keys)
      · nofun

/-! ### What is read back -/

theorem rebuilt_empty : emptyNode.rebuilt = emptyNode := by
  unfold emptyNode
  rw [rebuilt, rebuiltAll]
  rfl

theorem rebuilt_getPriority (node : FNode) : node.rebuilt.getPriority = node.getPriority := by
  cases node with
  | leaf => rw [rebuilt]
  | children =>
    rw [rebuilt]
    rfl

theorem getPriority_rebuilt (node : FNode) : node.getPriority.rebuilt = node.getPriority := by
  unfold getPriority
  split
  · rw [rebuilt]
  · exact rebuilt_empty

theorem rebuilt_getImmediateChild (node : FNode) (childName : String) :
    node.rebuilt.getImmediateChild childName = (node.getImmediateChild childName).rebuilt := by
  unfold getImmediateChild
  split
  · rw [rebuilt_getPriority, getPriority_rebuilt]
  · cases node with
    | leaf =>
      rw [rebuilt]
      exact rebuilt_empty.symm
    | children priority isTree entries =>
      rw [rebuilt, rebuiltAll_map]
      simp only
      rw [find_map]
      cases find keyComparator childName entries with
      | none => exact rebuilt_empty.symm
      | some child => rfl

theorem rebuilt_getChild (node : FNode) (path : List String) :
    node.rebuilt.getChild path = (node.getChild path).rebuilt := by
  induction path generalizing node with
  | nil => rw [getChild.eq_def, getChild.eq_def]
  | cons front path ih =>
    cases node with
    | leaf value priority =>
      have same := rebuilt_getImmediateChild (leaf value priority) front
      rw [rebuilt] at same ⊢
      exact same
    | children priority isTree entries =>
      have child := rebuilt_getImmediateChild (children priority isTree entries) front
      have step := ih ((children priority isTree entries).getImmediateChild front)
      rw [← child] at step
      rw [rebuilt] at step ⊢
      exact step

mutual

theorem valForExport_rebuilt (exp : Bool) : (node : FNode) → node.rebuilt.valForExport exp = node.valForExport exp
  | leaf value priority => by rw [rebuilt]
  | children priority isTree entries => by
    have same := valsForExport_rebuilt exp entries
    have names : (rebuiltAll entries).map Prod.fst = entries.map Prod.fst := by
      rw [rebuiltAll_map, List.map_map]
      rfl
    have empty : (rebuiltAll entries).isEmpty = entries.isEmpty := by
      rw [rebuiltAll_map, List.isEmpty_map]
    rw [rebuilt, valForExport.eq_def, valForExport.eq_def]
    simp only [same, names, empty]

theorem valsForExport_rebuilt (exp : Bool) : (entries : List (String × FNode)) →
    valsForExport exp (rebuiltAll entries) = valsForExport exp entries
  | [] => by rw [rebuiltAll]
  | (key, node) :: rest => by
    rw [rebuiltAll, valsForExport, valsForExport, valForExport_rebuilt exp node, valsForExport_rebuilt exp rest]

end

/-! ### Runs -/

structure Write where
  path : List String
  value : Json
  priority : Json

/-- `nodeFrom`, and the node in its place. -/
def write (fn : String) (node : FNode) (w : Write) : Except FirebaseException FNode := do
  let newChild ← nodeFrom w.value w.priority fn
  return node.updateChild w.path newChild

theorem writes_well {fn : String} {writes : List Write} (keys : ∀ w ∈ writes, ∀ key ∈ w.path, isValidKey key = true)
    {node node' : FNode} (well : WellFormed node) (ran : writes.foldlM (write fn) node = .ok node') :
    WellFormed node' := by
  induction writes generalizing node with
  | nil =>
    cases ran
    exact well
  | cons w writes ih =>
    obtain ⟨here, keys⟩ := List.forall_mem_cons.mp keys
    rw [List.foldlM_cons] at ran
    obtain ⟨next, wrote, ran⟩ := bind_ok.mp ran
    obtain ⟨newChild, made, wrote⟩ := bind_ok.mp wrote
    cases wrote
    exact ih keys (updateChild_well well here (internalNodeFrom_ok _ _ _ _ made)) ran

/-- Whatever was written under valid keys, one at a time: what the node then exports, `nodeFrom` accepts, and the
node that it makes exports the same and reads the same at every path, with its dictionaries as if built at once. -/
theorem export_read_back (fn : String) {writes : List Write}
    (keys : ∀ w ∈ writes, ∀ key ∈ w.path, isValidKey key = true) {node : FNode}
    (ran : writes.foldlM (write fn) emptyNode = .ok node) {exp : Bool}
    (exports : node = emptyNode ∨ Exports exp kFirebaseMaxObjectDepth node) :
    ∃ node', nodeFrom (node.valForExport exp) .null fn = .ok node' ∧ node'.valForExport exp = node.valForExport exp ∧
      ∀ path, node'.getChild path = (node.getChild path).rebuilt := by
  have well := writes_well keys (Or.inl rfl) ran
  refine ⟨node.rebuilt, ?_, valForExport_rebuilt exp node, rebuilt_getChild node⟩
  have empty : nodeFrom (emptyNode.valForExport exp) .null fn = .ok emptyNode.rebuilt := by
    rw [rebuilt_empty]
    exact internalNodeFrom_null (Nat.zero_le _)
  rcases well with rfl | valid
  · exact empty
  · rcases exports with rfl | exports
    · exact empty
    · exact valid_export valid exports (by omega) fn []

/-- Two children under small integers come out as an array with a gap, and go back in. -/
theorem export_read_back_sample :
    ∃ node', nodeFrom (.arr [.null, .str "x", .bool true]) .null "setValue:" = .ok node' ∧
      node'.valForExport false = .arr [.null, .str "x", .bool true] ∧
      node'.getChild ["2"] = leaf (.bool true) none := by
  have ran : [Write.mk ["1"] (.str "x") .null, .mk ["2"] (.bool true) .null].foldlM (write "setValue:") emptyNode =
    .ok (children none false [("1", leaf (.str "x") none), ("2", leaf (.bool true) none)]) := rfl
  have exports : Exports false kFirebaseMaxObjectDepth
      (children none false [("1", leaf (.str "x") none), ("2", leaf (.bool true) none)]) := by
    refine .children (fun _ => rfl) (by simp) (by simp) ?_
    simp only [List.forall_mem_cons]
    exact ⟨.leaf (fun _ => rfl) nofun, .leaf (fun _ => rfl) nofun, nofun⟩
  obtain ⟨node', made, same, reads⟩ := export_read_back "setValue:" (by decide) ran (Or.inr exports)
  refine ⟨node', made, same, ?_⟩
  rw [reads ["2"]]
  rfl

end FNode

end SimpleSNS
