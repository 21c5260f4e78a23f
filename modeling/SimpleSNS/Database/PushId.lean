import SimpleSNS.APIHandler.Timelines
import SimpleSNS.Database.Key

/-!
The keys that `childByAutoId` hands out: eight characters of the time, twelve random ones. The keys of
one millisecond count up from the first, until its twelve characters are used up.
-/

namespace SimpleSNS.FNextPushId
open FUtilities Async

/-- A character of a key, by its place in `PUSH_CHARS`. -/
abbrev PushChar := Fin 64

def PUSH_CHARS : List Char :=
  "-0123456789ABCDEFGHIJKLMNOPQRSTUVWXYZ_abcdefghijklmnopqrstuvwxyz".toList

theorem PUSH_CHARS_length : PUSH_CHARS.length = 64 := by decide

def characterAtIndex (i : PushChar) : Char := PUSH_CHARS.get (i.cast PUSH_CHARS_length.symm)

/-- `PUSH_CHARS` is asked for a negative index. -/
inductive Failure where
  | rangeException
  deriving DecidableEq

/-- The last `n` characters of the time, filled from the last one. -/
def timeStampChars : Nat → Int → Except Failure (List PushChar)
  | 0, _ => .ok []
  | n + 1, now =>
    if now.tmod 64 < 0 then .error .rangeException
    else (timeStampChars n (now.tdiv 64)).map (· ++ [Fin.ofNat 64 (now.tmod 64).toNat])

abbrev RandChars := { chars : List PushChar // chars.length = 12 }

/-- The places from the last to the first: those that are full become 0, the next one is raised. Where
there is none the code raises what lies in front of `lastRandChars`. -/
def carry : List PushChar → List PushChar
  | [] => []
  | d :: rest => if d = 63 then 0 :: carry rest else (d + 1) :: rest

theorem carry_length (ds : List PushChar) : (carry ds).length = ds.length := by
  induction ds with
  | nil => rfl
  | cons d rest ih =>
    rw [carry]
    split
    · rw [List.length_cons, ih, List.length_cons]
    · rfl

theorem carry_value {ds : List PushChar} (room : ∃ d ∈ ds, d ≠ 63) :
    Radix.value (carry ds).reverse = Radix.value ds.reverse + 1 := by
  induction ds with
  | nil =>
    obtain ⟨d, member, _⟩ := room
    cases member
  | cons d rest ih =>
    rw [carry, List.reverse_cons, Radix.value_concat]
    by_cases full : d = 63
    · obtain ⟨e, member, free⟩ := room
      have later : e ∈ rest := (List.mem_cons.mp member).resolve_left fun same => free (same.trans full)
      rw [if_pos full, List.reverse_cons, Radix.value_concat, ih ⟨e, later, free⟩, full]
      show (Radix.value rest.reverse + 1) * 64 + 0 = Radix.value rest.reverse * 64 + 63 + 1
      omega
    · have next : (d + 1).val = d.val + 1 := by
        have below : d.val ≠ 63 := fun same => full (Fin.ext same)
        rw [Fin.val_add]
        show (d.val + 1) % 64 = d.val + 1
        omega
      rw [if_neg full, List.reverse_cons, Radix.value_concat, next]
      omega

/-- Without a place to raise, all become 0. -/
theorem carry_full {ds : List PushChar} (full : ∀ d ∈ ds, d = 63) : ∀ d ∈ carry ds, d.val = 0 := by
  induction ds with
  | nil => exact fun _ member => absurd member List.not_mem_nil
  | cons d rest ih =>
    rw [carry, if_pos (full d List.mem_cons_self)]
    intro e member
    rcases List.mem_cons.mp member with rfl | later
    · rfl
    · exact ih (fun x inside => full x (List.mem_cons_of_mem _ inside)) e later

def increment (chars : RandChars) : RandChars :=
  ⟨(carry chars.1.reverse).reverse, by simp [carry_length, chars.2]⟩

/-- The static variables. -/
structure Static where
  lastPushTime : Int := 0
  lastRandChars : RandChars := ⟨List.replicate 12 0, rfl⟩

def name (chars : List PushChar) : String := String.ofList (chars.map characterAtIndex)

/-- A key of the same millisecond counts on, any other starts from random characters. -/
def nextRandChars (s : Static) (now : Int) (random : RandChars) : RandChars :=
  if now = s.lastPushTime then increment s.lastRandChars else random

/-- The static variables after a key. -/
def Static.next (s : Static) (now : Int) (random : RandChars) : Static where
  lastPushTime := now
  lastRandChars := nextRandChars s now random

/-- The time in milliseconds, and what `arc4random` would give. -/
def get (s : Static) (now : Int) (random : RandChars) : Except Failure (String × Static) := do
  let time ← timeStampChars 8 now
  return (name (time ++ (nextRandChars s now random).1), s.next now random)

/-- The keys of one call after the other. -/
def gets : Static → List (Int × RandChars) → Except Failure (List String)
  | _, [] => .ok []
  | s, (now, random) :: rest => do
    let (key, s') ← get s now random
    let keys ← gets s' rest
    return key :: keys

/-! ### What a key says -/

def index (c : Char) : PushChar := Fin.ofNat 64 (PUSH_CHARS.idxOf c)

/-- The time a key was made at. -/
def timeOf (key : String) : Nat := Radix.value ((key.toList.take 8).map index)

theorem index_character (d : PushChar) : index (characterAtIndex d) = d := by
  revert d
  decide +kernel

theorem name_toList (chars : List PushChar) : (name chars).toList = chars.map characterAtIndex :=
  String.toList_ofList

theorem timeOf_name (chars : List PushChar) : timeOf (name chars) = Radix.value (chars.take 8) := by
  have read : index ∘ characterAtIndex = id := funext index_character
  rw [timeOf, name_toList, ← List.map_take, List.map_map, read, List.map_id]

/-! ### Their order -/

theorem characters_ascend : PUSH_CHARS.Pairwise (· < ·) := by decide

theorem character_lt {d e : PushChar} (below : d < e) : characterAtIndex d < characterAtIndex e :=
  List.pairwise_iff_get.mp characters_ascend _ _ below

theorem name_lt {ds es : List PushChar} (below : ds < es) : name ds < name es := by
  rw [String.lt_iff, name_toList, name_toList]
  exact List.map_lt (fun _ _ => character_lt) below

/-- Each character is one code unit. -/
def unit (d : PushChar) : UInt16 := (characterAtIndex d).val.toUInt16

theorem name_units (chars : List PushChar) : NSString.of (name chars) = chars.map unit := by
  have one_unit : ∀ d, codeUnits (characterAtIndex d) = [unit d] := by decide +kernel
  rw [NSString.of, name_toList, List.flatMap_map, funext one_unit, List.map_eq_flatMap]

theorem unit_lt {d e : PushChar} (below : d < e) : unit d < unit e := by
  have ascending : (List.ofFn unit).Pairwise (· < ·) := by decide +kernel
  exact List.pairwise_ofFn.mp ascending below

theorem name_compare {ds es : List PushChar} (long : 11 < ds.length) (long' : 11 < es.length)
    (below : ds < es) :
    compareKey (.string (NSString.of (name ds))) (.string (NSString.of (name es))) = .lt := by
  rw [name_units, name_units]
  refine compareKey_of_lt ?_ ?_ (List.map_lt (fun _ _ => unit_lt) below)
  · rwa [List.length_map]
  · rwa [List.length_map]

/-! ### One key after the other -/

theorem timeStampChars_value (n : Nat) {now : Int} (nonneg : 0 ≤ now) (small : now < 64 ^ n) :
    ∃ chars, timeStampChars n now = .ok chars ∧ chars.length = n ∧ (Radix.value chars : Int) = now := by
  induction n generalizing now with
  | zero =>
    simp only [pow_zero] at small
    exact ⟨[], rfl, rfl, by simp [Radix.value]; omega⟩
  | succ n ih =>
    rw [pow_succ] at small
    obtain ⟨rest, higher, lengths, values⟩ := ih (show 0 ≤ now / 64 by omega) (by omega)
    rw [timeStampChars, Int.tmod_eq_emod_of_nonneg nonneg, Int.tdiv_eq_ediv_of_nonneg nonneg,
      if_neg (by omega), higher]
    refine ⟨_, rfl, by simp [lengths], ?_⟩
    have last : ((Fin.ofNat 64 (now % 64).toNat).val : Int) = now % 64 := by
      simp only [Fin.val_ofNat]
      omega
    rw [Radix.value_concat]
    push_cast
    rw [values, last]
    omega

/-- The key of the static variables, as one number. -/
def Static.number (s : Static) : Int := s.lastPushTime * 64 ^ 12 + Radix.value s.lastRandChars.1

/-- Not all twelve characters of the last key are used up. -/
def Static.Room (s : Static) : Prop := ∃ d ∈ s.lastRandChars.1, d ≠ 63

theorem increment_value {s : Static} (room : s.Room) :
    Radix.value (increment s.lastRandChars).1 = Radix.value s.lastRandChars.1 + 1 := by
  obtain ⟨d, member, free⟩ := room
  have raised := carry_value ⟨d, List.mem_reverse.mpr member, free⟩
  rwa [List.reverse_reverse] at raised

theorem increment_full {s : Static} (full : ¬ s.Room) : Radix.value (increment s.lastRandChars).1 = 0 := by
  refine Radix.value_eq_zero.mpr ?_
  intro d member
  refine carry_full ?_ d (List.mem_reverse.mp member)
  intro e inside
  by_contra free
  exact full ⟨e, List.mem_reverse.mp inside, free⟩

/-- A key lies above the last one, unless it is of the same millisecond and its characters are used up. -/
theorem next_number {s : Static} {now : Int} {random : RandChars} (forward : s.lastPushTime ≤ now) :
    s.number < (s.next now random).number ↔ (now = s.lastPushTime → s.Room) := by
  unfold Static.number Static.next nextRandChars
  by_cases same : now = s.lastPushTime
  · rw [if_pos same]
    by_cases room : s.Room
    · refine iff_of_true ?_ fun _ => room
      rw [same, increment_value room]
      push_cast
      omega
    · refine iff_of_false ?_ fun enough => room (enough same)
      rw [same, increment_full room]
      push_cast
      omega
  · rw [if_neg same]
    have below := Radix.value_lt s.lastRandChars.1
    rw [s.lastRandChars.2] at below
    refine iff_of_true ?_ fun again => absurd again same
    simp only
    omega

/-- The key that the static variables stand for: 20 characters, of which the first eight are the time. -/
structure Spells (key : String) (s : Static) : Prop where
  characters : ∃ chars, key = name chars ∧ chars.length = 20 ∧ (Radix.value chars : Int) = s.number
  time : (timeOf key : Int) = s.lastPushTime

theorem get_spelled (s : Static) {now : Int} (random : RandChars) (nonneg : 0 ≤ now) (small : now < 64 ^ 8) :
    ∃ key, get s now random = .ok (key, s.next now random) ∧ Spells key (s.next now random) := by
  obtain ⟨time, stamped, lengths, values⟩ := timeStampChars_value 8 nonneg small
  refine ⟨_, by rw [get, stamped]; rfl, ⟨_, rfl, by simp [lengths, (nextRandChars s now random).2], ?_⟩, ?_⟩
  · rw [Radix.value_append, (nextRandChars s now random).2]
    push_cast
    rw [values]
    rfl
  · rw [timeOf_name, List.take_left' lengths, values]
    rfl

/-- The keys are ordered as their numbers are. -/
theorem Spells.order {key key' : String} {s s' : Static} (spelled : Spells key s) (spelled' : Spells key' s') :
    (key < key' ↔ s.number < s'.number) ∧ (key < key' →
      compareKey (.string (NSString.of key)) (.string (NSString.of key')) = .lt) := by
  obtain ⟨chars, rfl, length, value⟩ := spelled.characters
  obtain ⟨chars', rfl, length', value'⟩ := spelled'.characters
  have digits : chars < chars' ↔ s.number < s'.number := by
    rw [Radix.lt_iff (length.trans length'.symm), ← value, ← value']
    exact Nat.cast_lt.symm
  have names : name chars < name chars' ↔ chars < chars' := by
    refine ⟨?_, name_lt⟩
    intro below
    rcases lt_trichotomy chars chars' with less | rfl | greater
    · exact less
    · exact absurd below (String.lt_irrefl _)
    · exact absurd below (String.lt_asymm (name_lt greater))
  refine ⟨names.trans digits, ?_⟩
  intro below
  exact name_compare (by rw [length]; decide) (by rw [length']; decide) (names.mp below)

/-- No call finds the characters of its own millisecond used up. -/
def Room : Static → List (Int × RandChars) → Prop
  | _, [] => True
  | s, (now, random) :: rest => (now = s.lastPushTime → s.Room) ∧ Room (s.next now random) rest

/-- The keys that follow a key ascend from it exactly while there is room. -/
theorem gets_spelled {s : Static} {calls : List (Int × RandChars)} {last : String} (spelled : Spells last s)
    (first : ∀ call ∈ calls, s.lastPushTime ≤ call.1) (forward : calls.Pairwise (·.1 ≤ ·.1))
    (range : ∀ call ∈ calls, 0 ≤ call.1 ∧ call.1 < 64 ^ 8) :
    ∃ keys, gets s calls = .ok keys ∧ keys.map (fun key => (timeOf key : Int)) = calls.map Prod.fst ∧
      (∀ key ∈ keys, ∃ s', Spells key s') ∧ ((last :: keys).Pairwise (· < ·) ↔ Room s calls) := by
  induction calls generalizing s last with
  | nil =>
    exact ⟨[], rfl, rfl, fun _ member => absurd member List.not_mem_nil,
      iff_of_true (List.pairwise_singleton _ _) trivial⟩
  | cons call rest ih =>
    obtain ⟨now, random⟩ := call
    obtain ⟨later, forward_rest⟩ := List.pairwise_cons.mp forward
    obtain ⟨nonneg, small⟩ := range _ List.mem_cons_self
    obtain ⟨key, made, spelled'⟩ := get_spelled s random nonneg small
    obtain ⟨keys, others, times, spell, ascend⟩ :=
      ih spelled' later forward_rest fun call member => range call (List.mem_cons_of_mem _ member)
    have above : last < key ↔ (now = s.lastPushTime → s.Room) :=
      (spelled.order spelled').1.trans (next_number (first _ List.mem_cons_self))
    refine ⟨key :: keys, ?_, ?_, ?_, ?_⟩
    · rw [gets, made]
      show (gets (s.next now random) rest >>= fun keys => pure (key :: keys)) = _
      rw [others]
      rfl
    · rw [List.map_cons, times, spelled'.time]
      rfl
    · intro key' member
      rcases List.mem_cons.mp member with rfl | member
      · exact ⟨_, spelled'⟩
      · exact spell key' member
    · rw [List.pairwise_cons, ascend]
      constructor
      · rintro ⟨from_last, room⟩
        exact ⟨above.mp (from_last key List.mem_cons_self), room⟩
      · rintro ⟨enough, room⟩
        have step := above.mpr enough
        refine ⟨?_, room⟩
        intro key' member
        rcases List.mem_cons.mp member with rfl | member
        · exact step
        · exact String.lt_trans step ((List.pairwise_cons.mp (ascend.mpr room)).1 key' member)

/-- The key that the static variables stand for before the first call. -/
theorem spelled_first : Spells (name (List.replicate 20 0)) {} := by
  refine ⟨⟨_, rfl, List.length_replicate, by decide⟩, ?_⟩
  rw [timeOf_name]
  decide

theorem own_keys {s : Network api Backend}
    (different : (s.calls.filterMap AddNewPost.postKeyOf).Nodup) : OwnKeys s := by
  have apart := List.pairwise_filterMap.mp different
  have less : ∀ {i j : Nat} {c d : Call addNewPost}, s.calls[i]? = some ⟨.addNewPost, c⟩ →
      s.calls[j]? = some ⟨.addNewPost, d⟩ → c.input.postKey = d.input.postKey → ¬ i < j := by
    intro i j c d found found' same before
    obtain ⟨bound, at_i⟩ := List.getElem?_eq_some_iff.mp found
    obtain ⟨bound', at_j⟩ := List.getElem?_eq_some_iff.mp found'
    have distinct := List.pairwise_iff_getElem.mp apart i j bound bound' before
    rw [at_i, at_j] at distinct
    exact distinct _ rfl _ rfl same
  intro i j c d found found' same
  have forth := less found found' same
  have back := less found' found same.symm
  omega

/-- While the clock does not go back there is a key for every call, and each tells the time it was made
at. They ascend, as strings and as the database sorts them, exactly while no millisecond uses up its
twelve characters; then no two are the same, and posts that get their keys here have their own. -/
theorem push_ids {calls : List (Int × RandChars)} (forward : calls.Pairwise (·.1 ≤ ·.1))
    (range : ∀ call ∈ calls, 0 < call.1 ∧ call.1 < 64 ^ 8) :
    ∃ keys, gets {} calls = .ok keys ∧ keys.map (fun key => (timeOf key : Int)) = calls.map Prod.fst ∧
      (keys.Pairwise (fun key key' => key < key' ∧
        compareKey (.string (NSString.of key)) (.string (NSString.of key')) = .lt) ↔ Room {} calls) ∧
      (Room {} calls → ∀ s : Network api Backend, s.calls.filterMap AddNewPost.postKeyOf = keys → OwnKeys s) := by
  obtain ⟨keys, made, times, spell, ascend⟩ := gets_spelled spelled_first
    (fun call member => (range call member).1.le) forward
    fun call member => ⟨(range call member).1.le, (range call member).2⟩
  have after_first : ∀ key ∈ keys, name (List.replicate 20 0) < key := by
    intro key member
    obtain ⟨s, spelled⟩ := spell key member
    refine (spelled_first.order spelled).1.mpr ?_
    have stamped : (timeOf key : Int) ∈ calls.map Prod.fst := times ▸ List.mem_map_of_mem member
    obtain ⟨call, called, same⟩ := List.mem_map.mp stamped
    have positive := (range call called).1
    rw [same, spelled.time] at positive
    show (0 : Int) * 64 ^ 12 + ((Radix.value (List.replicate 12 (0 : PushChar)) : Nat) : Int) < s.number
    rw [show Radix.value (List.replicate 12 (0 : PushChar)) = 0 from by decide]
    unfold Static.number
    omega
  have strings : keys.Pairwise (· < ·) ↔ Room {} calls := by
    rw [← ascend, List.pairwise_cons]
    exact ⟨fun up => ⟨after_first, up⟩, And.right⟩
  refine ⟨keys, made, times, ?_, ?_⟩
  · rw [← strings]
    refine ⟨fun up => up.imp And.left, fun up => up.imp_of_mem ?_⟩
    intro key key' member member' below
    obtain ⟨s, spelled⟩ := spell key member
    obtain ⟨s', spelled'⟩ := spell key' member'
    exact ⟨below, (spelled.order spelled').2 below⟩
  · rintro room s rfl
    apply own_keys
    apply (strings.mpr room).imp
    rintro key _ below rfl
    exact String.lt_irrefl key below

/-- Two keys of one millisecond and one of the next. -/
theorem push_ids_sample : ∃ keys,
    gets {} [(5, ⟨List.replicate 12 7, rfl⟩), (5, ⟨List.replicate 12 7, rfl⟩),
      (6, ⟨List.replicate 12 7, rfl⟩)] = .ok keys ∧ keys.length = 3 ∧ keys.Pairwise (· < ·) := by
  have forward : ([(5, ⟨List.replicate 12 7, rfl⟩), (5, ⟨List.replicate 12 7, rfl⟩),
    (6, ⟨List.replicate 12 7, rfl⟩)] : List (Int × RandChars)).Pairwise (·.1 ≤ ·.1) := by decide
  obtain ⟨keys, made, times, ascend, _⟩ := push_ids forward (by decide)
  have room : Room {} [(5, ⟨List.replicate 12 7, rfl⟩), (5, ⟨List.replicate 12 7, rfl⟩),
      (6, ⟨List.replicate 12 7, rfl⟩)] :=
    ⟨nofun, fun _ => ⟨7, List.mem_cons_self, by decide⟩, nofun, trivial⟩
  refine ⟨keys, made, ?_, (ascend.mpr room).imp And.left⟩
  have lengths := congrArg List.length times
  rwa [List.length_map, List.length_map] at lengths

/-- The second key of a millisecond lies below the first when that one drew twelve full characters. -/
example : gets {} [(5, ⟨List.replicate 12 63, rfl⟩), (5, ⟨List.replicate 12 63, rfl⟩)] =
    .ok ["-------4zzzzzzzzzzzz", "-------4------------"] := rfl

end SimpleSNS.FNextPushId
