import Mathlib.Data.List.Nodup
import SimpleSNS.Json.Tree

/-!
Snapshot values seen through Swift's conditional casts. A dictionary carries the proof that no
key occurs twice; the order of its entries is the order in which Swift enumerates it.
-/

structure Dict (α : Type) where
  entries : List (String × α)
  unique : (entries.map Prod.fst).Nodup

namespace Dict

variable {α β : Type}

def keys (d : Dict α) : List String := d.entries.map Prod.fst

/-- `d[key]` -/
def get? (d : Dict α) (key : String) : Option α := d.entries.lookup key

theorem eq_of_key {d : Dict α} {x y : String × α} (hx : x ∈ d.entries) (hy : y ∈ d.entries)
    (same : x.1 = y.1) : x = y :=
  List.inj_on_of_nodup_map d.unique hx hy same

theorem lookup_of_mem {l : List (String × α)} (unique : (l.map Prod.fst).Nodup) {k : String}
    {v : α} (member : (k, v) ∈ l) : l.lookup k = some v := by
  obtain ⟨before, after, rfl⟩ := List.append_of_mem member
  rw [List.map_append, List.map_cons] at unique
  refine List.lookup_eq_some_iff.mpr ⟨before, after, rfl, ?_⟩
  intro earlier passed
  have apart := (List.nodup_append.mp unique).2.2 _ (List.mem_map_of_mem passed) k List.mem_cons_self
  exact bne_iff_ne.mpr (Ne.symm apart)

theorem mem_of_get? {d : Dict α} {k : String} {v : α} (found : d.get? k = some v) :
    (k, v) ∈ d.entries := by
  obtain ⟨before, after, split, _⟩ := List.lookup_eq_some_iff.mp found
  rw [split]
  exact List.mem_append_right _ List.mem_cons_self

theorem get?_some_iff {d : Dict α} {k : String} {v : α} : d.get? k = some v ↔ (k, v) ∈ d.entries :=
  ⟨mem_of_get?, lookup_of_mem d.unique⟩

theorem mem_keys {d : Dict α} {k : String} : k ∈ d.keys ↔ ∃ v, d.get? k = some v := by
  constructor
  · intro member
    obtain ⟨⟨key, v⟩, listed, rfl⟩ := List.mem_map.mp member
    exact ⟨v, lookup_of_mem d.unique listed⟩
  · rintro ⟨v, found⟩
    exact List.mem_map_of_mem (mem_of_get? found)

/-- The cast of a dictionary succeeds when the cast of every value does. -/
def castValues (cast : α → Option β) : List (String × α) → Option (List (String × β))
  | [] => some []
  | (k, v) :: rest => do
    let v ← cast v
    let rest ← castValues cast rest
    return (k, v) :: rest

theorem castValues_keys {cast : α → Option β} {l : List (String × α)} {m : List (String × β)}
    (h : castValues cast l = some m) : m.map Prod.fst = l.map Prod.fst := by
  induction l generalizing m with
  | nil =>
    obtain rfl := Option.some.inj h
    rfl
  | cons entry rest ih =>
    obtain ⟨k, v⟩ := entry
    simp only [castValues, Option.bind_eq_bind, Option.bind_eq_some_iff] at h
    obtain ⟨v', _, rest', cast_rest, same⟩ := h
    obtain rfl := Option.some.inj same
    simp [ih cast_rest]

def cast? (d : Dict α) (cast : α → Option β) : Option (Dict β) :=
  match h : castValues cast d.entries with
  | some entries => some ⟨entries, castValues_keys h ▸ d.unique⟩
  | none => none

end Dict

namespace Json

/-- `value as? [String:Any]` -/
def dict? : Json → Option (Dict Json)
  | obj fields => if h : (fields.map Prod.fst).Nodup then some ⟨fields, h⟩ else none
  | _ => none

/-- `value as? String` -/
def string? : Json → Option String
  | str s => some s
  | _ => none

/-- `value as? Double`; a boolean is bridged to the number 0 or 1. -/
def double? : Json → Option Rat
  | num q => some q
  | bool b => some (if b then 1 else 0)
  | _ => none

/-- `value as? Bool`; the numbers 0 and 1 are bridged to booleans. -/
def bool? : Json → Option Bool
  | bool b => some b
  | num q => if q = 1 then some true else if q = 0 then some false else none
  | _ => none

/-- `value as? [String:String]` -/
def stringDict? (j : Json) : Option (Dict String) := j.dict?.bind fun d => d.cast? string?

/-- `value as? [String:[String:Any]]` -/
def dictDict? (j : Json) : Option (Dict (Dict Json)) := j.dict?.bind fun d => d.cast? dict?

theorem lookup_eq (k : String) (fields : List (String × Json)) :
    lookup k fields = (fields.lookup k).getD null := by
  induction fields with
  | nil => rfl
  | cons field rest ih =>
    obtain ⟨k', v⟩ := field
    by_cases same : k' = k
    · subst same
      rw [lookup, if_pos rfl, List.lookup_cons_self, Option.getD_some]
    · rw [lookup, if_neg same, ih, List.lookup_cons, beq_eq_false_iff_ne.mpr (Ne.symm same)]

theorem lookup_mem {k : String} {v : Json} {fields : List (String × Json)}
    (unique : (fields.map Prod.fst).Nodup) (member : (k, v) ∈ fields) : lookup k fields = v := by
  rw [lookup_eq, Dict.lookup_of_mem unique member, Option.getD_some]

theorem dict?_get? {j : Json} {d : Dict Json} (h : j.dict? = some d) (k : String) :
    d.get? k = none ∧ j.getImmediateChild k = null ∨ d.get? k = some (j.getImmediateChild k) := by
  cases j with
  | obj fields =>
    simp only [dict?] at h
    split at h
    · obtain rfl := Option.some.inj h
      simp only [Dict.get?, getImmediateChild, lookup_eq]
      cases fields.lookup k with
      | none => exact Or.inl ⟨rfl, rfl⟩
      | some v => exact Or.inr rfl
    · cases h
  | _ => cases h

end Json
