import Mathlib.Order.Compare
import SimpleSNS.Database.Radix

/-!
The order of keys: `compareKey` of `FUtilities`, by which the children of a node are sorted. Strings
that read as 32-bit integers come first, in the order of the integers.
-/

namespace SimpleSNS.FUtilities
open Std

/-- A string, as its UTF-16 code units. -/
abbrev NSString := List UInt16

/-- A character beyond the first plane is two code units. -/
def codeUnits (c : Char) : NSString :=
  if c.val < 0x10000 then [c.val.toUInt16]
  else
    let beyond := c.val - 0x10000
    [(beyond >>> 10 + 0xD800 : UInt32).toUInt16, ((beyond &&& 0x3FF) + 0xDC00 : UInt32).toUInt16]

def NSString.of (s : String) : NSString := s.toList.flatMap codeUnits

/-- `minName` and `maxName` are told from other strings by their address. -/
inductive Key where
  | minName
  | maxName
  | string (s : NSString)
  deriving DecidableEq

/-- The loop of `tryParseStringToInt`. -/
def readDigits : NSString → Int → Option Int
  | [], value => some value
  | c :: rest, value =>
    if c < 48 ∨ 57 < c then none else readDigits rest (value * 10 + (c.toNat - 48))

/-- The digits, after a `-` or not. -/
def readInt (str : NSString) : Option Int :=
  if str.head? = some 45 then
    if str.length = 1 then none else (readDigits str.tail 0).map (- ·)
  else readDigits str 0

def tryParseStringToInt (str : NSString) : Option Int :=
  if 11 < str.length ∨ str.length = 0 then none
  else (readInt str).filter fun value => -2147483648 ≤ value ∧ value ≤ 2147483647

def compareString (a b : NSString) : Ordering :=
  match tryParseStringToInt a, tryParseStringToInt b with
  | some aAsInt, some bAsInt => (compare aAsInt bAsInt).then (compare a.length b.length)
  | some _, none => .lt
  | none, some _ => .gt
  | none, none => compare a b

def compareKey : Key → Key → Ordering
  | .minName, .minName => .eq
  | .maxName, .maxName => .eq
  | .minName, _ => .lt
  | _, .maxName => .lt
  | _, .minName => .gt
  | .maxName, _ => .gt
  | .string a, .string b => compareString a b

/-! ### An order -/

/-- Two keys that are both integers. -/
def compareParsed (a b : Int × Nat) : Ordering := (compare a.1 b.1).then (compare a.2 b.2)

instance : TransCmp compareParsed :=
  inferInstanceAs (TransCmp (compareLex (compareOn Prod.fst) (compareOn Prod.snd)))

theorem compareString_swap (a b : NSString) : compareString a b = (compareString b a).swap := by
  unfold compareString
  cases tryParseStringToInt a with
  | none =>
    cases tryParseStringToInt b with
    | none => exact OrientedCmp.eq_swap
    | some y => rfl
  | some x =>
    cases tryParseStringToInt b with
    | none => rfl
    | some y =>
      exact @OrientedCmp.eq_swap _ compareParsed _ (x, a.length) (y, b.length)

theorem compareString_trans {a b c : NSString} (ab : (compareString a b).isLE)
    (bc : (compareString b c).isLE) : (compareString a c).isLE := by
  unfold compareString at ab bc ⊢
  cases first : tryParseStringToInt a with
  | none =>
    cases second : tryParseStringToInt b with
    | none =>
      cases third : tryParseStringToInt c with
      | none => simp only [first, second, third] at ab bc ⊢; exact TransCmp.isLE_trans ab bc
      | some z => simp [second, third] at bc
    | some y => simp [first, second] at ab
  | some x =>
    cases third : tryParseStringToInt c with
    | none => rfl
    | some z =>
      cases second : tryParseStringToInt b with
      | none => simp [second, third] at bc
      | some y =>
        simp only [first, second, third] at ab bc ⊢
        exact @TransCmp.isLE_trans _ compareParsed _ (x, a.length) (y, b.length) (z, c.length) ab bc

instance : TransCmp compareString where
  eq_swap := compareString_swap _ _
  isLE_trans := compareString_trans

instance : TransCmp compareKey where
  eq_swap := by
    intro a b
    cases a <;> cases b <;> first | rfl | exact compareString_swap _ _
  isLE_trans := by
    intro a b c ab bc
    cases a <;> cases b <;> cases c <;>
      first | rfl | exact compareString_trans ab bc | (cases ab; done) | cases bc

theorem compare_of_lt {a b : NSString} (below : a < b) : compare a b = .lt := by
  induction a generalizing b with
  | nil =>
    cases b with
    | nil => cases below
    | cons d b => rfl
  | cons c a ih =>
    cases b with
    | nil => cases below
    | cons d b =>
      rw [List.compare_cons_cons]
      rcases List.cons_lt_cons_iff.mp below with first | ⟨rfl, rest⟩
      · rw [compare_eq_lt.mpr first]
        rfl
      · rw [ih rest]
        simp

/-- Strings that are too long for an integer are compared as they are. -/
theorem compareKey_of_lt {a b : NSString} (long : 11 < a.length) (long' : 11 < b.length) (below : a < b) :
    compareKey (.string a) (.string b) = .lt := by
  have unread : ∀ {s : NSString}, 11 < s.length → tryParseStringToInt s = none :=
    fun long => if_pos (Or.inl long)
  simp only [compareKey, compareString, unread long, unread long']
  exact compare_of_lt below

/-! ### Keys that compare as equal -/

/-- The character of a digit. -/
def unichar (d : Fin 10) : UInt16 := 48 + UInt16.ofNat d

theorem unichar_of {c : UInt16} (digit : ¬ (c < 48 ∨ 57 < c)) :
    ∃ d : Fin 10, c = unichar d ∧ (c.toNat : Int) - 48 = d := by
  have bounds : 48 ≤ c.toNat ∧ c.toNat ≤ 57 := by
    simp only [UInt16.lt_iff_toNat_lt, not_or] at digit
    exact ⟨Nat.le_of_not_lt digit.1, Nat.le_of_not_lt digit.2⟩
  refine ⟨⟨c.toNat - 48, by omega⟩, ?_, by simp only; omega⟩
  apply UInt16.toNat_inj.mp
  simp [unichar]
  omega

/-- What the loop has read is a numeral, appended to the digits before it. -/
theorem readDigits_some {str : NSString} {value result : Int} (read : readDigits str value = some result) :
    ∃ ds : List (Fin 10), str = ds.map unichar ∧ result = value * 10 ^ ds.length + Radix.value ds := by
  induction str generalizing value with
  | nil =>
    cases read
    exact ⟨[], rfl, by simp [Radix.value]⟩
  | cons c rest ih =>
    rw [readDigits] at read
    split at read
    · cases read
    · rename_i digit
      obtain ⟨d, rfl, same⟩ := unichar_of digit
      obtain ⟨ds, rfl, total⟩ := ih read
      refine ⟨d :: ds, rfl, ?_⟩
      rw [total, same, Radix.value, List.length_cons]
      push_cast
      ring

theorem readDigits_zeros (k : Nat) : readDigits (List.replicate k 48) 0 = some 0 := by
  induction k with
  | zero => rfl
  | succ k ih => exact ih

/-- A string that reads as an integer is a numeral, after a `-` or not. -/
theorem readInt_some {str : NSString} {x : Int} (read : readInt str = some x) :
    ∃ ds : List (Fin 10), (str = 45 :: ds.map unichar ∧ ds ≠ [] ∧ x = - (Radix.value ds : Int)) ∨
      (str = ds.map unichar ∧ x = Radix.value ds) := by
  unfold readInt at read
  split at read
  · rename_i minus
    obtain ⟨rest, rfl⟩ := List.head?_eq_some_iff.mp minus
    split at read
    · cases read
    · rename_i longer
      obtain ⟨value, digits, rfl⟩ := Option.map_eq_some_iff.mp read
      obtain ⟨ds, rfl, total⟩ := readDigits_some digits
      refine ⟨ds, Or.inl ⟨rfl, ?_, ?_⟩⟩
      · rintro rfl
        exact longer rfl
      · simp [total]
  · obtain ⟨ds, rfl, total⟩ := readDigits_some read
    exact ⟨ds, Or.inr ⟨rfl, by simp [total]⟩⟩

theorem tryParse_some {str : NSString} {x : Int} (parsed : tryParseStringToInt str = some x) :
    str.length ≤ 11 ∧ 0 < str.length ∧ readInt str = some x := by
  unfold tryParseStringToInt at parsed
  split at parsed
  · cases parsed
  · rename_i short
    obtain ⟨read, _⟩ := Option.filter_eq_some_iff.mp parsed
    exact ⟨by omega, by omega, read⟩

/-- The two names of zero that are as long as each other. -/
def ZeroNames (a b : NSString) : Prop :=
  ∃ k, 0 < k ∧ k ≤ 10 ∧ a = 45 :: List.replicate k 48 ∧ b = List.replicate (k + 1) 48

theorem ZeroNames.parsed {a b : NSString} (zeros : ZeroNames a b) :
    tryParseStringToInt a = some 0 ∧ tryParseStringToInt b = some 0 ∧ a.length = b.length := by
  obtain ⟨k, positive, short, rfl, rfl⟩ := zeros
  have minus : readInt (45 :: List.replicate k 48) = some 0 := by
    simp [readInt, readDigits_zeros, Nat.pos_iff_ne_zero.mp positive]
  have plain : readInt (List.replicate (k + 1) 48) = some 0 := readDigits_zeros (k + 1)
  refine ⟨?_, ?_, by simp⟩
  · simp [tryParseStringToInt, minus]
    omega
  · simp [tryParseStringToInt, plain]
    omega

theorem zeros_of {ds : List (Fin 10)} (zero : Radix.value ds = 0) :
    ds.map unichar = List.replicate ds.length 48 := by
  refine List.eq_replicate_iff.mpr ⟨List.length_map _, ?_⟩
  intro c member
  obtain ⟨d, digit, rfl⟩ := List.mem_map.mp member
  rw [show d = 0 from Fin.ext (Radix.value_eq_zero.mp zero d digit)]
  rfl

theorem zeroNames_of {ds es : List (Fin 10)} (some_digits : ds ≠ [])
    (short : (45 :: ds.map unichar).length ≤ 11) (same : -(Radix.value ds : Int) = Radix.value es)
    (lengths : (45 :: ds.map unichar).length = (es.map unichar).length) :
    ZeroNames (45 :: ds.map unichar) (es.map unichar) := by
  simp only [List.length_cons, List.length_map] at short lengths
  have positive := List.length_pos_iff.mpr some_digits
  refine ⟨ds.length, positive, by omega, ?_, ?_⟩
  · rw [zeros_of (by omega)]
  · rw [zeros_of (by omega), lengths]

/-- Two strings of one length that read as the same integer are one string, or two names of zero. -/
theorem parsed_same {a b : NSString} {x : Int} (first : tryParseStringToInt a = some x)
    (second : tryParseStringToInt b = some x) (lengths : a.length = b.length) :
    a = b ∨ ZeroNames a b ∨ ZeroNames b a := by
  obtain ⟨short, _, read⟩ := tryParse_some first
  obtain ⟨short', _, read'⟩ := tryParse_some second
  obtain ⟨ds, ⟨rfl, some_digits, rfl⟩ | ⟨rfl, rfl⟩⟩ := readInt_some read
  · obtain ⟨es, ⟨rfl, _, same⟩ | ⟨rfl, same⟩⟩ := readInt_some read'
    · have equal : ds = es := Radix.value_inj (by simpa using lengths) (by omega)
      exact Or.inl (equal ▸ rfl)
    · exact Or.inr (Or.inl (zeroNames_of some_digits short same lengths))
  · obtain ⟨es, ⟨rfl, some_digits, same⟩ | ⟨rfl, same⟩⟩ := readInt_some read'
    · exact Or.inr (Or.inr (zeroNames_of some_digits short' same.symm lengths.symm))
    · have equal : ds = es := Radix.value_inj (by simpa using lengths) (by omega)
      exact Or.inl (equal ▸ rfl)

theorem compareString_eq {a b : NSString} :
    compareString a b = .eq ↔ a = b ∨ ZeroNames a b ∨ ZeroNames b a := by
  constructor
  · intro equal
    unfold compareString at equal
    cases first : tryParseStringToInt a with
    | none =>
      cases second : tryParseStringToInt b with
      | none =>
        simp only [first, second] at equal
        exact Or.inl (LawfulEqCmp.eq_of_compare equal)
      | some y => simp [first, second] at equal
    | some x =>
      cases second : tryParseStringToInt b with
      | none => simp [first, second] at equal
      | some y =>
        simp only [first, second, Ordering.then_eq_eq] at equal
        obtain rfl : x = y := LawfulEqCmp.eq_of_compare equal.1
        exact parsed_same first second (LawfulEqCmp.eq_of_compare equal.2)
  · have same : ∀ {a b}, ZeroNames a b → compareString a b = .eq := by
      intro a b zeros
      obtain ⟨first, second, lengths⟩ := zeros.parsed
      simp [compareString, first, second, lengths]
    rintro (rfl | zeros | zeros)
    · exact ReflCmp.compare_self
    · exact same zeros
    · rw [compareString_swap, same zeros]
      rfl

/-- `compareKey` is an order of the keys. It tells different keys apart, but for the two names of zero of
each length from 2 to 11: `-0` and `00`, `-00` and `000`, and so on. -/
theorem key_order : TransCmp compareKey ∧
    ∀ a b, compareKey a b = .eq ↔ a = b ∨ ∃ s t, a = .string s ∧ b = .string t ∧
      (ZeroNames s t ∨ ZeroNames t s) := by
  refine ⟨inferInstance, ?_⟩
  intro a b
  cases a with
  | minName => cases b <;> simp [compareKey]
  | maxName => cases b <;> simp [compareKey]
  | string s =>
    cases b with
    | minName => simp [compareKey]
    | maxName => simp [compareKey]
    | string t =>
      rw [compareKey, compareString_eq]
      simp

end SimpleSNS.FUtilities
