import Mathlib.Data.List.Induction
import SimpleSNS.Async.Network

/-!
The log of a network holds the calls of its completion handlers in the order in which they are
made. A listener hears each of them when it is made, and what it shows is what it heard last.
-/

namespace Async

variable {ε κ : Type} {P : κ → Program ε} {W : Type}

theorem Call.Step.reports_grow {P : Program ε} {e : ε} {c c' : Call P} {ev : Call.Event P}
    (h : c.Step e ev c') : ∃ new, c'.reports = c.reports ++ new := by
  cases h with
  | serve a sent => exact ⟨[], (List.append_nil _).symm⟩
  | deliver arrived ran => exact ⟨_, rfl⟩
  | block next ran => exact ⟨_, rfl⟩

namespace Network

theorem step_log {S : Service P W} {s s' : Network P W} {l : Label P} (h : Step S s l s') :
    ∃ new, s'.log = s.log ++ new := by
  cases h with
  | start => exact ⟨_, rfl⟩
  | call => exact ⟨_, rfl⟩

theorem mem_completions {i : Nat} {k : κ} {reports : List (P k).Report} {x : Completion P}
    (member : x ∈ completions i k reports) : ∃ r, x = ⟨i, k, r⟩ := by
  obtain ⟨r, _, rfl⟩ := List.mem_map.mp member
  exact ⟨r, rfl⟩

variable [DecidableEq κ]

/-- A completion of a program of kind `k`, with the index of its call. -/
def ofKind (k : κ) (x : Completion P) : Option (Nat × (P k).Report) :=
  if h : x.kind = k then some (x.index, h ▸ x.report) else none

/-- The completions of kind `k`, in order. -/
def delivered (k : κ) (log : List (Completion P)) : List (Nat × (P k).Report) :=
  log.filterMap (ofKind k)

/-- What call `i` has delivered. -/
def reportsOf (i : Nat) (k : κ) (log : List (Completion P)) : List (P k).Report :=
  (delivered k log).filterMap fun x => if x.1 = i then some x.2 else none

@[simp] theorem ofKind_self (i : Nat) (k : κ) (r : (P k).Report) :
    ofKind k (⟨i, k, r⟩ : Completion P) = some (i, r) := dif_pos rfl

theorem delivered_append (k : κ) (log new : List (Completion P)) :
    delivered k (log ++ new) = delivered k log ++ delivered k new := List.filterMap_append

theorem reportsOf_append (i : Nat) (k : κ) (log new : List (Completion P)) :
    reportsOf i k (log ++ new) = reportsOf i k log ++ reportsOf i k new := by
  unfold reportsOf
  rw [delivered_append, List.filterMap_append]

theorem delivered_completions (i : Nat) (k : κ) (reports : List (P k).Report) :
    delivered k (completions i k reports) = reports.map fun r => (i, r) := by
  unfold delivered completions
  induction reports with
  | nil => rfl
  | cons r rest ih => rw [List.map_cons, List.filterMap_cons, ofKind_self, ih, List.map_cons]

theorem reportsOf_self (i : Nat) (k : κ) (reports : List (P k).Report) :
    reportsOf i k (completions i k reports) = reports := by
  unfold reportsOf
  rw [delivered_completions, List.filterMap_map]
  simp

theorem ofKind_index {k : κ} {x : Completion P} {i : Nat} {r : (P k).Report}
    (h : ofKind k x = some (i, r)) : x = ⟨i, k, r⟩ := by
  unfold ofKind at h
  split at h
  · rename_i same
    obtain ⟨index, kind, report⟩ := x
    subst same
    cases h
    rfl
  · cases h

theorem mem_delivered {k : κ} {log : List (Completion P)} {i : Nat} {r : (P k).Report} :
    (i, r) ∈ delivered k log ↔ ⟨i, k, r⟩ ∈ log := by
  unfold delivered
  rw [List.mem_filterMap]
  constructor
  · rintro ⟨x, member, picked⟩
    exact ofKind_index picked ▸ member
  · intro member
    exact ⟨_, member, ofKind_self i k r⟩

theorem reportsOf_other {i : Nat} (k : κ) {log : List (Completion P)}
    (other : ∀ x ∈ log, x.index ≠ i) : reportsOf i k log = [] := by
  unfold reportsOf
  rw [List.filterMap_eq_nil_iff]
  rintro ⟨j, r⟩ member
  exact if_neg (other _ (mem_delivered.mp member))

/-- The log agrees with the calls. -/
structure Logged (s : Network P W) : Prop where
  calls : ∀ x ∈ s.log, ∃ c, s.calls[x.index]? = some ⟨x.kind, c⟩
  reports : ∀ (i : Nat) k (c : Call (P k)), s.calls[i]? = some ⟨k, c⟩ → reportsOf i k s.log = c.reports

theorem step_logged {S : Service P W} {s s' : Network P W} {l : Label P} (logged : Logged s)
    (stepped : Step S s l s') : Logged s' := by
  have kept : ∀ x ∈ s.log, ∃ c, s'.calls[x.index]? = some ⟨x.kind, c⟩ := by
    intro x member
    obtain ⟨c, found⟩ := logged.calls x member
    exact step_keeps stepped found
  cases stepped with
  | @start e k input f ran =>
    have last : (s.calls ++ [⟨k, Call.init e input f⟩])[s.calls.length]? =
        some ⟨k, Call.init e input f⟩ := List.getElem?_concat_length
    refine ⟨?_, ?_⟩
    · intro x member
      rcases List.mem_append.mp member with old | new
      · exact kept x old
      · obtain ⟨r, rfl⟩ := mem_completions new
        exact ⟨_, last⟩
    · intro i k' c found
      refine (reportsOf_append i k' s.log _).trans ?_
      rcases concat_lookup found with old | ⟨rfl, same⟩
      · have bound := (List.getElem?_eq_some_iff.mp old).1
        rw [logged.reports i k' c old, reportsOf_other, List.append_nil]
        intro x member
        obtain ⟨r, rfl⟩ := mem_completions member
        exact Nat.ne_of_gt bound
      · cases same
        rw [reportsOf_self, reportsOf_other]
        · rfl
        · intro x member
          obtain ⟨c, found⟩ := logged.calls x member
          exact Nat.ne_of_lt (List.getElem?_eq_some_iff.mp found).1
  | @call e k c c' ev w index found call_step moves =>
    obtain ⟨new, grown⟩ := call_step.reports_grow
    have added : c'.reports.drop c.reports.length = new := by
      rw [grown, List.drop_left]
    have here : (s.moved w index c c').calls[index]? = some ⟨k, c'⟩ :=
      List.getElem?_set_self (List.getElem?_eq_some_iff.mp found).1
    refine ⟨?_, ?_⟩
    · intro x member
      rcases List.mem_append.mp member with old | fresh
      · exact kept x old
      · obtain ⟨r, rfl⟩ := mem_completions fresh
        exact ⟨_, here⟩
    · intro i k' d look
      refine (reportsOf_append i k' s.log _).trans ?_
      rw [added]
      rcases moved_lookup found look with ⟨rfl, same⟩ | ⟨different, old⟩
      · cases same
        rw [logged.reports _ k c found, reportsOf_self, grown]
      · rw [logged.reports i k' d old, reportsOf_other, List.append_nil]
        intro x member
        obtain ⟨r, rfl⟩ := mem_completions member
        exact different

theorem Run.logged {S : Service P W} {ok : Network P W → Label P → Prop} {s : Network P W} {w : W}
    (run : Run S ok { world := w } s) : Logged s := by
  refine run.invariant (I := Logged) ⟨nofun, ?_⟩ ?_
  · intro i k c found
    cases found
  · intro s l s' logged _ stepped
    exact step_logged logged stepped

/-- What the log ends with is the last report of its call. -/
theorem Logged.final_report {s : Network P W} (logged : Logged s) {x : Completion P}
    (last : s.log.getLast? = some x) :
    ∃ c, s.calls[x.index]? = some ⟨x.kind, c⟩ ∧ c.reports.getLast? = some x.report := by
  obtain ⟨before, split⟩ := List.getLast?_eq_some_iff.mp last
  obtain ⟨c, found⟩ := logged.calls x (split ▸ List.mem_append_right _ (List.mem_singleton_self x))
  have own : reportsOf x.index x.kind [x] = [x.report] := reportsOf_self x.index x.kind [x.report]
  refine ⟨c, found, ?_⟩
  rw [← logged.reports _ _ c found, split, reportsOf_append, own, List.getLast?_concat]

/-- The call whose completion comes last has reported it last. -/
theorem Logged.last_report {s : Network P W} (logged : Logged s) {i : Nat} {k : κ} {r : (P k).Report}
    {c : Call (P k)} (found : s.calls[i]? = some ⟨k, c⟩)
    (last : (delivered k s.log).getLast? = some (i, r)) : c.reports.getLast? = some r := by
  obtain ⟨before, split⟩ := List.getLast?_eq_some_iff.mp last
  rw [← logged.reports i k c found, reportsOf, split, List.filterMap_append]
  simp

/-- When completions come in the order of the calls, the newest call's comes last. -/
theorem Logged.newest_last {s : Network P W} (logged : Logged s) {i : Nat} {k : κ} {c : Call (P k)}
    (found : s.calls[i]? = some ⟨k, c⟩)
    (newest : ∀ (j : Nat) (d : Call (P k)), s.calls[j]? = some ⟨k, d⟩ → j ≤ i)
    (reported : c.reports ≠ [])
    (ordered : (delivered k s.log).Pairwise fun x y => x.1 ≤ y.1) :
    ∃ r, (delivered k s.log).getLast? = some (i, r) := by
  obtain ⟨r, member⟩ := List.exists_mem_of_ne_nil _ reported
  rw [← logged.reports i k c found] at member
  obtain ⟨⟨j, r'⟩, heard, picked⟩ := List.mem_filterMap.mp member
  obtain ⟨same, _⟩ := Option.ite_none_right_eq_some.mp picked
  have nonempty := List.ne_nil_of_mem heard
  obtain ⟨⟨last, r''⟩, is_last⟩ : ∃ x, (delivered k s.log).getLast? = some x :=
    ⟨_, List.getLast?_eq_some_getLast nonempty⟩
  obtain ⟨before, split⟩ := List.getLast?_eq_some_iff.mp is_last
  have upper : last ≤ i := by
    have logged_last : ⟨last, k, r''⟩ ∈ s.log := mem_delivered.mp (split ▸ by simp)
    obtain ⟨d, found'⟩ := logged.calls _ logged_last
    exact newest last d found'
  have lower : i ≤ last := by
    rw [split] at heard ordered
    rcases List.mem_append.mp heard with earlier | final
    · have le := (List.pairwise_append.mp ordered).2.2 _ earlier _ List.mem_cons_self
      simp only at same le
      omega
    · cases List.mem_singleton.mp final
      simp only at same
      omega
  obtain rfl : last = i := by omega
  exact ⟨r'', is_last⟩

/-! ### Listeners -/

section Listeners
variable {V : Type}

/-- A listener beside a network. It hears every completion when it is called, and moves on its own
in between. -/
inductive Attended (S : Service P W) (ok : Network P W → Label P → Prop) (hear : V → Completion P → V)
    (own : V → V → Prop) (s₀ : Network P W) (v₀ : V) : Network P W → V → Prop where
  | refl : Attended S ok hear own s₀ v₀ s₀ v₀
  | network {s s' : Network P W} {v : V} {l : Label P} (before : Attended S ok hear own s₀ v₀ s v)
      (allowed : ok s l) (stepped : Step S s l s') :
      Attended S ok hear own s₀ v₀ s' ((s'.log.drop s.log.length).foldl hear v)
  | own {s : Network P W} {v v' : V} (before : Attended S ok hear own s₀ v₀ s v) (moved : own v v') :
      Attended S ok hear own s₀ v₀ s v'

variable {S : Service P W} {ok : Network P W → Label P → Prop} {hear : V → Completion P → V}
  {own : V → V → Prop} {s₀ s : Network P W} {v₀ v : V}

omit [DecidableEq κ] in
theorem Attended.run (attended : Attended S ok hear own s₀ v₀ s v) : Run S ok s₀ s := by
  induction attended with
  | refl => exact .refl
  | network _ allowed stepped ih => exact .step ih allowed stepped
  | own _ _ ih => exact ih

omit [DecidableEq κ] in
theorem Attended.of_run (fresh : s₀.log = []) (run : Run S ok s₀ s) :
    Attended S ok hear own s₀ v₀ s (s.log.foldl hear v₀) := by
  induction run with
  | refl =>
    rw [fresh]
    exact .refl
  | @step s s' l _ allowed stepped ih =>
    obtain ⟨new, grown⟩ := step_log stepped
    have heard := Attended.network ih allowed stepped
    rw [grown, List.drop_left, ← List.foldl_append, ← grown] at heard
    exact heard

/-- A listener shows what it heard last of kind `k`, if that is all that changes what it shows. -/
theorem Attended.shows_last {T : Type} (k : κ) (display : V → T) (result : (P k).Report → T)
    (fresh : s₀.log = []) (attended : Attended S ok hear own s₀ v₀ s v)
    (hears : ∀ v x, display (hear v x) = ((ofKind k x).map fun y => result y.2).getD (display v))
    (keeps : ∀ v v', own v v' → display v' = display v) :
    display v = ((delivered k s.log).getLast?.map fun y => result y.2).getD (display v₀) := by
  have folds : ∀ (log : List (Completion P)) (v : V), display (log.foldl hear v) =
      ((delivered k log).getLast?.map fun y => result y.2).getD (display v) := by
    intro log v
    induction log using List.reverseRecOn with
    | nil => rfl
    | append_singleton log x ih =>
      rw [List.foldl_append, List.foldl_cons, List.foldl_nil, hears, ih, delivered_append]
      cases kind : ofKind k x with
      | none => simp [delivered, kind]
      | some y => simp [delivered, kind]
  induction attended with
  | refl => rw [fresh, delivered, List.filterMap_nil, List.getLast?_nil]; rfl
  | @network s s' v l before allowed stepped ih =>
    obtain ⟨new, grown⟩ := step_log stepped
    rw [grown, List.drop_left, folds, ih, delivered_append, List.getLast?_append]
    cases (delivered k new).getLast? <;> rfl
  | own _ moved ih => rw [keeps _ _ moved, ih]

end Listeners

end Network

end Async
