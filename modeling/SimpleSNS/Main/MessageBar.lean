import Mathlib.Data.List.Range
import SimpleSNS.Async.Machine
import SimpleSNS.Main.Messages

/-!
`TWMessageBarManager` puts the messages of the app on the screen, one after the other. A message leaves
when it is tapped or its time is up, whichever comes first; the other comes to nothing.
-/

namespace SimpleSNS
open Async

/-- The views are numbered as they are made. `timers` are the calls of `itemSelected` after the delay,
`sliding` the animations whose completion is still to come. -/
structure TWMessageBarManager where
  messageBarQueue : List Nat := []
  messageVisible : Bool := false
  messageWindow : Bool := false
  views : List Message := []
  hit : List Nat := []
  onScreen : List Nat := []
  displayed : List Nat := []
  timers : List Nat := []
  sliding : List Nat := []

namespace TWMessageBarManager

def showNextMessage (s : TWMessageBarManager) : TWMessageBarManager :=
  match s.messageBarQueue with
  | view :: rest => { s with
      messageVisible := true
      messageWindow := true
      messageBarQueue := rest
      onScreen := s.onScreen ++ [view]
      displayed := s.displayed ++ [view]
      timers := s.timers ++ [view] }
  | [] => s

def showMessage (s : TWMessageBarManager) (message : Message) : TWMessageBarManager :=
  let queued := { s with
    messageWindow := true
    views := s.views ++ [message]
    messageBarQueue := s.messageBarQueue ++ [s.views.length] }
  if s.messageVisible then queued else queued.showNextMessage

def itemSelected (s : TWMessageBarManager) (view : Nat) : TWMessageBarManager :=
  if view ∈ s.hit then s
  else { s with hit := view :: s.hit, sliding := s.sliding ++ [view] }

/-- The completion of the animation. -/
def slidUp (s : TWMessageBarManager) (view : Nat) : TWMessageBarManager :=
  let gone := { s with
    messageVisible := false
    onScreen := s.onScreen.erase view
    sliding := s.sliding.erase view }
  if 0 < gone.messageBarQueue.length then gone.showNextMessage else { gone with messageWindow := false }

inductive Event where
  | showMessage (message : Message)
  | timer (view : Nat)
  | tap (view : Nat)
  | slidUp (view : Nat)
  deriving DecidableEq

def enabled (s : TWMessageBarManager) : Event → Prop
  | .showMessage _ => True
  | .timer view => view ∈ s.timers
  | .tap view => view ∈ s.onScreen
  | .slidUp view => view ∈ s.sliding

def react (s : TWMessageBarManager) : Event → TWMessageBarManager
  | .showMessage message => s.showMessage message
  | .timer view => { s with timers := s.timers.erase view }.itemSelected view
  | .tap view => s.itemSelected view
  | .slidUp view => s.slidUp view

abbrev machine : Machine TWMessageBarManager Event where
  enabled := enabled
  react s event := .ok (s.react event)

/-! ### What is on the screen -/

inductive Stage (s : TWMessageBarManager) : Prop where
  | idle (visible : s.messageVisible = false) (window : s.messageWindow = false) (queue : s.messageBarQueue = [])
      (onScreen : s.onScreen = []) (sliding : s.sliding = [])
  | up (view : Nat) (visible : s.messageVisible = true) (window : s.messageWindow = true)
      (onScreen : s.onScreen = [view]) (sliding : s.sliding = []) (fresh : view ∉ s.hit)
      (timed : view ∈ s.timers)
  | leaving (view : Nat) (visible : s.messageVisible = true) (window : s.messageWindow = true)
      (onScreen : s.onScreen = [view]) (sliding : s.sliding = [view]) (hit : view ∈ s.hit)

/-- What the manager still has to do by itself for the messages it has. -/
def left (s : TWMessageBarManager) : Nat :=
  2 * s.messageBarQueue.length + (s.onScreen.filter (· ∉ s.hit)).length + s.timers.length + s.sliding.length

structure Orderly (s : TWMessageBarManager) : Prop where
  stage : Stage s
  order : s.displayed ++ s.messageBarQueue = List.range s.views.length
  hits : s.hit ⊆ s.displayed
  shown : s.onScreen ⊆ s.displayed
  timers : ∀ view ∈ s.timers, view ∈ s.hit ∨ view ∈ s.onScreen

variable {s : TWMessageBarManager}

theorem queued_fresh (order : s.displayed ++ s.messageBarQueue = List.range s.views.length)
    (hits : s.hit ⊆ s.displayed) {view : Nat} (queued : view ∈ s.messageBarQueue) : view ∉ s.hit := by
  have unique : (s.displayed ++ s.messageBarQueue).Nodup := order ▸ List.nodup_range
  intro hit
  exact (List.nodup_append.mp unique).2.2 view (hits hit) view queued rfl

theorem showNextMessage_cons {view : Nat} {rest : List Nat} (queue : s.messageBarQueue = view :: rest) :
    s.showNextMessage = { s with
      messageVisible := true
      messageWindow := true
      messageBarQueue := rest
      onScreen := s.onScreen ++ [view]
      displayed := s.displayed ++ [view]
      timers := s.timers ++ [view] } := by
  unfold showNextMessage
  rw [queue]

/-- With nothing on the screen, the first message of the queue comes up. -/
theorem showNext_orderly {view : Nat} {rest : List Nat} (queue : s.messageBarQueue = view :: rest)
    (onScreen : s.onScreen = []) (sliding : s.sliding = [])
    (order : s.displayed ++ s.messageBarQueue = List.range s.views.length) (hits : s.hit ⊆ s.displayed)
    (timers : ∀ view ∈ s.timers, view ∈ s.hit) :
    Orderly s.showNextMessage ∧ s.showNextMessage.left = s.left := by
  have fresh := queued_fresh order hits (queue ▸ List.mem_cons_self)
  rw [showNextMessage_cons queue]
  refine ⟨⟨.up view rfl rfl ?_ sliding fresh ?_, ?_, ?_, ?_, ?_⟩, ?_⟩
  · show s.onScreen ++ [view] = [view]
    rw [onScreen, List.nil_append]
  · exact List.mem_append_right _ List.mem_cons_self
  · show s.displayed ++ [view] ++ rest = _
    rw [List.append_assoc, List.singleton_append, ← queue]
    exact order
  · exact List.Subset.trans hits (List.subset_append_left _ _)
  · show s.onScreen ++ [view] ⊆ s.displayed ++ [view]
    rw [onScreen, List.nil_append]
    exact List.subset_append_right _ _
  · intro v timed
    rcases List.mem_append.mp timed with old | new
    · exact Or.inl (timers v old)
    · exact Or.inr (List.mem_append_right _ new)
  · simp only [left, queue, onScreen, List.nil_append, List.length_append, List.length_cons, List.length_nil,
      List.filter_cons, fresh, not_false_eq_true, decide_true, if_true, List.filter_nil]
    omega

theorem showMessage_orderly (orderly : Orderly s) (message : Message) :
    Orderly (s.showMessage message) ∧ (s.showMessage message).left = s.left + 2 := by
  let queued := { s with
    messageWindow := true
    views := s.views ++ [message]
    messageBarQueue := s.messageBarQueue ++ [s.views.length] }
  have order : queued.displayed ++ queued.messageBarQueue = List.range queued.views.length := by
    show s.displayed ++ (s.messageBarQueue ++ [s.views.length]) = List.range (s.views ++ [message]).length
    rw [← List.append_assoc, orderly.order, List.length_append, List.length_singleton, List.range_succ]
  have more : queued.left = s.left + 2 := by
    simp only [left, queued, List.length_append, List.length_singleton]
    omega
  unfold showMessage
  split
  · rename_i visible
    refine ⟨⟨?_, order, orderly.hits, orderly.shown, orderly.timers⟩, more⟩
    cases orderly.stage with
    | idle hidden =>
      rw [hidden] at visible
      cases visible
    | up view visible window onScreen sliding fresh timed =>
      exact .up view visible rfl onScreen sliding fresh timed
    | leaving view visible window onScreen sliding hit => exact .leaving view visible rfl onScreen sliding hit
  · rename_i hidden
    cases orderly.stage with
    | up view visible => exact absurd visible hidden
    | leaving view visible => exact absurd visible hidden
    | idle _ _ queue onScreen sliding =>
      have first : queued.messageBarQueue = s.views.length :: [] := by
        show s.messageBarQueue ++ _ = _
        rw [queue, List.nil_append]
      have timers : ∀ view ∈ s.timers, view ∈ s.hit := by
        intro view timed
        refine (orderly.timers view timed).resolve_right ?_
        rw [onScreen]
        exact List.not_mem_nil
      obtain ⟨shown, same⟩ := showNext_orderly (s := queued) first onScreen sliding order orderly.hits timers
      exact ⟨shown, same.trans more⟩

/-- A view is selected, by a tap or by its own timer, which is then gone. -/
theorem itemSelected_orderly (orderly : Orderly s) {view : Nat} {timers : List Nat}
    (due : view ∈ s.hit ∨ view ∈ s.onScreen) (kept : timers ⊆ s.timers)
    (others : ∀ v ∈ s.timers, v = view ∨ v ∈ timers) :
    Orderly ({ s with timers := timers }.itemSelected view) ∧
      ({ s with timers := timers }.itemSelected view).left + s.timers.length = s.left + timers.length := by
  unfold itemSelected
  split
  · rename_i again
    refine ⟨⟨?_, orderly.order, orderly.hits, orderly.shown, fun v timed => orderly.timers v (kept timed)⟩, ?_⟩
    · cases orderly.stage with
      | idle visible window queue onScreen sliding => exact .idle visible window queue onScreen sliding
      | leaving v visible window onScreen sliding hit => exact .leaving v visible window onScreen sliding hit
      | up v visible window onScreen sliding fresh timed =>
        refine .up v visible window onScreen sliding fresh ((others v timed).resolve_left ?_)
        rintro rfl
        exact fresh again
    · simp only [left]
      omega
  · rename_i first
    have shown := due.resolve_left first
    cases orderly.stage with
    | idle _ _ _ onScreen =>
      rw [onScreen] at shown
      cases shown
    | leaving v _ _ onScreen _ hit =>
      rw [onScreen] at shown
      obtain rfl := List.mem_singleton.mp shown
      exact absurd hit first
    | up v visible window onScreen sliding fresh timed =>
      obtain rfl : view = v := List.mem_singleton.mp (onScreen ▸ shown)
      have slides : s.sliding ++ [view] = [view] := by rw [sliding, List.nil_append]
      refine ⟨⟨.leaving view visible window onScreen slides List.mem_cons_self, orderly.order,
        List.cons_subset.mpr ⟨orderly.shown shown, orderly.hits⟩, orderly.shown, ?_⟩, ?_⟩
      · intro v timed
        exact (orderly.timers v (kept timed)).imp_left (List.mem_cons_of_mem _)
      · simp only [left, onScreen, sliding, fresh, List.filter_cons, List.filter_nil, List.mem_cons, true_or,
          not_true_eq_false, not_false_eq_true, decide_true, decide_false, if_true, Bool.false_eq_true,
          if_false, List.length_cons, List.length_nil, List.nil_append]
        omega

/-- A view that has slid up makes room for the next. -/
theorem slidUp_orderly (orderly : Orderly s) {view : Nat} (slides : view ∈ s.sliding) :
    Orderly (s.slidUp view) ∧ (s.slidUp view).left + 1 = s.left := by
  cases orderly.stage with
  | idle _ _ _ _ sliding =>
    rw [sliding] at slides
    cases slides
  | up v _ _ _ sliding =>
    rw [sliding] at slides
    cases slides
  | leaving v visible window onScreen sliding hit =>
    obtain rfl : view = v := List.mem_singleton.mp (sliding ▸ slides)
    have cleared : s.onScreen.erase view = [] := by rw [onScreen, List.erase_cons_head]
    have stopped : s.sliding.erase view = [] := by rw [sliding, List.erase_cons_head]
    have timers : ∀ v ∈ s.timers, v ∈ s.hit := by
      intro v timed
      rcases orderly.timers v timed with old | here
      · exact old
      · rw [onScreen] at here
        exact List.mem_singleton.mp here ▸ hit
    let gone := { s with
      messageVisible := false
      onScreen := s.onScreen.erase view
      sliding := s.sliding.erase view }
    have fewer : gone.left + 1 = s.left := by
      simp only [left, gone, cleared, stopped]
      simp only [onScreen, sliding, hit, List.filter_cons, List.filter_nil, not_true_eq_false, decide_false,
        Bool.false_eq_true, if_false, List.length_cons, List.length_nil]
    by_cases more : 0 < s.messageBarQueue.length
    · rw [show s.slidUp view = gone.showNextMessage from if_pos more]
      obtain ⟨first, rest, queue⟩ := List.exists_cons_of_length_pos more
      obtain ⟨shown, less⟩ := showNext_orderly (s := gone) queue cleared stopped orderly.order orderly.hits timers
      refine ⟨shown, ?_⟩
      omega
    · rw [show s.slidUp view = { gone with messageWindow := false } from if_neg more]
      have queue : s.messageBarQueue = [] := List.length_eq_zero_iff.mp (Nat.eq_zero_of_not_pos more)
      refine ⟨⟨.idle rfl rfl queue cleared stopped, orderly.order, orderly.hits, ?_, ?_⟩, fewer⟩
      · show s.onScreen.erase view ⊆ _
        rw [cleared]
        exact List.nil_subset _
      · exact fun v timed => Or.inl (timers v timed)

/-! ### Runs -/

/-- The message of an event that brings one. -/
def Event.message? : Event → Option Message
  | .showMessage message => some message
  | _ => none

/-- The events that come without the app and without the user. -/
def Event.own : Event → Bool
  | .timer _ => true
  | .slidUp _ => true
  | _ => false

structure Kept (events : List Event) (s : TWMessageBarManager) : Prop where
  orderly : Orderly s
  told : s.views = events.filterMap Event.message?
  spent : events.countP Event.own + s.left = 2 * s.views.length

@[simp] theorem showNextMessage_views : s.showNextMessage.views = s.views := by
  unfold showNextMessage
  split <;> rfl

theorem showMessage_views (message : Message) : (s.showMessage message).views = s.views ++ [message] := by
  unfold showMessage
  split
  · rfl
  · exact showNextMessage_views

theorem itemSelected_views (view : Nat) : (s.itemSelected view).views = s.views := by
  unfold itemSelected
  split <;> rfl

theorem slidUp_views (view : Nat) : (s.slidUp view).views = s.views := by
  unfold slidUp
  simp only
  split
  · exact showNextMessage_views
  · rfl

theorem initial_kept : Kept [] ({} : TWMessageBarManager) where
  orderly := ⟨.idle rfl rfl rfl rfl rfl, rfl, List.Subset.refl _, List.Subset.refl _, fun _ timed => nomatch timed⟩
  told := rfl
  spent := rfl

/-- An event tells its message, and spends one if it comes by itself. -/
theorem Kept.next {events : List Event} {event : Event} {s' : TWMessageBarManager} (kept : Kept events s)
    (orderly : Orderly s') (views : s'.views = s.views ++ event.message?.toList)
    (left : (if event.own then 1 else 0) + s'.left = s.left + 2 * event.message?.toList.length) :
    Kept (events ++ [event]) s' := by
  have spent := kept.spent
  refine ⟨orderly, ?_, ?_⟩
  · rw [views, kept.told, List.filterMap_append]
    cases event <;> rfl
  · rw [views, List.countP_append, List.countP_singleton, List.length_append]
    omega

theorem react_kept {events : List Event} {event : Event} (kept : Kept events s) (possible : s.enabled event) :
    Kept (events ++ [event]) (s.react event) := by
  cases event with
  | showMessage message =>
    obtain ⟨orderly, more⟩ := showMessage_orderly kept.orderly message
    refine kept.next orderly (showMessage_views message) ?_
    show 0 + (s.showMessage message).left = s.left + 2
    omega
  | timer view =>
    have others : ∀ v ∈ s.timers, v = view ∨ v ∈ s.timers.erase view := by
      intro v timed
      by_cases same : v = view
      · exact Or.inl same
      · exact Or.inr ((List.mem_erase_of_ne same).mpr timed)
    obtain ⟨orderly, same⟩ :=
      itemSelected_orderly kept.orderly (kept.orderly.timers view possible) List.erase_subset others
    have fewer := List.length_erase_of_mem possible
    have some := List.length_pos_of_mem possible
    refine kept.next orderly ((itemSelected_views view).trans (List.append_nil _).symm) ?_
    show 1 + (itemSelected _ view).left = s.left + 0
    omega
  | tap view =>
    obtain ⟨orderly, same⟩ :=
      itemSelected_orderly kept.orderly (Or.inr possible) (List.Subset.refl _) (fun _ timed => Or.inr timed)
    refine kept.next orderly ((itemSelected_views view).trans (List.append_nil _).symm) ?_
    show 0 + (s.itemSelected view).left = s.left + 0
    have same : (s.itemSelected view).left + s.timers.length = s.left + s.timers.length := same
    omega
  | slidUp view =>
    obtain ⟨orderly, fewer⟩ := slidUp_orderly kept.orderly possible
    refine kept.next orderly ((slidUp_views view).trans (List.append_nil _).symm) ?_
    show 1 + (s.slidUp view).left = s.left + 0
    omega

theorem trace_kept {events : List Event} (trace : machine.Trace {} events s) : Kept events s := by
  refine trace.invariant initial_kept ?_
  intro events s event s' kept possible ran
  obtain rfl : s.react event = s' := Except.ok.inj ran
  exact react_kept kept possible

/-! ### One view -/

/-- What has happened to one view: it is taken down once, after the first tap on it or the end of its own
time; its time ends once, if it has come up; and it is on the screen until it has slid up. -/
structure Each (events : List Event) (s : TWMessageBarManager) (view : Nat) : Prop where
  hit : view ∈ s.hit ↔ .tap view ∈ events ∨ .timer view ∈ events
  slides : events.count (.slidUp view) + s.sliding.count view = if view ∈ s.hit then 1 else 0
  timed : events.count (.timer view) + s.timers.count view = if view ∈ s.displayed then 1 else 0
  screen : view ∈ s.onScreen ↔ view ∈ s.displayed ∧ .slidUp view ∉ events

variable {events : List Event} {view : Nat}

/-- An event that is not about the view. -/
theorem Each.other {event : Event} (each : Each events s view) (tap : event ≠ .tap view)
    (timer : event ≠ .timer view) (slid : event ≠ .slidUp view) : Each (events ++ [event]) s view := by
  have same : ∀ e, event ≠ e → (e ∈ events ++ [event] ↔ e ∈ events) := by
    intro e different
    rw [List.mem_append, List.mem_singleton, or_iff_left (Ne.symm different)]
  refine ⟨?_, ?_, ?_, ?_⟩
  · rw [each.hit, same _ tap, same _ timer]
  · rw [List.count_append, List.count_singleton, if_neg (by simpa using slid)]
    exact each.slides
  · rw [List.count_append, List.count_singleton, if_neg (by simpa using timer)]
    exact each.timed
  · rw [each.screen, same _ slid]

theorem showNextMessage_each {first : Nat} {rest : List Nat} (queue : s.messageBarQueue = first :: rest)
    (fresh : first ∉ s.hit) (waiting : first ∉ s.displayed) (each : Each events s view) :
    Each events s.showNextMessage view := by
  rw [showNextMessage_cons queue]
  refine ⟨each.hit, each.slides, ?_, ?_⟩
  · have timed := each.timed
    show events.count (.timer view) + (s.timers ++ [first]).count view = if view ∈ s.displayed ++ [first] then 1 else 0
    rw [List.count_append, List.count_singleton]
    by_cases same : first = view
    · subst same
      rw [if_neg waiting] at timed
      rw [if_pos (beq_self_eq_true first), if_pos (List.mem_append_right _ List.mem_cons_self)]
      omega
    · have kept : view ∈ s.displayed ++ [first] ↔ view ∈ s.displayed := by
        rw [List.mem_append, List.mem_singleton, or_iff_left (Ne.symm same)]
      rw [if_neg (by simpa using same), if_congr kept rfl rfl]
      exact timed
  · show view ∈ s.onScreen ++ [first] ↔ view ∈ s.displayed ++ [first] ∧ _
    rw [List.mem_append, List.mem_append, List.mem_singleton, each.screen]
    by_cases same : view = first
    · subst same
      have slides := each.slides
      rw [if_neg fresh] at slides
      have still : Event.slidUp view ∉ events := List.count_eq_zero.mp (by omega)
      exact iff_of_true (Or.inr rfl) ⟨Or.inr rfl, still⟩
    · rw [or_iff_left same, or_iff_left same]

/-- The next of the queue has neither come up nor been hit. -/
theorem Orderly.next_waits (orderly : Orderly s) {first : Nat} {rest : List Nat}
    (queue : s.messageBarQueue = first :: rest) : first ∉ s.hit ∧ first ∉ s.displayed := by
  have queued : first ∈ s.messageBarQueue := queue ▸ List.mem_cons_self
  have unique : (s.displayed ++ s.messageBarQueue).Nodup := orderly.order ▸ List.nodup_range
  refine ⟨queued_fresh orderly.order orderly.hits queued, ?_⟩
  intro up
  exact (List.nodup_append.mp unique).2.2 first up first queued rfl

theorem showMessage_each (orderly : Orderly s) (each : Each events s view) (message : Message) :
    Each (events ++ [.showMessage message]) (s.showMessage message) view := by
  have queued : Each (events ++ [.showMessage message]) { s with
      messageWindow := true
      views := s.views ++ [message]
      messageBarQueue := s.messageBarQueue ++ [s.views.length] } view := by
    have same : Each (events ++ [.showMessage message]) s view := each.other nofun nofun nofun
    exact ⟨same.hit, same.slides, same.timed, same.screen⟩
  unfold showMessage
  split
  · exact queued
  · rename_i hidden
    cases orderly.stage with
    | up _ visible => exact absurd visible hidden
    | leaving _ visible => exact absurd visible hidden
    | idle _ _ queue onScreen sliding =>
      have all : s.displayed = List.range s.views.length := by
        have order := orderly.order
        rwa [queue, List.append_nil] at order
      have waiting : s.views.length ∉ s.displayed := by
        rw [all]
        exact List.not_mem_range_self
      have first : s.messageBarQueue ++ [s.views.length] = s.views.length :: [] := by
        rw [queue, List.nil_append]
      exact showNextMessage_each first (fun hit => waiting (orderly.hits hit)) waiting queued

theorem itemSelected_other {selected : Nat} (different : selected ≠ view) (each : Each events s view) :
    Each events (s.itemSelected selected) view := by
  unfold itemSelected
  split
  · exact each
  · have hit : view ∈ selected :: s.hit ↔ view ∈ s.hit := by
      rw [List.mem_cons, or_iff_right (Ne.symm different)]
    refine ⟨hit.trans each.hit, ?_, each.timed, each.screen⟩
    show _ + (s.sliding ++ [selected]).count view = if view ∈ selected :: s.hit then 1 else 0
    rw [List.count_append, List.count_singleton, if_neg (by simpa using different), if_congr hit rfl rfl]
    exact each.slides

/-- Of the taps and the timer of a view only the first takes it down. -/
theorem itemSelected_self
    (slides : events.count (.slidUp view) + s.sliding.count view = if view ∈ s.hit then 1 else 0)
    (selected : .tap view ∈ events ∨ .timer view ∈ events)
    (timed : events.count (.timer view) + s.timers.count view = if view ∈ s.displayed then 1 else 0)
    (screen : view ∈ s.onScreen ↔ view ∈ s.displayed ∧ .slidUp view ∉ events) :
    Each events (s.itemSelected view) view := by
  unfold itemSelected
  split
  · rename_i again
    exact ⟨iff_of_true again selected, slides, timed, screen⟩
  · rename_i first
    rw [if_neg first] at slides
    refine ⟨iff_of_true List.mem_cons_self selected, ?_, timed, screen⟩
    show _ + (s.sliding ++ [view]).count view = if view ∈ view :: s.hit then 1 else 0
    rw [List.count_append, List.count_singleton_self, if_pos List.mem_cons_self]
    omega

theorem slidUp_each {gone : Nat} (orderly : Orderly s) (each : Each events s view) (slides : gone ∈ s.sliding) :
    Each (events ++ [.slidUp gone]) (s.slidUp gone) view := by
  have up : s.onScreen = [gone] := by
    cases orderly.stage with
    | idle _ _ _ _ sliding =>
      rw [sliding] at slides
      cases slides
    | up _ _ _ _ sliding =>
      rw [sliding] at slides
      cases slides
    | leaving v _ _ onScreen sliding =>
      obtain rfl : gone = v := List.mem_singleton.mp (sliding ▸ slides)
      exact onScreen
  have away : Each (events ++ [.slidUp gone]) { s with
      messageVisible := false
      onScreen := s.onScreen.erase gone
      sliding := s.sliding.erase gone } view := by
    by_cases same : gone = view
    · subst same
      have before := each.slides
      have some := List.count_pos_iff.mpr slides
      refine ⟨?_, ?_, ?_, ?_⟩
      · have tap : Event.tap gone ∈ events ++ [.slidUp gone] ↔ .tap gone ∈ events := by simp
        have timer : Event.timer gone ∈ events ++ [.slidUp gone] ↔ .timer gone ∈ events := by simp
        rw [tap, timer]
        exact each.hit
      · show _ + (s.sliding.erase gone).count gone = if gone ∈ s.hit then 1 else 0
        rw [List.count_append, List.count_singleton_self, List.count_erase_self]
        omega
      · rw [List.count_append]
        exact each.timed
      · show gone ∈ s.onScreen.erase gone ↔ _
        rw [up, List.erase_cons_head]
        exact iff_of_false List.not_mem_nil fun still => still.2 (List.mem_append_right _ List.mem_cons_self)
    · have other : Each (events ++ [.slidUp gone]) s view :=
        each.other nofun nofun (by simpa using same)
      refine ⟨other.hit, ?_, other.timed, ?_⟩
      · show _ + (s.sliding.erase gone).count view = _
        rw [List.count_erase_of_ne (Ne.symm same)]
        exact other.slides
      · show view ∈ s.onScreen.erase gone ↔ _
        rw [List.mem_erase_of_ne (Ne.symm same)]
        exact other.screen
  unfold slidUp
  simp only
  split
  · rename_i more
    obtain ⟨first, rest, queue⟩ := List.exists_cons_of_length_pos more
    obtain ⟨fresh, waiting⟩ := orderly.next_waits queue
    exact showNextMessage_each queue fresh waiting away
  · exact ⟨away.hit, away.slides, away.timed, away.screen⟩

theorem react_each {event : Event} (orderly : Orderly s) (each : ∀ view, Each events s view)
    (possible : s.enabled event) (view : Nat) : Each (events ++ [event]) (s.react event) view := by
  have here := each view
  cases event with
  | showMessage message => exact showMessage_each orderly here message
  | tap selected =>
    by_cases same : selected = view
    · subst same
      refine itemSelected_self ?_ (Or.inl (List.mem_append_right _ List.mem_cons_self)) ?_ ?_
      · rw [List.count_append]
        exact here.slides
      · rw [List.count_append]
        exact here.timed
      · rw [List.mem_append, or_iff_left (by simp)]
        exact here.screen
    · exact itemSelected_other same (here.other (by simpa using same) nofun nofun)
  | timer selected =>
    by_cases same : selected = view
    · subst same
      have timed := here.timed
      have some := List.count_pos_iff.mpr possible
      refine itemSelected_self ?_ (Or.inr (List.mem_append_right _ List.mem_cons_self)) ?_ ?_
      · rw [List.count_append]
        exact here.slides
      · show _ + (s.timers.erase selected).count selected = if selected ∈ s.displayed then 1 else 0
        rw [List.count_append, List.count_singleton_self, List.count_erase_self]
        omega
      · rw [List.mem_append, or_iff_left (by simp)]
        exact here.screen
    · have other : Each (events ++ [.timer selected]) s view :=
        here.other nofun (by simpa using same) nofun
      refine itemSelected_other same ⟨other.hit, other.slides, ?_, other.screen⟩
      show _ + (s.timers.erase selected).count view = _
      rw [List.count_erase_of_ne (Ne.symm same)]
      exact other.timed
  | slidUp gone => exact slidUp_each orderly here possible

theorem trace_each {events : List Event} (trace : machine.Trace {} events s) (view : Nat) :
    Each events s view := by
  have all := trace.invariant (I := fun events s => Kept events s ∧ ∀ view, Each events s view) ?_ ?_
  · exact all.2 view
  · exact ⟨initial_kept, fun view => ⟨by simp, rfl, rfl, by simp⟩⟩
  · rintro events s event s' ⟨kept, each⟩ possible ran
    obtain rfl : s.react event = s' := Except.ok.inj ran
    exact ⟨react_kept kept possible, react_each kept.orderly each possible⟩

/-- Every message comes up once, in the order of the calls, and alone. Each view slides up once, after the
first tap on it or the end of its own time, and each that has come up has its time ended once. The manager
never waits with a message left, and each message costs it one timer and one slide. -/
theorem message_bar {events : List Event} (trace : machine.Trace {} events s) :
    s.views = events.filterMap Event.message? ∧
      s.displayed ++ s.messageBarQueue = List.range s.views.length ∧
      s.onScreen.length ≤ 1 ∧ (s.messageWindow = true ↔ s.onScreen ≠ []) ∧
      (∀ view, (events.count (.slidUp view) + s.sliding.count view =
          if .tap view ∈ events ∨ .timer view ∈ events then 1 else 0) ∧
        (events.count (.timer view) + s.timers.count view = if view ∈ s.displayed then 1 else 0) ∧
        (view ∈ s.onScreen ↔ view ∈ s.displayed ∧ .slidUp view ∉ events)) ∧
      events.countP Event.own ≤ 2 * s.views.length ∧
      (s.timers = [] → s.sliding = [] →
        s.displayed = List.range s.views.length ∧ s.onScreen = [] ∧
          events.countP Event.own = 2 * s.views.length) := by
  obtain ⟨orderly, told, spent⟩ := trace_kept trace
  have order := orderly.order
  have views : ∀ view, (events.count (.slidUp view) + s.sliding.count view =
        if .tap view ∈ events ∨ .timer view ∈ events then 1 else 0) ∧
      (events.count (.timer view) + s.timers.count view = if view ∈ s.displayed then 1 else 0) ∧
      (view ∈ s.onScreen ↔ view ∈ s.displayed ∧ .slidUp view ∉ events) := by
    intro view
    have each := trace_each trace view
    refine ⟨?_, each.timed, each.screen⟩
    rw [each.slides, if_congr each.hit rfl rfl]
  refine ⟨told, order, ?_⟩
  cases orderly.stage with
  | idle visible window queue onScreen sliding =>
    refine ⟨?_, ?_, views, by omega, ?_⟩
    · rw [onScreen]
      exact Nat.zero_le 1
    · rw [window, onScreen]
      decide
    · intro timers _
      rw [queue, List.append_nil] at order
      have none : s.left = 0 := by simp only [left, queue, onScreen, timers, sliding, List.length_nil, List.filter_nil]
      exact ⟨order, onScreen, by omega⟩
  | up view visible window onScreen sliding fresh timed =>
    refine ⟨?_, ?_, views, by omega, ?_⟩
    · rw [onScreen]
      exact Nat.le_refl 1
    · rw [window, onScreen]
      simp
    · intro timers _
      rw [timers] at timed
      cases timed
  | leaving view visible window onScreen sliding hit =>
    refine ⟨?_, ?_, views, by omega, ?_⟩
    · rw [onScreen]
      exact Nat.le_refl 1
    · rw [window, onScreen]
      simp
    · intro _ stopped
      rw [sliding] at stopped
      cases stopped

/-- Two messages at once, the first tapped before its time. -/
theorem message_bar_sample : ∃ s events, machine.Trace {} events s ∧
    events.filterMap Event.message? = [Form.actionBtn.success, Form.postBarButton.success] ∧
    s.displayed = [0, 1] ∧ s.onScreen = [] := by
  have none : machine.Trace {} [] {} := .refl
  have first := none.step (i := Event.showMessage Form.actionBtn.success) trivial rfl
  have both := first.step (i := Event.showMessage Form.postBarButton.success) trivial rfl
  have tapped := both.step (i := Event.tap 0) (List.Mem.head _) rfl
  have next := tapped.step (i := Event.slidUp 0) (List.Mem.head _) rfl
  have late := next.step (i := Event.timer 0) (List.Mem.head _) rfl
  have timed := late.step (i := Event.timer 1) (List.Mem.head _) rfl
  have gone := timed.step (i := Event.slidUp 1) (List.Mem.head _) rfl
  obtain ⟨_, _, _, _, _, _, quiet⟩ := message_bar gone
  obtain ⟨displayed, onScreen, _⟩ := quiet rfl rfl
  exact ⟨_, _, gone, rfl, displayed, onScreen⟩

end TWMessageBarManager

end SimpleSNS
