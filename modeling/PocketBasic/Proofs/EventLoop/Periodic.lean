import PocketBasic.Proofs.EventLoop.History

/-! # Periodic timers

A timer that goes on firing is due once in every interval. However the host stalls, a drain delivers it once at
most and puts its next deadline within the interval that follows, so it never catches up in a burst and never
runs ahead of its pace. It stays on the grid of its first deadline until a delivery is late by an interval.
-/

namespace PocketBasic

/-- A periodic timer that is due is armed again, within the interval that follows. It is on the grid of its
    deadlines if the delivery is late by less than an interval. -/
theorem Timer.exists_rearm {ε : Type} {t : Timer ε} {now interval : Nat} (periodic : t.interval = some interval)
    (positive : 0 < interval) (due : t.deadline ≤ now) :
    ∃ u, t.rearm now = some u ∧ (u.id, u.interval, u.event) = (t.id, t.interval, t.event) ∧
      now < u.deadline ∧ u.deadline ≤ now + interval ∧ t.deadline + interval ≤ u.deadline ∧
      (now < t.deadline + interval → u.deadline = t.deadline + interval) := by
  refine ⟨{ t with deadline := if t.deadline + interval ≤ now then now + interval else t.deadline + interval },
    by simp [rearm, periodic], rfl, ?_⟩
  dsimp only
  split <;> omega

/-- When a timer was due and when its event was handed over. -/
structure Delivery where
  deadline : Nat
  time : Nat
  deriving Repr, DecidableEq

namespace EventLoop

variable {ε : Type} {l : EventLoop ε} {os : List (Operation ε)} {o : Operation ε} {id : TimerId} {t : Timer ε}

/-- The timers of a name that an operation delivers. -/
def delivered (l : EventLoop ε) (id : TimerId) : Operation ε → List Delivery
  | .drain => (l.due.filter fun t => t.id = id).map fun t => ⟨t.deadline, l.now⟩
  | _ => []

/-- All deliveries of the timers of a name while operations are performed, the first in front. -/
def deliveries (l : EventLoop ε) (id : TimerId) : List (Operation ε) → List Delivery
  | [] => []
  | o :: rest => l.delivered id o ++ (l.perform o).deliveries id rest

/-! ## The timers of a name -/

/-- The timers of a name that was given out go their own way, and no other gets it. -/
theorem filter_timers_perform (given : id < l.nextId) (o : Operation ε) :
    ((l.perform o).timers.filter fun t => t.id = id) =
      (l.timers.filter fun t => t.id = id).filterMap fun t => t.next l.now o := by
  have new : (o.timer? l.now l.nextId).toList.filter (fun t => t.id = id) = [] := by
    rw [List.filter_eq_nil_iff]
    intro t member
    have named := Operation.id_of_timer? (Option.mem_toList.mp member)
    simp [named, Nat.ne_of_gt given]
  rw [timers_perform, List.filter_append, new, List.append_nil]
  induction l.timers with
  | nil => rfl
  | cons t rest ih =>
      cases left : t.next l.now o with
      | none => by_cases same : t.id = id <;> simp [left, same, ih]
      | some u => by_cases same : t.id = id <;> simp [left, same, ih, id_of_next left]

/-- The only timer of a name is delivered once if it is due. -/
theorem filter_due (alone : (l.timers.filter fun t => t.id = id) = [t]) :
    (l.due.filter fun t => t.id = id) = if t.deadline ≤ l.now then [t] else [] := by
  have swap : (l.timers.filter (·.isDue l.now)).filter (fun t => t.id = id) =
      (l.timers.filter fun t => t.id = id).filter (·.isDue l.now) := by
    simp only [List.filter_filter, Bool.and_comm]
  rw [due, filter_mergeSort Timer.before_trans Timer.before_total, swap, alone]
  by_cases due : t.deadline ≤ l.now <;> simp [Timer.isDue, due]

/-! ## Keeping the pace -/

/-- The only timer of its name was armed at `start` and goes on firing. Its next delivery is no earlier than
    the deliveries so far allow, and no more than an interval away. -/
structure Paced (l : EventLoop ε) (start interval : Nat) (given : List Delivery) (t : Timer ε) : Prop where
  named : t.id < l.nextId
  alone : (l.timers.filter fun u => u.id = t.id) = [t]
  periodic : t.interval = some interval
  ahead : start + (given.length + 1) * interval ≤ t.deadline
  near : t.deadline ≤ l.now + interval
  /-- The timer is on its grid while no delivery has been late by an interval. -/
  punctual : (∀ d ∈ given, d.time < d.deadline + interval) →
    t.deadline = start + (given.length + 1) * interval
  paced : ∀ k d, given[k]? = some d → start + (k + 1) * interval ≤ d.time

namespace Paced

variable {start interval : Nat} {given : List Delivery}

theorem armed (ordered : l.Ordered) (interval : Nat) (event : ε) :
    (l.startTimer interval event).2.Paced l.now interval []
      ⟨l.nextId, l.now + interval, some interval, event⟩ := by
  have before : (l.timers.filter fun u => u.id = l.nextId) = [] := by
    rw [List.filter_eq_nil_iff]
    intro u member
    simp [Nat.ne_of_lt (ordered.below u member)]
  refine ⟨Nat.lt_succ_self _, ?_, rfl, by simp, Nat.le_refl _, by simp, by simp⟩
  rw [timers_startTimer, List.filter_append, before]
  simp

/-- The timer is not delivered and stays as it is. -/
theorem kept (paced : l.Paced start interval given t) (stays : t.next l.now o = some t)
    (unfired : l.delivered t.id o = []) :
    (l.perform o).Paced start interval (given ++ l.delivered t.id o) t := by
  obtain ⟨named, alone, periodic, ahead, near, punctual, before⟩ := paced
  rw [unfired, List.append_nil]
  refine ⟨?_, ?_, periodic, ahead, ?_, punctual, before⟩
  · rw [nextId_perform]
    exact Nat.lt_add_right _ named
  · rw [filter_timers_perform named, alone]
    simp [stays]
  · rw [now_perform]
    omega

/-- The timer is delivered, once, and waits for its next deadline. -/
theorem fired (paced : l.Paced start interval given t) (positive : 0 < interval) (due : t.deadline ≤ l.now) :
    ∃ u, u.id = t.id ∧ u.event = t.event ∧ l.now < u.deadline ∧
      (l.perform .drain).Paced start interval (given ++ l.delivered t.id .drain) u := by
  obtain ⟨named, alone, periodic, ahead, near, punctual, before⟩ := paced
  obtain ⟨u, rearmed, tag, later, soon, apart, grid⟩ := t.exists_rearm periodic positive due
  obtain ⟨same, tag⟩ := Prod.mk.inj tag
  obtain ⟨kept, event⟩ := Prod.mk.inj tag
  have once : l.delivered t.id .drain = [⟨t.deadline, l.now⟩] := by
    simp [delivered, filter_due alone, due]
  have next : (given.length + 1 + 1) * interval = (given.length + 1) * interval + interval :=
    Nat.succ_mul _ _
  rw [once]
  refine ⟨u, same, event, later, ?_, ?_, kept.trans periodic, ?_, soon, ?_, ?_⟩
  · rw [same]
    exact named
  · rw [same, filter_timers_perform named, alone]
    simp [Timer.next, afterDrain, Timer.isDue, due, rearmed]
  · simp only [List.length_append, List.length_singleton, next]
    omega
  · intro punctually
    have earlier := punctual fun d member => punctually d (List.mem_append_left _ member)
    have onward := grid (punctually _ (List.mem_append_right _ (List.mem_singleton_self _)))
    simp only [List.length_append, List.length_singleton, next]
    omega
  · intro k d found
    rw [List.getElem?_append] at found
    split at found
    · exact before k d found
    · obtain ⟨last, rfl⟩ := List.getElem?_eq_some_iff.mp found
      have here : k = given.length := by simp at last; omega
      subst here
      simpa using Nat.le_trans ahead due

/-- Whatever is done to the loop, the timer keeps its pace unless it is taken off the loop. -/
theorem perform (paced : l.Paced start interval given t) (positive : 0 < interval) (uncleared : o ≠ .clear)
    (spared : o ≠ .kill t.id) :
    ∃ u, u.id = t.id ∧ u.event = t.event ∧ (o = .drain → l.now < u.deadline) ∧
      (l.perform o).Paced start interval (given ++ l.delivered t.id o) u := by
  cases o with
  | clear => exact absurd rfl uncleared
  | drain =>
      by_cases due : t.deadline ≤ l.now
      · obtain ⟨u, same, event, later, next⟩ := paced.fired positive due
        exact ⟨u, same, event, fun _ => later, next⟩
      · refine ⟨t, rfl, rfl, fun _ => Nat.lt_of_not_le due, paced.kept ?_ ?_⟩
        · simp [Timer.next, afterDrain, Timer.isDue, due]
        · simp [delivered, filter_due paced.alone, due]
  | kill id =>
      have other : t.id ≠ id := fun same => spared (by rw [same])
      exact ⟨t, rfl, rfl, by simp, paced.kept (by simp [Timer.next, other]) rfl⟩
  | post | singleShot | startTimer | advance => exact ⟨t, rfl, rfl, by simp, paced.kept rfl rfl⟩

theorem performAll (paced : l.Paced start interval given t) (positive : 0 < interval)
    (spared : ∀ o ∈ os, o ≠ .clear ∧ o ≠ .kill t.id) :
    ∃ u, u.id = t.id ∧ u.event = t.event ∧
      (l.performAll os).Paced start interval (given ++ l.deliveries t.id os) u := by
  induction os generalizing l given t with
  | nil =>
      rw [deliveries, List.append_nil]
      exact ⟨t, rfl, rfl, paced⟩
  | cons o rest ih =>
      obtain ⟨here, later⟩ := List.forall_mem_cons.mp spared
      obtain ⟨u, same, event, _, next⟩ := paced.perform positive here.1 here.2
      rw [← same] at later
      obtain ⟨v, same', event', last⟩ := ih next later
      refine ⟨v, same'.trans same, event'.trans event, ?_⟩
      rw [deliveries, ← List.append_assoc]
      rw [same] at last
      exact last

end Paced

/-- A timer that was armed to fire at an interval, on a loop with any history, and that is not taken off it
    since. A drain delivers it once if it is due and not at all otherwise; after the drain its deadline is
    later than now by at most an interval. No delivery comes before its turn on the grid of deadlines, and
    while none is late by an interval the deadline is the next one of the grid. -/
theorem periodic_timer_keeps_pace (xs ys : List (Operation ε)) {interval : Nat} (positive : 0 < interval)
    (event : ε) (spared : ∀ o ∈ ys, o ≠ .clear ∧ o ≠ .kill (armings xs + 1)) :
    let id := armings xs + 1
    let first := empty.performAll (xs ++ [.startTimer interval event])
    let l := first.performAll ys
    let given := first.deliveries id ys
    ∃ t, (l.timers.filter fun u => u.id = id) = [t] ∧ t.interval = some interval ∧ t.event = event ∧
      (l.due.filter fun u => u.id = id) = (if t.deadline ≤ l.now then [t] else []) ∧
      (∀ u ∈ l.drain.2.timers, u.id = id → l.now < u.deadline ∧ u.deadline ≤ l.now + interval) ∧
      (∀ k d, given[k]? = some d → clock xs + (k + 1) * interval ≤ d.time) ∧
      ((∀ d ∈ given, d.time < d.deadline + interval) →
        t.deadline = clock xs + (given.length + 1) * interval) := by
  intro id first l given
  have before : (empty.performAll xs : EventLoop ε).now = clock xs := by
    rw [now_performAll]
    exact Nat.zero_add _
  have named : (empty.performAll xs : EventLoop ε).nextId = id := by
    rw [nextId_performAll]
    exact Nat.add_comm _ _
  have start : first = ((empty.performAll xs).startTimer interval event).2 := by
    simp [first, EventLoop.performAll, EventLoop.perform]
  have armed : first.Paced (clock xs) interval [] ⟨id, clock xs + interval, some interval, event⟩ := by
    rw [start, ← before, ← named]
    exact .armed (ordered_performAll xs) interval event
  obtain ⟨t, same, carries, paced⟩ := armed.performAll positive spared
  change t.id = id at same
  refine ⟨t, same ▸ paced.alone, paced.periodic, carries, same ▸ filter_due paced.alone, ?_, paced.paced,
    paced.punctual⟩
  -- The timer after the drain is the only one of the name.
  obtain ⟨u, kept, _, later, next⟩ := paced.perform positive (o := .drain) (by simp) (by simp)
  intro v member equal
  have only : v ∈ (l.perform .drain).timers.filter fun w => w.id = u.id := by
    simp [kept, same, equal]
    exact member
  rw [next.alone, List.mem_singleton] at only
  rw [only]
  exact ⟨later rfl, next.near⟩

/-- The host stalls before the third drain. -/
theorem periodic_timer_keeps_pace_stalled :
    let ys : List (Operation Nat) := [.advance 10, .drain, .advance 10, .drain, .advance 55, .drain]
    let first : EventLoop Nat := empty.performAll [.startTimer 10 7]
    (∀ o ∈ ys, o ≠ .clear ∧ o ≠ .kill 1) ∧ first.deliveries 1 ys = [⟨10, 10⟩, ⟨20, 20⟩, ⟨30, 75⟩] ∧
      (first.performAll ys).timers = [⟨1, 85, some 10, 7⟩] ∧
      ∀ u ∈ (first.performAll ys).drain.2.timers, u.id = 1 → 75 < u.deadline ∧ u.deadline ≤ 75 + 10 := by
  intro ys first
  have spared : ∀ o ∈ ys, o ≠ .clear ∧ o ≠ .kill 1 := by decide
  obtain ⟨_, _, _, _, _, ahead, _⟩ := periodic_timer_keeps_pace [] ys (by decide : 0 < 10) 7 spared
  refine ⟨spared, ?_, rfl, ahead⟩
  simp [ys, first, deliveries, delivered, due, EventLoop.performAll, EventLoop.perform, empty, startTimer, addTimer,
    advance, EventLoop.drain, Timer.isDue, Timer.rearm]

end EventLoop

end PocketBasic
