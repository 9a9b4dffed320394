import PocketBasic.Proofs.EventLoop.Holders

/-! # A loop later on

A loop on which more has happened before gives out higher names for timers and has a later clock. That is all
there is to it: what is armed and posted on both from then on is handed over by both in the same order. The
timers that release keys are left out of the comparison, since one loop may have some left over.
-/

namespace PocketBasic

/-- How much later one run is than another: by the clock, and by the names of timers, sleeps and bodies
    that were given out before. -/
structure Delay where
  time : Nat
  ids : Nat
  sleeps : Nat
  bodies : Nat

/-! ## Sorting what is left -/

section Sorting

variable {α : Type} {le : α → α → Bool}

/-- An element is sorted in front of all that it is not above. -/
theorem mergeSort_cons_filter (trans : ∀ a b c, le a b → le b c → le a c)
    (total : ∀ a b, le a b || le b a) (a : α) (l : List α) :
    (a :: l).mergeSort le =
        (l.mergeSort le).filter (fun b => !le a b) ++ a :: (l.mergeSort le).filter (le a) ∧
      l.mergeSort le = (l.mergeSort le).filter (fun b => !le a b) ++ (l.mergeSort le).filter (le a) := by
  obtain ⟨front, back, sorted, rest, below⟩ := List.mergeSort_cons trans total a l
  have above : ∀ b ∈ back, le a b = true := by
    have order := List.pairwise_mergeSort trans total (a :: l)
    rw [sorted, List.pairwise_append, List.pairwise_cons] at order
    exact order.2.1.1
  have first : (front ++ back).filter (fun b => !le a b) = front := by
    rw [List.filter_append, List.filter_eq_self.mpr below, List.filter_eq_nil_iff.mpr, List.append_nil]
    intro b member
    simp [above b member]
  have second : (front ++ back).filter (le a) = back := by
    rw [List.filter_append, List.filter_eq_self.mpr above, List.filter_eq_nil_iff.mpr, List.nil_append]
    intro b member
    simpa using below b member
  rw [sorted, rest, first, second]
  exact ⟨rfl, rfl⟩

/-- Sorting keeps the order of what is left. -/
theorem filter_mergeSort (trans : ∀ a b c, le a b → le b c → le a c)
    (total : ∀ a b, le a b || le b a) (p : α → Bool) (l : List α) :
    (l.mergeSort le).filter p = (l.filter p).mergeSort le := by
  have swap (q : α → Bool) (l : List α) : (l.filter q).filter p = (l.filter p).filter q := by
    simp only [List.filter_filter, Bool.and_comm]
  induction l with
  | nil => simp
  | cons a l ih =>
      rw [(mergeSort_cons_filter trans total a l).1, List.filter_append, swap, List.filter_cons,
        swap, ih, List.filter_cons]
      split
      · exact (mergeSort_cons_filter trans total a (l.filter p)).1.symm
      · exact (mergeSort_cons_filter trans total a (l.filter p)).2.symm

end Sorting

theorem Timer.before_trans {ε : Type} (a b c : Timer ε) (first : a.before b = true)
    (second : b.before c = true) : a.before c = true := by
  simp only [before, Bool.or_eq_true, Bool.and_eq_true, decide_eq_true_eq] at *
  rcases first with first | ⟨first, named⟩ <;> rcases second with second | ⟨second, after⟩
  · exact .inl (Nat.lt_trans first second)
  · exact .inl (Nat.lt_of_lt_of_le first (Nat.le_of_eq second))
  · exact .inl (Nat.lt_of_le_of_lt (Nat.le_of_eq first) second)
  · exact .inr ⟨first.trans second, Nat.le_trans named after⟩

theorem Timer.before_total {ε : Type} (a b : Timer ε) : (a.before b || b.before a) = true := by
  simp only [before, Bool.or_eq_true, Bool.and_eq_true, decide_eq_true_eq]
  rcases Nat.lt_trichotomy a.deadline b.deadline with sooner | same | later
  · exact .inl (.inl sooner)
  · exact (Nat.le_total a.id b.id).imp (fun named => .inr ⟨same, named⟩) fun named => .inr ⟨same.symm, named⟩
  · exact .inr (.inl later)

/-! ## Events and timers -/

/-- The event releases a key. -/
def SimEvent.isRelease : SimEvent → Bool
  | .keyRelease _ => true
  | _ => false

/-- The event of a run that is later. -/
def SimEvent.later (d : Delay) : SimEvent → SimEvent
  | .sleepElapsed generation => .sleepElapsed (generation + d.sleeps)
  | other => other

@[simp] theorem SimEvent.isRelease_later (d : Delay) (e : SimEvent) :
    (e.later d).isRelease = e.isRelease := by
  cases e <;> rfl

/-- The timer on a loop that is later. -/
def Timer.later (d : Delay) (t : Timer SimEvent) : Timer SimEvent :=
  ⟨t.id + d.ids, t.deadline + d.time, t.interval, t.event.later d⟩

theorem Timer.isDue_later (d : Delay) (now : Nat) (t : Timer SimEvent) :
    (t.later d).isDue (now + d.time) = t.isDue now := by
  simp [isDue, later]

theorem Timer.before_later (d : Delay) (a b : Timer SimEvent) :
    (a.later d).before (b.later d) = a.before b := by
  simp [before, later]

theorem Timer.rearm_later (d : Delay) (now : Nat) (t : Timer SimEvent) :
    (t.later d).rearm (now + d.time) = (t.rearm now).map (.later d) := by
  unfold rearm
  obtain ⟨id, deadline, interval, event⟩ := t
  cases interval with
  | none => rfl
  | some interval =>
      have missed : deadline + d.time + interval ≤ now + d.time ↔ deadline + interval ≤ now := by omega
      simp only [later, Option.map_some, missed, Option.some.injEq, Timer.mk.injEq, true_and, and_true]
      split <;> omega

namespace EventLoop

/-- The second loop is the first, so much later, but for the releases of keys. -/
structure Later (d : Delay) (l later : EventLoop SimEvent) : Prop where
  now : later.now = l.now + d.time
  nextId : later.nextId = l.nextId + d.ids
  posted : later.posted = l.posted.map (.later d)
  timers : later.timers.filter (fun t => !t.event.isRelease) =
    (l.timers.filter fun t => !t.event.isRelease).map (.later d)

namespace Later

variable {d : Delay} {l later : EventLoop SimEvent} (behind : l.Later d later)

include behind

theorem advance (ms : Nat) : (l.advance ms).Later d (later.advance ms) := by
  refine ⟨?_, behind.nextId, behind.posted, behind.timers⟩
  simp only [EventLoop.advance, behind.now]
  omega

theorem post (event : SimEvent) : (l.post event).Later d (later.post (event.later d)) := by
  refine ⟨behind.now, behind.nextId, ?_, behind.timers⟩
  simp [behind.posted]

theorem addTimer (delay : Nat) (interval : Option Nat) (event : SimEvent) :
    (later.addTimer delay interval (event.later d)).1 = (l.addTimer delay interval event).1 + d.ids ∧
      (l.addTimer delay interval event).2.Later d (later.addTimer delay interval (event.later d)).2 := by
  refine ⟨behind.nextId, behind.now, ?_, behind.posted, ?_⟩
  · simp only [EventLoop.addTimer, behind.nextId]
    exact Nat.add_right_comm _ _ _
  · simp only [EventLoop.addTimer, List.filter_append, List.map_append, behind.timers]
    refine congrArg _ ?_
    cases release : event.isRelease with
    | true => simp [release]
    | false =>
        simp [release, Timer.later, behind.nextId, behind.now, Nat.add_right_comm]

theorem kill (id : TimerId) : (l.kill id).Later d (later.kill (id + d.ids)) := by
  refine ⟨behind.now, behind.nextId, behind.posted, ?_⟩
  have swap (id : TimerId) (timers : List (Timer SimEvent)) :
      (timers.filter fun t => t.id ≠ id).filter (fun t => !t.event.isRelease) =
        (timers.filter fun t => !t.event.isRelease).filter fun t => t.id ≠ id := by
    simp only [List.filter_filter, Bool.and_comm]
  simp only [EventLoop.kill]
  rw [swap, swap, behind.timers, List.filter_map]
  refine congrArg _ (List.filter_congr fun t _ => ?_)
  simp [Timer.later]

/-! ### Draining -/

theorem afterDrain (t : Timer SimEvent) :
    EventLoop.afterDrain later.now (t.later d) = (EventLoop.afterDrain l.now t).map (.later d) := by
  unfold EventLoop.afterDrain
  rw [behind.now, Timer.isDue_later, Timer.rearm_later, apply_ite (Option.map (Timer.later d))]
  rfl

theorem drain : l.drain.2.Later d later.drain.2 := by
  refine ⟨behind.now, behind.nextId, rfl, ?_⟩
  change (later.timers.filterMap (EventLoop.afterDrain later.now)).filter (fun t => !t.event.isRelease) =
    ((l.timers.filterMap (EventLoop.afterDrain l.now)).filter fun t => !t.event.isRelease).map (.later d)
  rw [filter_afterDrain later.now later.timers fun e => !e.isRelease,
    filter_afterDrain l.now l.timers fun e => !e.isRelease, behind.timers, List.filterMap_map,
    List.map_filterMap]
  exact congrArg (List.filterMap · _) (funext behind.afterDrain)

/-- Both hand over the same events in the same order. -/
theorem drained :
    later.drain.1.filter (fun e => !e.isRelease) =
      (l.drain.1.filter fun e => !e.isRelease).map (.later d) := by
  have swap (now : Nat) (timers : List (Timer SimEvent)) :
      (timers.filter (·.isDue now)).filter (fun t => !t.event.isRelease) =
        (timers.filter fun t => !t.event.isRelease).filter (·.isDue now) := by
    simp only [List.filter_filter, Bool.and_comm]
  have due : later.due.filter (fun t => !t.event.isRelease) =
      (l.due.filter fun t => !t.event.isRelease).map (.later d) := by
    simp only [EventLoop.due]
    rw [filter_mergeSort Timer.before_trans Timer.before_total,
      filter_mergeSort Timer.before_trans Timer.before_total, swap, swap, behind.timers,
      List.filter_map, List.map_mergeSort fun a _ b _ => (Timer.before_later d a b).symm]
    refine congrArg (fun timers => (timers.map (Timer.later d)).mergeSort Timer.before)
      (List.filter_congr fun t _ => ?_)
    rw [Function.comp_apply, behind.now, Timer.isDue_later]
  simp only [EventLoop.drain, List.filter_append, List.map_append, behind.posted, List.filter_map]
  refine congr (congrArg _ ?_) (congrArg _ (List.filter_congr fun e _ => ?_))
  · change (later.due.filter fun t => !t.event.isRelease).map (·.event) =
      ((l.due.filter fun t => !t.event.isRelease).map (·.event)).map (.later d)
    rw [due, List.map_map, List.map_map]
    rfl
  · simp

end Later

end EventLoop

end PocketBasic
