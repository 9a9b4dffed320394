import PocketBasic.Proofs.Simulator.Timers

/-! # Timers and their holders

Whoever arms a timer keeps its name, to disarm it by. So the loop and the holders tell the same story in
two places: which timers are armed for an event, and which names its holder has kept. What an operation
does for one event it does not do for the others, since nobody disarms a name that is not his.
-/

namespace PocketBasic

namespace EventLoop

variable {ε : Type} {l first second : EventLoop ε} {p : ε → Bool} {id : TimerId} {event : ε}

/-- The timers of some events in the order of their creation, without their deadlines. -/
def timersOf (l : EventLoop ε) (p : ε → Bool) : List (TimerId × Option Nat × ε) :=
  (l.timers.filter fun t => p t.event).map fun t => (t.id, t.interval, t.event)

theorem mem_timersOf {tag : TimerId × Option Nat × ε} :
    tag ∈ l.timersOf p ↔
      ∃ t ∈ l.timers, p t.event = true ∧ (t.id, t.interval, t.event) = tag := by
  simp only [timersOf, List.mem_map, List.mem_filter, and_assoc]

theorem timersOf_addTimer (l : EventLoop ε) (p : ε → Bool) (delay : Nat) (interval : Option Nat)
    (event : ε) :
    (l.addTimer delay interval event).2.timersOf p =
      l.timersOf p ++ if p event then [(l.nextId, interval, event)] else [] := by
  cases h : p event <;> simp [timersOf, addTimer, List.filter_append, h]

/-- The name is that of a timer for the event, or of one that is gone. -/
def Names (l : EventLoop ε) (id : TimerId) (event : ε) : Prop :=
  id < l.nextId ∧ ∀ timer ∈ l.timers, timer.id = id → timer.event = event

theorem Names.grows (names : first.Names id event) (grows : Grows first second) :
    second.Names id event := by
  obtain ⟨given, own⟩ := names
  refine ⟨Nat.lt_of_lt_of_le given grows.nextId, fun timer member same => ?_⟩
  rcases grows.timers timer member with ⟨old, inside, oldId, oldEvent⟩ | new
  · rw [← oldEvent]
    exact own old inside (oldId.trans same)
  · rw [same] at new
    exact absurd given (Nat.not_lt.mpr new.1)

/-- A new timer gets a name that no other timer has. -/
theorem names_addTimer (numbered : l.Numbered) (delay : Nat) (interval : Option Nat) (event : ε) :
    (l.addTimer delay interval event).2.Names l.nextId event := by
  refine ⟨Nat.lt_succ_self _, fun timer member same => ?_⟩
  simp only [addTimer, List.mem_append, List.mem_singleton] at member
  rcases member with inside | rfl
  · exact absurd same (Nat.ne_of_lt (numbered timer inside))
  · rfl

theorem timersOf_kill_other (names : l.Names id event) (other : p event = false) :
    (l.kill id).timersOf p = l.timersOf p := by
  simp only [timersOf, kill, List.filter_filter]
  refine congrArg _ (List.filter_congr fun t member => ?_)
  by_cases same : t.id = id
  · simp [names.2 t member same, other]
  · simp [same]

theorem timersOf_kill_self {interval : Option Nat}
    (alone : l.timersOf p = [(id, interval, event)]) : (l.kill id).timersOf p = [] := by
  refine List.eq_nil_iff_forall_not_mem.mpr fun tag member => ?_
  obtain ⟨t, inside, matching, _⟩ := mem_timersOf.mp member
  obtain ⟨old, different⟩ := l.mem_timers_kill.mp inside
  have only := mem_timersOf.mpr ⟨t, old, matching, rfl⟩
  rw [alone, List.mem_singleton, Prod.mk.injEq] at only
  exact different only.1

/-- Every timer for one of the events is for one or for another. -/
theorem perm_timersOf (l : EventLoop ε) {p q r : ε → Bool} (or : ∀ e, p e = (q e || r e))
    (apart : ∀ e, q e = true → r e = false) :
    (l.timersOf p).Perm (l.timersOf q ++ l.timersOf r) := by
  simp only [timersOf, ← List.map_append]
  refine List.Perm.map _ ?_
  induction l.timers with
  | nil => exact .refl _
  | cons t rest ih =>
      cases first : q t.event with
      | true => simpa [or, first, apart _ first] using ih.cons t
      | false =>
          cases second : r t.event with
          | true => simpa [or, first, second] using (ih.cons t).trans List.perm_middle.symm
          | false => simpa [or, first, second] using ih

/-! ## Draining -/

/-- What becomes of a timer in a drain. -/
def afterDrain (now : Nat) (t : Timer ε) : Option (Timer ε) :=
  if t.isDue now then t.rearm now else some t

theorem tag_of_afterDrain {now : Nat} {t u : Timer ε} (kept : afterDrain now t = some u) :
    (u.id, u.interval, u.event) = (t.id, t.interval, t.event) := by
  unfold afterDrain at kept
  split at kept
  · simp only [Timer.rearm, Option.map_eq_some_iff] at kept
    obtain ⟨interval, _, rfl⟩ := kept
    rfl
  · cases kept
    rfl

theorem filter_afterDrain (now : Nat) (timers : List (Timer ε)) (p : ε → Bool) :
    (timers.filterMap (afterDrain now)).filter (fun t => p t.event) =
      (timers.filter fun t => p t.event).filterMap (afterDrain now) := by
  induction timers with
  | nil => rfl
  | cons t rest ih =>
      cases kept : afterDrain now t with
      | none => cases h : p t.event <;> simp [kept, h, ih]
      | some u =>
          have same : u.event = t.event := by
            have tag := tag_of_afterDrain kept
            simp only [Prod.mk.injEq] at tag
            exact tag.2.2
          cases h : p t.event <;> simp [kept, h, ih, same]

theorem timersOf_drain (l : EventLoop ε) (p : ε → Bool) :
    l.drain.2.timersOf p =
      ((l.timers.filter fun t => p t.event).filterMap (afterDrain l.now)).map
        fun t => (t.id, t.interval, t.event) := by
  rw [← filter_afterDrain]
  rfl

/-- A drain takes no timer off the loop that goes on firing. -/
theorem timersOf_drain_periodic (periodic : ∀ tag ∈ l.timersOf p, tag.2.1.isSome = true) :
    l.drain.2.timersOf p = l.timersOf p := by
  rw [timersOf_drain, timersOf]
  simp only [timersOf, List.forall_mem_map] at periodic
  generalize l.timers.filter (fun t => p t.event) = timers at periodic ⊢
  induction timers with
  | nil => rfl
  | cons t rest ih =>
      rw [List.forall_mem_cons] at periodic
      obtain ⟨interval, some_interval⟩ := Option.isSome_iff_exists.mp periodic.1
      obtain ⟨u, kept⟩ : ∃ u, afterDrain l.now t = some u := by
        unfold afterDrain Timer.rearm
        rw [some_interval]
        split
        · exact ⟨_, rfl⟩
        · exact ⟨_, rfl⟩
      simp [kept, ih periodic.2, tag_of_afterDrain kept]

/-- A drain adds no timer. -/
theorem mem_timersOf_of_drain {tag : TimerId × Option Nat × ε} (member : tag ∈ l.drain.2.timersOf p) :
    tag ∈ l.timersOf p := by
  rw [timersOf_drain, List.mem_map] at member
  obtain ⟨u, inside, rfl⟩ := member
  obtain ⟨t, old, kept⟩ := List.mem_filterMap.mp inside
  exact List.mem_map.mpr ⟨t, old, (tag_of_afterDrain kept).symm⟩

/-- The only timer for some events, if it fires once, is left alone or handed over by a drain. -/
theorem timersOf_drain_once (alone : l.timersOf p = [(id, none, event)])
    (posted : event ∉ l.posted) :
    (l.drain.2.timersOf p = [(id, none, event)] ∧ event ∉ l.drain.1) ∨
      (l.drain.2.timersOf p = [] ∧ event ∈ l.drain.1) := by
  obtain ⟨t, single, tag⟩ := List.map_eq_singleton_iff.mp alone
  have member : t ∈ l.timers ∧ p t.event = true :=
    List.mem_filter.mp (by rw [single]; exact List.mem_singleton_self t)
  simp only [Prod.mk.injEq] at tag
  obtain ⟨rfl, once, rfl⟩ := tag
  rw [timersOf_drain, single, mem_drain]
  cases due : t.isDue l.now with
  | true =>
      refine .inr ⟨?_, .inl ⟨t, member.1, due, rfl⟩⟩
      simp [afterDrain, due, Timer.rearm, once]
  | false =>
      refine .inl ⟨by simp [afterDrain, due, once], ?_⟩
      rintro (⟨u, inside, ready, same⟩ | queued)
      · have other : u ∈ l.timers.filter fun t => p t.event :=
          List.mem_filter.mpr ⟨inside, by rw [same]; exact member.2⟩
        rw [single, List.mem_singleton] at other
        rw [other, due] at ready
        cases ready
      · exact posted queued

end EventLoop

/-! ## Tickers -/

namespace Ticker

variable {t : Ticker} {event : SimEvent} {loop : EventLoop SimEvent} {p : SimEvent → Bool}

/-- The timer that the ticker has kept the name of. -/
def timers (t : Ticker) (event : SimEvent) : List (TimerId × Option Nat × SimEvent) :=
  t.timer.toList.map fun id => (id, some t.interval, event)

theorem timers_of_inactive (idle : t.isActive = false) : t.timers event = [] := by
  simp only [isActive, Option.isSome_eq_false_iff, Option.isNone_iff_eq_none] at idle
  simp [timers, idle]

/-- The ticker's timer is armed, and no other is for the event. -/
def Holds (t : Ticker) (event : SimEvent) (loop : EventLoop SimEvent) : Prop :=
  loop.timersOf (fun e => decide (e = event)) = t.timers event

theorem timersOf_start (t : Ticker) (loop : EventLoop SimEvent) (other : p event = false) :
    (t.start event loop).2.timersOf p = loop.timersOf p := by
  unfold start
  split
  · rfl
  · exact (loop.timersOf_addTimer p _ _ _).trans (by simp [other])

theorem timersOf_stop (owns : t.Owns event loop) (other : p event = false) :
    (t.stop loop).2.timersOf p = loop.timersOf p := by
  unfold stop
  split
  · rename_i id armed
    exact EventLoop.timersOf_kill_other (owns id armed) other
  · rfl

theorem Holds.start (holds : t.Holds event loop) :
    (t.start event loop).1.Holds event (t.start event loop).2 := by
  unfold Ticker.start
  split
  · exact holds
  · rename_i idle
    rw [Holds, timers, idle] at holds
    rw [Holds, EventLoop.startTimer, EventLoop.timersOf_addTimer, holds]
    simp [timers, EventLoop.addTimer]

theorem Holds.stop (holds : t.Holds event loop) :
    (t.stop loop).1.Holds event (t.stop loop).2 := by
  unfold Ticker.stop
  split
  · rename_i id armed
    rw [Holds, timers, armed] at holds
    exact EventLoop.timersOf_kill_self holds
  · exact holds

theorem Holds.drain (holds : t.Holds event loop) : t.Holds event loop.drain.2 := by
  refine (EventLoop.timersOf_drain_periodic fun tag member => ?_).trans holds
  rw [holds, timers, List.mem_map] at member
  obtain ⟨id, _, rfl⟩ := member
  rfl

end Ticker

end PocketBasic
