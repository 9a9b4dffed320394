import PocketBasic.EventLoop

/-! # Operations of the event loop

What each operation does to the posted events and to the timers, and where an event or a timer is
found after a drain. Nothing here says when a timer is due: a drain either hands a timer's event over
or leaves that very timer armed.
-/

namespace PocketBasic.EventLoop

variable {ε : Type} (l : EventLoop ε)

@[simp] theorem posted_post (event : ε) : (l.post event).posted = l.posted ++ [event] := rfl

@[simp] theorem timers_singleShot (delay : Nat) (event : ε) :
    (l.singleShot delay event).2.timers =
      l.timers ++ [⟨l.nextId, l.now + delay, none, event⟩] := rfl

@[simp] theorem timers_startTimer (interval : Nat) (event : ε) :
    (l.startTimer interval event).2.timers =
      l.timers ++ [⟨l.nextId, l.now + interval, some interval, event⟩] := rfl

@[simp] theorem mem_timers_kill {id : TimerId} {t : Timer ε} :
    t ∈ (l.kill id).timers ↔ t ∈ l.timers ∧ t.id ≠ id := by
  simp [kill]

@[simp] theorem posted_drain : l.drain.2.posted = [] := rfl

@[simp] theorem mem_due {t : Timer ε} : t ∈ l.due ↔ t ∈ l.timers ∧ t.isDue l.now = true := by
  simp [due, List.mem_mergeSort]

/-- An event is handed over because it was posted or because a timer that carries it is due. -/
theorem mem_drain {event : ε} :
    event ∈ l.drain.1 ↔
      (∃ t ∈ l.timers, t.isDue l.now = true ∧ t.event = event) ∨ event ∈ l.posted := by
  simp only [drain, List.mem_append, List.mem_map, mem_due, and_assoc]

/-- A timer that a drain leaves armed was armed before, with the same name and event. -/
theorem exists_of_mem_timers_drain {t : Timer ε} (member : t ∈ l.drain.2.timers) :
    ∃ old ∈ l.timers, old.id = t.id ∧ old.event = t.event := by
  simp only [drain, List.mem_filterMap] at member
  obtain ⟨old, inside, kept⟩ := member
  refine ⟨old, inside, ?_⟩
  split at kept
  · simp only [Timer.rearm, Option.map_eq_some_iff] at kept
    obtain ⟨interval, _, rfl⟩ := kept
    exact ⟨rfl, rfl⟩
  · obtain rfl := Option.some.inj kept
    exact ⟨rfl, rfl⟩

/-- A drain loses no timer: either the timer stays as it is, or its event is handed over. -/
theorem mem_timers_drain_or {t : Timer ε} (member : t ∈ l.timers) :
    t ∈ l.drain.2.timers ∨ t.event ∈ l.drain.1 := by
  by_cases due : t.isDue l.now = true
  · exact .inr (l.mem_drain.mpr (.inl ⟨t, member, due, rfl⟩))
  · exact .inl (List.mem_filterMap.mpr ⟨t, member, by simp only [due]; rfl⟩)

/-- An event that no timer carries is handed over as often as it was posted. -/
theorem count_drain [BEq ε] [LawfulBEq ε] {event : ε} (untimed : ∀ t ∈ l.timers, t.event ≠ event) :
    l.drain.1.count event = l.posted.count event := by
  have none_due : (l.due.map (·.event)).count event = 0 := by
    refine List.count_eq_zero.mpr fun member => ?_
    obtain ⟨t, due, same⟩ := List.mem_map.mp member
    exact untimed t (l.mem_due.mp due).1 same
  simp only [drain, List.count_append, none_due, Nat.zero_add]

end PocketBasic.EventLoop
