import Mathlib.Order.Bounds.Basic
import PocketBasic.Proofs.EventLoop.History

/-! # What a drain delivers

A drain hands over the events of the timers that are due, by deadline and then by creation, and then what was
posted, and it does so once. What a timer and a post come to is told by the history after them. A host that
has nothing to do sleeps until a drain has something for it.
-/

namespace PocketBasic

namespace EventLoop

variable {ε : Type} {l : EventLoop ε} {os xs ys : List (Operation ε)} {o : Operation ε} {t u : Timer ε}
  {wait : Nat}

/-- Timers that are due are delivered in the order of their deadlines, those of one deadline in the order in
    which they were armed, and none of them twice. -/
theorem Ordered.pairwise_due (ordered : l.Ordered) :
    l.due.Pairwise fun a b => a.deadline < b.deadline ∨ a.deadline = b.deadline ∧ a.id < b.id := by
  have sorted : l.due.Pairwise fun a b => a.before b = true :=
    List.pairwise_mergeSort Timer.before_trans Timer.before_total _
  have named : l.due.Pairwise fun a b => a.id ≠ b.id := by
    have apart := (ordered.ascending.filter (·.isDue l.now)).imp fun less => Nat.ne_of_lt less
    exact (List.mergeSort_perm _ _).symm.pairwise apart fun ne => ne.symm
  refine (sorted.and named).imp fun {a b} both => ?_
  obtain ⟨before, ne⟩ := both
  simp only [Timer.before, Bool.or_eq_true, Bool.and_eq_true, decide_eq_true_eq] at before
  rcases before with sooner | ⟨together, named⟩
  · exact .inl sooner
  · exact .inr ⟨together, Nat.lt_of_le_of_ne named ne⟩

/-- A timer under the name of one that was armed is what that one has become. -/
theorem after_of_armed {born : Timer ε} (split : os = xs ++ o :: ys)
    (armed : o.timer? (clock xs) (armings xs + 1) = some born) (left : Armed os t) (same : t.id = born.id) :
    born.after (clock xs) ys = some t := by
  obtain ⟨xs', o', ys', born', split', armed', left'⟩ := left
  have named : armings xs + 1 = armings xs' + 1 := by
    rw [← Operation.id_of_timer? armed, ← same, id_of_after left', Operation.id_of_timer? armed']
  obtain ⟨rfl, rfl, rfl⟩ := eq_of_armings (split.symm.trans split') (Operation.arms_iff.mpr ⟨born, armed⟩)
    (Operation.arms_iff.mpr ⟨born', armed'⟩) (Nat.succ.inj named)
  obtain rfl := Option.some.inj (armed.symm.trans armed')
  exact left'

theorem armed_iff_after {born : Timer ε} (split : os = xs ++ o :: ys)
    (armed : o.timer? (clock xs) (armings xs + 1) = some born) :
    Armed os t ∧ t.id = born.id ↔ born.after (clock xs) ys = some t :=
  ⟨fun ⟨left, same⟩ => after_of_armed split armed left same,
    fun left => ⟨⟨xs, o, ys, born, split, armed, left⟩, id_of_after left⟩⟩

/-- A post is outstanding at its place until the next drain or clearing, and from then on as if it had never
    been. -/
theorem outstanding_post (xs ys : List (Operation ε)) (event : ε) :
    outstanding (xs ++ .post event :: ys) =
      if ys.any Operation.empties then outstanding (xs ++ ys)
      else outstanding xs ++ event :: ys.filterMap Operation.posted? := by
  rw [List.append_cons xs, outstanding_append, outstanding_append xs ys, outstanding_concat]
  cases any : ys.any Operation.empties <;> simp [Operation.empties, Operation.posted?]

theorem mem_due_iff : t ∈ (empty.performAll os).due ↔ Armed os t ∧ t.deadline ≤ clock os := by
  rw [mem_due, mem_timers_iff_armed, now_performAll, Timer.isDue, decide_eq_true_eq]
  simp [empty]

/-- After any history of a loop, a drain delivers the events of the timers that are armed with a deadline no
    later than now, in the order of deadline and creation and each once, and then what was posted since the
    last drain or clearing. So a post is delivered at its place by the next drain and by no other, unless it is
    cleared away first; a timer that fires once is delivered by the first drain from its deadline on and by no
    other, unless it is killed or cleared away first; and one that was killed or cleared away is not
    delivered. -/
theorem drain_delivers (os : List (Operation ε)) :
    let l := empty.performAll os
    l.drain.1 = l.due.map (·.event) ++ outstanding os ∧
      (∀ t, t ∈ l.due ↔ Armed os t ∧ t.deadline ≤ clock os) ∧
      l.due.Pairwise (fun a b => a.deadline < b.deadline ∨ a.deadline = b.deadline ∧ a.id < b.id) ∧
      (∀ xs event ys, os = xs ++ .post event :: ys →
        outstanding os =
          if ys.any Operation.empties then outstanding (xs ++ ys)
          else outstanding xs ++ event :: ys.filterMap Operation.posted?) ∧
      (∀ xs delay event ys, os = xs ++ .singleShot delay event :: ys →
        let t : Timer ε := ⟨armings xs + 1, clock xs + delay, none, event⟩
        (∀ u ∈ l.due, u.id = t.id → u = t) ∧
          (t ∈ l.due ↔
            (∀ o ∈ ys, o ≠ .clear ∧ o ≠ .kill t.id) ∧ t.deadline ≤ clock os ∧
              ∀ zs ws, ys = zs ++ .drain :: ws → clock (xs ++ zs) < t.deadline)) ∧
      ∀ xs o ys t, os = xs ++ o :: ys → o.timer? (clock xs) (armings xs + 1) = some t →
        .clear ∈ ys ∨ .kill t.id ∈ ys → ∀ u ∈ l.due, u.id ≠ t.id := by
  intro l
  refine ⟨?batch, fun t => mem_due_iff, (ordered_performAll os).pairwise_due, ?posts, ?once, ?never⟩
  case batch =>
    rw [drain, posted_performAll]
  case posts =>
    rintro xs event ys rfl
    exact outstanding_post xs ys event
  case once =>
    intro xs delay event ys split t
    have armed : (Operation.singleShot delay event).timer? (clock xs) (armings xs + 1) = some t := rfl
    have alone (u : Timer ε) := (armed_iff_after (t := u) split armed).trans (after_once_iff rfl)
    refine ⟨fun u due same => ((alone u).mp ⟨(mem_due_iff.mp due).1, same⟩).1, ?_⟩
    rw [mem_due_iff]
    have stays := alone t
    simp only [and_true, true_and] at stays
    rw [stays, and_assoc]
    simp only [clock_append, and_comm]
  case never =>
    intro xs o ys t split armed ended u due same
    have left := after_of_armed split armed (mem_due_iff.mp due).1 same
    rw [after_eq_none ended] at left
    cases left

theorem drain_delivers_mixed :
    (empty.performAll
        [.post 1, .startTimer 10 2, .singleShot 25 3, .singleShot 5 4, .kill 3, .advance 30, .post 5]).drain.1 =
        [2, 3, 1, 5] ∧
      ∀ u ∈ (empty.performAll
        [.post 1, .startTimer 10 2, .singleShot 25 3, .singleShot 5 4, .kill 3, .advance 30, .post 5]).due,
        u.id ≠ 3 :=
  ⟨by
      simp [performAll, perform, post, singleShot, startTimer, addTimer, kill, advance, drain, due, Timer.isDue, empty,
        List.mergeSort, Timer.before, List.MergeSort.Internal.splitInTwo],
    (drain_delivers _).2.2.2.2.2 [.post 1, .startTimer 10 2, .singleShot 25 3] (.singleShot 5 4)
      [.kill 3, .advance 30, .post 5] ⟨3, 5, none, 4⟩ rfl rfl (.inr (by decide))⟩

/-! ## How long to wait

How long a host sleeps was computed from the deadlines and the posted events, without draining. It is the least
wait after which a drain hands anything over, so a host that sleeps for so long neither misses an event nor wakes
to none.
-/

/-- A drain hands something over if something was posted or if a timer is due. -/
theorem drain_ne_nil_iff : l.drain.1 ≠ [] ↔ l.posted ≠ [] ∨ ∃ t ∈ l.timers, t.deadline ≤ l.now := by
  have due : l.due = [] ↔ ∀ t ∈ l.timers, ¬t.deadline ≤ l.now := by
    simp [List.eq_nil_iff_forall_not_mem, Timer.isDue]
  simp only [drain, ne_eq, List.append_eq_nil_iff, List.map_eq_nil_iff, due]
  grind

/-- The wait is over once it is as long as it was said to be. -/
theorem exists_untilNext_le_iff :
    (∃ d, l.untilNext = some d ∧ d ≤ wait) ↔
      l.posted ≠ [] ∨ ∃ t ∈ l.timers, t.deadline ≤ l.now + wait := by
  unfold untilNext
  cases l.posted with
  | cons event rest => simp
  | nil =>
      simp only [List.isEmpty_nil, if_true, ne_eq, not_true, false_or]
      constructor
      · rintro ⟨d, least, short⟩
        obtain ⟨t, member, rfl⟩ := List.mem_map.mp (List.min?_mem least)
        exact ⟨t, member, by omega⟩
      · rintro ⟨t, member, due⟩
        have inside := List.mem_map_of_mem (f := fun t => t.deadline - l.now) member
        obtain ⟨d, least⟩ : ∃ d, (l.timers.map fun t => t.deadline - l.now).min? = some d := by
          rw [← Option.ne_none_iff_exists', ne_eq, List.min?_eq_none_iff]
          exact List.ne_nil_of_mem inside
        have below := (List.min?_eq_some_iff.mp least).2 _ inside
        exact ⟨d, least, by omega⟩

/-- If the clock moves on and nothing else happens, a drain hands something over exactly from the time on that
    was said to remain. That time is the least such wait, and there is none exactly if nothing will ever be
    ready. -/
theorem untilNext_exact (l : EventLoop ε) :
    (∀ wait, (l.advance wait).drain.1 ≠ [] ↔ ∃ d, l.untilNext = some d ∧ d ≤ wait) ∧
      (∀ d, l.untilNext = some d ↔ IsLeast {wait | (l.advance wait).drain.1 ≠ []} d) ∧
      (l.untilNext = none ↔ ∀ wait, (l.advance wait).drain.1 = []) := by
  have ready (wait : Nat) : (l.advance wait).drain.1 ≠ [] ↔ ∃ d, l.untilNext = some d ∧ d ≤ wait := by
    rw [drain_ne_nil_iff, exists_untilNext_le_iff]
    rfl
  refine ⟨ready, fun d => ⟨fun next => ⟨?_, fun wait woken => ?_⟩, fun least => ?_⟩, ?_⟩
  · exact (ready d).mpr ⟨d, next, Nat.le_refl d⟩
  · obtain ⟨e, same, short⟩ := (ready wait).mp woken
    obtain rfl := Option.some.inj (next.symm.trans same)
    exact short
  · obtain ⟨e, next, short⟩ := (ready d).mp least.1
    have long : d ≤ e := least.2 ((ready e).mpr ⟨e, next, Nat.le_refl e⟩)
    rw [next, Nat.le_antisymm short long]
  · constructor
    · intro idle wait
      by_contra woken
      obtain ⟨d, next, _⟩ := (ready wait).mp woken
      rw [idle] at next
      cases next
    · intro never
      rw [Option.eq_none_iff_forall_ne_some]
      exact fun d next => (ready d).mpr ⟨d, next, Nat.le_refl d⟩ (never d)

end EventLoop

end PocketBasic
