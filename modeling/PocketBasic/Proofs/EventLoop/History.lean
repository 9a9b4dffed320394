import Mathlib.Data.List.DropRight
import PocketBasic.Proofs.EventLoop.Later

/-! # Histories of a loop

What is on a loop is told by the operations that led to it: the time is what the clock was moved by, the
posted events are those since the last drain or clearing, and each timer has gone its own way since it was
armed, whatever other timers there were.
-/

namespace PocketBasic

namespace EventLoop

variable {ε : Type}

/-- An operation on a loop, with what it is given. -/
inductive Operation (ε : Type) where
  | post (event : ε)
  | singleShot (delay : Nat) (event : ε)
  | startTimer (interval : Nat) (event : ε)
  | kill (id : TimerId)
  | clear
  | advance (ms : Nat)
  | drain
  deriving Repr, DecidableEq

namespace Operation

/-- Nothing that was posted before stays posted. -/
def empties : Operation ε → Bool
  | .clear | .drain => true
  | _ => false

def posted? : Operation ε → Option ε
  | .post event => some event
  | _ => none

/-- By how much the clock is moved. -/
def ms : Operation ε → Nat
  | .advance ms => ms
  | _ => 0

/-- The timer that is armed at a time under the next name, if one is. -/
def timer? (now : Nat) (id : TimerId) : Operation ε → Option (Timer ε)
  | .singleShot delay event => some ⟨id, now + delay, none, event⟩
  | .startTimer interval event => some ⟨id, now + interval, some interval, event⟩
  | _ => none

/-- A timer is armed. -/
def arms : Operation ε → Bool
  | .singleShot _ _ | .startTimer _ _ => true
  | _ => false

end Operation

def perform (l : EventLoop ε) : Operation ε → EventLoop ε
  | .post event => l.post event
  | .singleShot delay event => (l.singleShot delay event).2
  | .startTimer interval event => (l.startTimer interval event).2
  | .kill id => l.kill id
  | .clear => l.clear
  | .advance ms => l.advance ms
  | .drain => l.drain.2

def performAll (l : EventLoop ε) (os : List (Operation ε)) : EventLoop ε := os.foldl perform l

/-! ## What a history tells -/

/-- The time after a history. -/
def clock (os : List (Operation ε)) : Nat := os.foldr (fun o later => o.ms + later) 0

/-- How many timers were armed, which are named in this order from one on. -/
def armings (os : List (Operation ε)) : Nat := os.countP Operation.arms

/-- What was posted since the last drain or clearing. -/
def outstanding (os : List (Operation ε)) : List ε :=
  (os.rtakeWhile fun o => !o.empties).filterMap Operation.posted?

end EventLoop

namespace Timer

variable {ε : Type}

open EventLoop (Operation)

/-- What one operation leaves of a timer. -/
def next (now : Nat) (t : Timer ε) : Operation ε → Option (Timer ε)
  | .kill id => if t.id = id then none else some t
  | .clear => none
  | .drain => EventLoop.afterDrain now t
  | _ => some t

/-- What is left of a timer after the operations that follow a time. -/
def after (now : Nat) (t : Timer ε) : List (Operation ε) → Option (Timer ε)
  | [] => some t
  | o :: rest => (t.next now o).bind fun u => u.after (now + o.ms) rest

end Timer

namespace EventLoop

variable {ε : Type} {l : EventLoop ε} {os xs ys : List (Operation ε)} {o : Operation ε} {t u : Timer ε}

/-- The timer is what one that was armed in the history has become. -/
def Armed (os : List (Operation ε)) (t : Timer ε) : Prop :=
  ∃ xs o ys born, os = xs ++ o :: ys ∧ o.timer? (clock xs) (armings xs + 1) = some born ∧
    born.after (clock xs) ys = some t

@[simp] theorem clock_nil : clock ([] : List (Operation ε)) = 0 := rfl

@[simp] theorem clock_cons (o : Operation ε) (os : List (Operation ε)) :
    clock (o :: os) = o.ms + clock os := rfl

@[simp] theorem clock_append (xs ys : List (Operation ε)) : clock (xs ++ ys) = clock xs + clock ys := by
  induction xs with
  | nil => simp
  | cons o rest ih => simp [ih, Nat.add_assoc]

@[simp] theorem armings_cons (o : Operation ε) (os : List (Operation ε)) :
    armings (o :: os) = (if o.arms then 1 else 0) + armings os := by
  simp [armings, List.countP_cons, Nat.add_comm]

@[simp] theorem armings_append (xs ys : List (Operation ε)) :
    armings (xs ++ ys) = armings xs + armings ys := by
  simp [armings]

theorem Operation.arms_iff {now : Nat} {id : TimerId} :
    o.arms = true ↔ ∃ t, o.timer? now id = some t := by
  cases o <;> simp [arms, timer?]

theorem Operation.id_of_timer? {now : Nat} {id : TimerId} (armed : o.timer? now id = some t) : t.id = id := by
  cases o <;> simp [timer?] at armed <;> simp [← armed]

theorem Operation.ms_of_timer? {now : Nat} {id : TimerId} (armed : o.timer? now id = some t) : o.ms = 0 := by
  cases o <;> simp [timer?] at armed <;> simp [ms]

/-! ## One operation -/

theorem now_perform (l : EventLoop ε) (o : Operation ε) : (l.perform o).now = l.now + o.ms := by
  cases o <;> rfl

theorem nextId_perform (l : EventLoop ε) (o : Operation ε) :
    (l.perform o).nextId = l.nextId + if o.arms then 1 else 0 := by
  cases o <;> rfl

theorem posted_perform (l : EventLoop ε) (o : Operation ε) :
    (l.perform o).posted = if o.empties then [] else l.posted ++ o.posted?.toList := by
  cases o <;> simp [perform, Operation.empties, Operation.posted?, singleShot, startTimer, addTimer, kill, clear,
    advance]

/-- Each timer goes its own way, and a new one comes last. -/
theorem timers_perform (l : EventLoop ε) (o : Operation ε) :
    (l.perform o).timers =
      l.timers.filterMap (fun t => t.next l.now o) ++ (o.timer? l.now l.nextId).toList := by
  cases o with
  | kill id =>
      simp only [perform, kill, Timer.next, Operation.timer?, Option.toList_none, List.append_nil]
      induction l.timers with
      | nil => rfl
      | cons t rest ih =>
          rw [List.filter_cons, ih, List.filterMap_cons]
          by_cases same : t.id = id <;> simp [same]
  | drain =>
      simp only [perform, drain, Timer.next, Operation.timer?, Option.toList_none, List.append_nil]
      rfl
  | _ => simp [perform, post, singleShot, startTimer, addTimer, clear, advance, Timer.next, Operation.timer?]

theorem id_of_next {now : Nat} (left : t.next now o = some u) : u.id = t.id := by
  cases o with
  | kill id =>
      simp only [Timer.next] at left
      split at left <;> cases left
      rfl
  | drain => exact (Prod.mk.inj (tag_of_afterDrain left)).1
  | _ => simp [Timer.next] at left <;> simp [left]

/-! ## A history -/

theorem now_performAll (l : EventLoop ε) (os : List (Operation ε)) :
    (l.performAll os).now = l.now + clock os := by
  induction os generalizing l with
  | nil => rfl
  | cons o rest ih =>
      change ((l.perform o).performAll rest).now = _
      rw [ih, now_perform, clock_cons, Nat.add_assoc]

theorem nextId_performAll (l : EventLoop ε) (os : List (Operation ε)) :
    (l.performAll os).nextId = l.nextId + armings os := by
  induction os generalizing l with
  | nil => rfl
  | cons o rest ih =>
      change ((l.perform o).performAll rest).nextId = _
      rw [ih, nextId_perform, armings_cons, Nat.add_assoc]

theorem outstanding_concat (os : List (Operation ε)) (o : Operation ε) :
    outstanding (os ++ [o]) = if o.empties then [] else outstanding os ++ o.posted?.toList := by
  cases empties : o.empties with
  | true => simp [outstanding, empties]
  | false => cases o <;> simp [outstanding, empties, Operation.posted?]

/-- What is posted is what was posted since the last drain or clearing. -/
theorem posted_performAll (os : List (Operation ε)) : (empty.performAll os).posted = outstanding os := by
  induction os using List.reverseRecOn with
  | nil => rfl
  | append_singleton os o ih => simp [performAll, posted_perform, outstanding_concat, ← ih]

/-- Posts stay in their order, and only until the next drain or clearing. -/
theorem outstanding_append (xs ys : List (Operation ε)) :
    outstanding (xs ++ ys) =
      if ys.any Operation.empties then outstanding ys else outstanding xs ++ ys.filterMap Operation.posted? := by
  induction ys using List.reverseRecOn with
  | nil => simp
  | append_singleton ys o ih =>
      rw [← List.append_assoc, outstanding_concat, ih, outstanding_concat, List.any_append, List.filterMap_append]
      cases empties : o.empties with
      | true => simp [empties]
      | false =>
          cases any : ys.any Operation.empties with
          | true => simp [empties]
          | false => cases o <;> simp [empties, Operation.posted?]

/-- A timer that is armed was on the loop at first, or was armed on the way. -/
theorem mem_timers_performAll :
    t ∈ (l.performAll os).timers ↔
      (∃ old ∈ l.timers, old.after l.now os = some t) ∨
        ∃ xs o ys born, os = xs ++ o :: ys ∧
          o.timer? (l.now + clock xs) (l.nextId + armings xs) = some born ∧
          born.after (l.now + clock xs) ys = some t := by
  induction os generalizing l with
  | nil => simp [performAll, Timer.after]
  | cons o rest ih =>
      have step : l.performAll (o :: rest) = (l.perform o).performAll rest := rfl
      rw [step, ih, timers_perform, now_perform, nextId_perform]
      constructor
      · rintro (⟨old, member, left⟩ | ⟨xs, o', ys, born, rfl, armed, left⟩)
        · rcases List.mem_append.mp member with kept | new
          · obtain ⟨first, member, next⟩ := List.mem_filterMap.mp kept
            exact .inl ⟨first, member, by simp [Timer.after, next, left]⟩
          · have armed := Option.mem_toList.mp new
            refine .inr ⟨[], o, rest, old, rfl, by simpa [armings] using armed, ?_⟩
            simpa [Operation.ms_of_timer? armed] using left
        · refine .inr ⟨o :: xs, o', ys, born, rfl, ?_, ?_⟩
          · simpa [Nat.add_assoc] using armed
          · simpa [Nat.add_assoc] using left
      · rintro (⟨old, member, left⟩ | ⟨xs, o', ys, born, split, armed, left⟩)
        · obtain ⟨first, next, left⟩ := Option.bind_eq_some_iff.mp left
          exact .inl ⟨first, List.mem_append_left _ (List.mem_filterMap.mpr ⟨old, member, next⟩), left⟩
        · cases xs with
          | nil =>
              obtain ⟨rfl, rfl⟩ := List.cons.inj split
              refine .inl ⟨born, List.mem_append_right _ (Option.mem_toList.mpr ?_), ?_⟩
              · simpa [armings] using armed
              · simpa [Operation.ms_of_timer? armed] using left
          | cons first xs =>
              obtain ⟨rfl, rfl⟩ := List.cons.inj split
              refine .inr ⟨xs, o', ys, born, rfl, ?_, ?_⟩
              · simpa [Nat.add_assoc] using armed
              · simpa [Nat.add_assoc] using left

/-- The timers of a loop are what those that were armed have become. -/
theorem mem_timers_iff_armed : t ∈ (empty.performAll os).timers ↔ Armed os t := by
  have start (os : List (Operation ε)) : (empty : EventLoop ε).nextId + armings os = armings os + 1 :=
    Nat.add_comm _ _
  simp only [mem_timers_performAll, Armed, start]
  simp [empty]

/-! ## One timer -/

theorem id_of_after {now : Nat} (left : t.after now os = some u) : u.id = t.id := by
  induction os generalizing now t with
  | nil => simp [Timer.after] at left; rw [left]
  | cons o rest ih =>
      obtain ⟨first, next, left⟩ := Option.bind_eq_some_iff.mp left
      rw [ih left, id_of_next next]

/-- Nothing is left of a timer that was killed or cleared away. -/
theorem after_eq_none {now : Nat} (ended : .clear ∈ os ∨ .kill t.id ∈ os) : t.after now os = none := by
  induction os generalizing now t with
  | nil => simp at ended
  | cons o rest ih =>
      cases next : t.next now o with
      | none => simp [Timer.after, next]
      | some u =>
          have same := id_of_next next
          have later : .clear ∈ rest ∨ .kill u.id ∈ rest := by
            rw [same]
            rcases ended with cleared | killed
            · rcases List.mem_cons.mp cleared with rfl | cleared
              · simp [Timer.next] at next
              · exact .inl cleared
            · rcases List.mem_cons.mp killed with rfl | killed
              · simp [Timer.next] at next
              · exact .inr killed
          simp [Timer.after, next, ih later]

/-- A timer that fires once is left as it is until it is killed or cleared away, or a drain comes at its
    deadline or later. -/
theorem after_once_iff {now : Nat} (once : t.interval = none) :
    t.after now os = some u ↔
      u = t ∧ (∀ o ∈ os, o ≠ .clear ∧ o ≠ .kill t.id) ∧
        ∀ xs ys, os = xs ++ .drain :: ys → now + clock xs < t.deadline := by
  induction os generalizing now with
  | nil => simp [Timer.after, @eq_comm _ u]
  | cons o rest ih =>
      have stays (left : t.next now o = some t) (spared : o ≠ .clear ∧ o ≠ .kill t.id)
          (early : o = .drain → now < t.deadline) :
          t.after now (o :: rest) = some u ↔
            u = t ∧ (∀ o' ∈ o :: rest, o' ≠ .clear ∧ o' ≠ .kill t.id) ∧
              ∀ xs ys, o :: rest = xs ++ .drain :: ys → now + clock xs < t.deadline := by
        rw [Timer.after, left, Option.bind_some, ih, List.forall_mem_cons]
        refine and_congr_right fun _ => and_congr (by simp [spared])
          ⟨fun drains xs ys split => ?_, fun drains xs ys split => ?_⟩
        · cases xs with
          | nil => simpa using early (List.cons.inj split).1
          | cons first xs =>
              obtain ⟨rfl, rfl⟩ := List.cons.inj split
              simpa [Nat.add_assoc] using drains xs ys rfl
        · simpa [Nat.add_assoc] using drains (o :: xs) ys (by simp [split])
      cases o with
      | kill id =>
          by_cases same : t.id = id
          · simp [Timer.after, Timer.next, same]
          · exact stays (by simp [Timer.next, same]) (by simp [Ne.symm same]) (by simp)
      | clear => simp [Timer.after, Timer.next]
      | drain =>
          by_cases due : t.deadline ≤ now
          · have fired : t.next now .drain = none := by
              simp [Timer.next, afterDrain, Timer.isDue, due, Timer.rearm, once]
            simp only [Timer.after, fired, Option.bind_none, reduceCtorEq, false_iff, not_and]
            intro _ _ drains
            have early := drains [] rest rfl
            simp at early
            omega
          · refine stays ?_ (by simp) (by omega)
            simp [Timer.next, afterDrain, Timer.isDue, due]
      | _ => exact stays (by simp [Timer.next]) (by simp) (by simp)

/-- A name is given to one timer only. -/
theorem eq_of_armings {xs' ys' : List (Operation ε)} {o' : Operation ε}
    (split : xs ++ o :: ys = xs' ++ o' :: ys') (arms : o.arms = true) (arms' : o'.arms = true)
    (same : armings xs = armings xs') : xs = xs' ∧ o = o' ∧ ys = ys' := by
  rcases List.append_eq_append_iff.mp split with ⟨zs, rfl, rest⟩ | ⟨zs, rfl, rest⟩
  all_goals cases zs with
    | nil => simp_all
    | cons first zs =>
        obtain ⟨rfl, rfl⟩ := List.cons.inj rest
        simp_all
        try omega

/-- Timers stand in the order of their names. -/
structure Ordered (l : EventLoop ε) : Prop where
  below : ∀ t ∈ l.timers, t.id < l.nextId
  ascending : l.timers.Pairwise fun a b => a.id < b.id

theorem Ordered.perform (ordered : l.Ordered) (o : Operation ε) : (l.perform o).Ordered := by
  have below : ∀ t ∈ l.timers.filterMap (fun t => t.next l.now o), t.id < l.nextId := by
    intro t member
    obtain ⟨old, member, left⟩ := List.mem_filterMap.mp member
    rw [id_of_next left]
    exact ordered.below old member
  have ascending : (l.timers.filterMap fun t => t.next l.now o).Pairwise fun a b => a.id < b.id := by
    refine ordered.ascending.filterMap _ fun a b less c left d left' => ?_
    rw [id_of_next left, id_of_next left']
    exact less
  constructor
  · rw [timers_perform, nextId_perform]
    intro t member
    rcases List.mem_append.mp member with kept | new
    · exact Nat.lt_of_lt_of_le (below t kept) (Nat.le_add_right _ _)
    · have armed := Option.mem_toList.mp new
      rw [Operation.id_of_timer? armed, if_pos (Operation.arms_iff.mpr ⟨t, armed⟩)]
      exact Nat.lt_succ_self _
  · rw [timers_perform, List.pairwise_append]
    refine ⟨ascending, ?_, fun a old b new => ?_⟩
    · cases o <;> simp [Operation.timer?]
    · rw [Operation.id_of_timer? (Option.mem_toList.mp new)]
      exact below a old

theorem ordered_performAll (os : List (Operation ε)) : (empty.performAll os : EventLoop ε).Ordered := by
  have run {l : EventLoop ε} (ordered : l.Ordered) : (l.performAll os).Ordered := by
    induction os generalizing l with
    | nil => exact ordered
    | cons o rest ih => exact ih (ordered.perform o)
  exact run ⟨by simp [empty], by simp [empty]⟩

end EventLoop

end PocketBasic
