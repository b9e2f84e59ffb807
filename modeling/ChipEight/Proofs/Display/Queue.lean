import Mathlib.Data.List.TakeWhile
import ChipEight.Proofs.Action
import ChipEight.Proofs.Display.Delivery

/-!
# The queue of a recorder

**Theorem (`events_once_in_order`).** A pump that is not about to stop the run delivers the events
that wait, in their order, up to the first with a bad code. That one is gone and stops the pump,
those behind it go on waiting. A pump that is about to stop the run changes nothing.

So over any calls the events that were taken off the queue are the first of those that were put on
it, and the delivered ones are those among them with codes of keys: none is delivered twice, and
none before an earlier one.

One pump takes the events before the first bad code and that one (`taken_pump`). The queue as a
whole is followed through calls: whatever was ever put on it has been taken, or still waits
(`Taken`).
-/

namespace ChipEight

namespace Recorder

/-! ## Calls -/

/-- A call on a recorder. -/
inductive Call where
  | press (code : Int)
  | release (code : Int)
  | pump
  deriving Repr, DecidableEq

/-- The machine and the recorder after a call. -/
def after (s : Machine × Recorder) : Call → Machine × Recorder
  | .press code => (s.1, s.2.press code)
  | .release code => (s.1, s.2.release code)
  | .pump => leftBy Recorder.pump s

/-- The machine and the recorder after calls, one after the other. -/
def afterAll (s : Machine × Recorder) (calls : List Call) : Machine × Recorder :=
  calls.foldl after s

/-- The event that a call puts on the queue. -/
def Call.event? : Call → Option KeyEvent
  | .press code => some ⟨true, code⟩
  | .release code => some ⟨false, code⟩
  | .pump => none

/-- The events that a call delivers. -/
def delivered (s : Machine × Recorder) : Call → List KeyEvent
  | .pump => if s.2.isDone then [] else s.2.events.takeWhile KeyEvent.isKey
  | _ => []

/-- The events that calls deliver, one after the other. -/
def deliveries (s : Machine × Recorder) : List Call → List KeyEvent
  | [] => []
  | call :: rest => delivered s call ++ deliveries (after s call) rest

/-- From one state to another, events were put on the queue and events were taken off it; of those
that were taken, the ones with codes of keys were delivered, and no others. -/
structure Taken (s s' : Machine × Recorder) (queued taken delivered : List KeyEvent) : Prop where
  queue : s.2.events ++ queued = taken ++ s'.2.events
  keys : delivered = taken.filter KeyEvent.isKey
  machine : s'.1 = s.1.withKeys delivered

namespace Taken

variable {s s' s'' : Machine × Recorder} {queued queued' taken taken' first second : List KeyEvent}

/-- What was queued later lies behind what still waits. -/
theorem trans (h : Taken s s' queued taken first) (h' : Taken s' s'' queued' taken' second) :
    Taken s s'' (queued ++ queued') (taken ++ taken') (first ++ second) where
  queue := by
    rw [← List.append_assoc, h.queue, List.append_assoc, h'.queue, List.append_assoc]
  keys := by rw [List.filter_append, ← h.keys, ← h'.keys]
  machine := by rw [h'.machine, h.machine, Machine.withKeys_append]

end Taken

/-- A pump takes the events before the first with a bad code, and that one. -/
theorem taken_pump (m : Machine) {r : Recorder} (hgoesOn : r.isDone = false) :
    ∃ taken, Taken (m, r) (leftBy pump (m, r)) [] taken (r.events.takeWhile KeyEvent.isKey) := by
  rcases KeyEvent.keys_or_bad r.events with hkeys | ⟨before, bad, later, hqueue, hkeys, hbad⟩
  · have hpump := pump_of_keys m hgoesOn hkeys
    rw [List.takeWhile_eq_self_iff.2 hkeys]
    refine ⟨r.events, ?_, (List.filter_eq_self.2 hkeys).symm, ?_⟩
    · rw [leftBy, hpump]
    · rw [leftBy, hpump]
  · have hpump := pump_of_bad m hgoesOn hqueue hkeys hbad
    have htake : r.events.takeWhile KeyEvent.isKey = before := by
      rw [hqueue, List.takeWhile_append_of_pos hkeys, List.takeWhile_cons_of_neg (by simp [hbad]),
        List.append_nil]
    rw [htake]
    -- The event with the bad code is taken too, though it is not delivered.
    refine ⟨before ++ [bad], ?_, ?_, ?_⟩
    · rw [leftBy, hpump, List.append_nil, List.append_assoc, List.singleton_append, hqueue]
    · rw [List.filter_append, List.filter_eq_self.2 hkeys, List.filter_cons_of_neg (by simp [hbad])]
      exact (List.append_nil _).symm
    · rw [leftBy, hpump]

/-- Every call takes events off the front of the queue, and delivers those with codes of keys. -/
theorem taken_after (s : Machine × Recorder) (call : Call) :
    ∃ taken, Taken s (after s call) call.event?.toList taken (delivered s call) := by
  obtain ⟨m, r⟩ := s
  cases call with
  | press code | release code => exact ⟨[], rfl, rfl, rfl⟩
  | pump =>
    cases hdone : r.isDone with
    | true =>
      -- A recorder that tells to stop takes nothing off.
      have hsame : after (m, r) .pump = (m, r) := leftBy_of_ok (pump_of_isDone m hdone)
      have hnone : delivered (m, r) .pump = [] := if_pos hdone
      rw [hsame, hnone]
      exact ⟨[], List.append_nil _, rfl, rfl⟩
    | false =>
      have hsome : delivered (m, r) .pump = r.events.takeWhile KeyEvent.isKey :=
        if_neg (by simp [hdone])
      rw [hsome]
      exact taken_pump m hdone

/-- So do calls, one after the other. -/
theorem taken_afterAll (s : Machine × Recorder) (calls : List Call) :
    ∃ taken,
      Taken s (afterAll s calls) (calls.filterMap Call.event?) taken (deliveries s calls) := by
  induction calls generalizing s with
  | nil => exact ⟨[], List.append_nil _, rfl, rfl⟩
  | cons call rest ih =>
    obtain ⟨first, hfirst⟩ := taken_after s call
    obtain ⟨second, hsecond⟩ := ih (after s call)
    have hqueued : (call :: rest).filterMap Call.event? =
        call.event?.toList ++ rest.filterMap Call.event? := by
      cases hevent : call.event? with
      | none => rw [List.filterMap_cons_none hevent]; rfl
      | some event => rw [List.filterMap_cons_some hevent]; rfl
    rw [hqueued]
    exact ⟨first ++ second, hfirst.trans hsecond⟩

/-- **Key events are delivered once and in order.** -/
theorem events_once_in_order (m : Machine) (r : Recorder) :
    (r.isDone = true → pump (m, r) = .ok false (m, r)) ∧
    (r.isDone = false → (∀ event ∈ r.events, event.isKey = true) →
      pump (m, r) =
        .ok true (m.withKeys r.events, { r with pumps := r.pumps + 1, events := [] })) ∧
    (∀ before bad later, r.isDone = false → r.events = before ++ bad :: later →
      (∀ event ∈ before, event.isKey = true) → bad.isKey = false →
      pump (m, r) = .error (.keyOutOfRange bad.code)
        (m.withKeys before, { r with pumps := r.pumps + 1, events := later })) ∧
    ∀ calls : List Call, ∃ taken,
      r.events ++ calls.filterMap Call.event? = taken ++ (afterAll (m, r) calls).2.events ∧
      deliveries (m, r) calls = taken.filter KeyEvent.isKey ∧
      (deliveries (m, r) calls).Sublist (r.events ++ calls.filterMap Call.event?) ∧
      (afterAll (m, r) calls).1 = m.withKeys (deliveries (m, r) calls) := by
  refine ⟨pump_of_isDone m, pump_of_keys m, fun _ _ _ => pump_of_bad m, fun calls => ?_⟩
  obtain ⟨taken, htaken⟩ := taken_afterAll (m, r) calls
  refine ⟨taken, htaken.queue, htaken.keys, ?_, htaken.machine⟩
  rw [htaken.keys, htaken.queue]
  exact List.filter_sublist.trans (List.sublist_append_left _ _)

/-- Key 3 goes down, 16 is not the code of a key, key 3 goes up: the pump stops at the second event,
the third goes on waiting. -/
theorem events_once_in_order_bad_code :
    let down : KeyEvent := ⟨true, 3⟩
    let bad : KeyEvent := ⟨true, 16⟩
    let up : KeyEvent := ⟨false, 3⟩
    let m := Machine.fresh (.ofBytes []) {}
    let r : Recorder := { events := [down, bad, up] }
    r.isDone = false ∧ r.events = [down] ++ bad :: [up] ∧ bad.isKey = false ∧
      pump (m, r) = .error (.keyOutOfRange 16)
        (m.withKeys [down], { r with pumps := 1, events := [up] }) :=
  ⟨rfl, rfl, rfl, (events_once_in_order _ _).2.2.1 [⟨true, 3⟩] ⟨true, 16⟩ [⟨false, 3⟩]
    rfl rfl (by decide) rfl⟩

end Recorder

end ChipEight
