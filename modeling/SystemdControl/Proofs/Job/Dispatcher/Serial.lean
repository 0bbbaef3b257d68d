import SystemdControl.Proofs.Job.Dispatcher.Lineup
import SystemdControl.Proofs.Job.Dispatcher.Race
import SystemdControl.Proofs.Job.Gate

/-!
# One request at a time

A registration holds the gate while its request is under way, and nobody else ever does. So requests
go out one after the other, and waits stand in nobody's way.

* `PolledTable.InCallAt` is where a request is under way in a polled table;
  `PolledTable.gate_isSome_iff` says that this is who holds the gate;
* `Dispatcher.inFlight_act_of_standsAside` and `Dispatcher.isSome_move?_call` are what waits and
  listener leave alone in a dispatcher, and what a free gate lets everyone do.
-/

namespace SystemdControl

namespace PolledTable

variable {s : PolledTable} {label : String} {number : Nat}

/-- Under a label there is a registration that is past the check of the table; its request is not
answered yet, or its reply not taken up. -/
def InCallAt (s : PolledTable) (label : String) : Prop :=
  ∃ number reply, s.activities.get? label = some ⟨number, .inCall reply⟩

/-- Whoever holds the gate is such a registration. -/
theorem gate_eq_some_iff (xs : List PollStep) :
    let s := after {} xs
    s.gate = some number ↔
      ∃ label reply, s.activities.get? label = some ⟨number, .inCall reply⟩ := by
  intro s
  have ho := orderly_after xs
  have hh : s.Held := Held.start_empty.after xs
  rw [ho.gate_eq_iff]
  constructor
  · rintro ⟨i, hi, rfl, hc⟩
    obtain ⟨⟨label, j⟩, hm, rfl⟩ := List.mem_map.1 hi
    obtain ⟨number, a⟩ := j
    cases a with
    | inCall reply => exact ⟨label, reply, Labelled.get?_of_mem hh.labels hm⟩
    | _ => cases hc
  · rintro ⟨label, reply, hg⟩
    exact ⟨_, mem_items hg, rfl, rfl⟩

/-- What is under different labels has different numbers. -/
theorem label_eq_of_number_eq (xs : List PollStep) {other : String} {i j : Numbered}
    (hi : (after {} xs).activities.get? label = some i)
    (hj : (after {} xs).activities.get? other = some j) (hn : i.number = j.number) :
    label = other := by
  have hnodup : ((after {} xs).activities.map (·.2.number)).Nodup := by
    have hnumbers := (orderly_after xs).numbers
    rwa [items, List.map_map] at hnumbers
  have hmem : ∀ {label i}, (after {} xs).activities.get? label = some i →
      (label, i) ∈ (after {} xs).activities := fun hg =>
    (Labelled.perm_of_get? hg).mem_iff.2 List.mem_cons_self
  exact congrArg Prod.fst (List.inj_on_of_nodup_map hnodup (hmem hi) (hmem hj) hn)

/-- Two requests are never under way at a time. -/
theorem inCallAt_unique (xs : List PollStep) {other : String}
    (h : (after {} xs).InCallAt label) (ho : (after {} xs).InCallAt other) : label = other := by
  obtain ⟨n, reply, hg⟩ := h
  obtain ⟨m, reply', hg'⟩ := ho
  have hn : (after {} xs).gate = some n := (gate_eq_some_iff xs).2 ⟨label, reply, hg⟩
  have hm : (after {} xs).gate = some m := (gate_eq_some_iff xs).2 ⟨other, reply', hg'⟩
  exact label_eq_of_number_eq xs hg hg' (Option.some.inj (hn.symm.trans hm))

theorem gate_isSome_iff (xs : List PollStep) :
    (after {} xs).gate.isSome ↔ ∃! label, (after {} xs).InCallAt label := by
  rw [Option.isSome_iff_exists]
  constructor
  · rintro ⟨n, hn⟩
    obtain ⟨label, reply, hg⟩ := (gate_eq_some_iff xs).1 hn
    have hin : (after {} xs).InCallAt label := ⟨n, reply, hg⟩
    exact ⟨label, hin, fun other ho => inCallAt_unique xs ho hin⟩
  · rintro ⟨label, ⟨n, reply, hg⟩, -⟩
    exact ⟨n, (gate_eq_some_iff xs).2 ⟨label, reply, hg⟩⟩

/-- At a free gate a poll lets a registration issue its request, or fail because the table is
closed. -/
theorem poll_atGate_of_free (hg : s.gate = none) {reply : Option (Except Error JobPath)}
    (ha : s.activities.get? label = some ⟨number, .atGate reply⟩) :
    if s.table.closed then (s.poll label).1 = .failed .listenerUnavailable
    else s.issuedIn (.poll label) = some number := by
  split
  · rename_i hc
    simp [poll, ha, attempt, hg, hc]
  · rename_i hc
    simp [issuedIn, ha, issuer?, issues, Activity.isAtGate, hg, hc]

/-- So does a new registration, at once. -/
theorem register_of_free (hg : s.gate = none) (label : String)
    (reply : Option (Except Error JobPath)) :
    if s.table.closed then (s.register label reply).1 = .failed .listenerUnavailable
    else s.issuedIn (.register label reply) = some s.begun := by
  split
  · rename_i hc
    simp [register, start, attempt, hg, hc]
  · rename_i hc
    simp [issuedIn, issuer?, issues, Activity.isAtGate, hg, hc]

/-- At a free gate a poll lets a signal be handled. -/
theorem poll_resolving_of_free (hg : s.gate = none) {path : JobPath} {result : JobResult}
    (ha : s.activities.get? label = some ⟨number, .resolving path result⟩) :
    (s.poll label).1 = .resolved (s.table.resolve path result).1 := by
  simp [poll, ha, attempt, hg]

/-- So is a new signal, at once. -/
theorem resolve_of_free (hg : s.gate = none) (label : String) (path : JobPath)
    (result : JobResult) :
    (s.resolve label path result).1 = .resolved (s.table.resolve path result).1 := by
  simp [resolve, start, attempt, hg]

end PolledTable

namespace Dispatcher

variable {s : Dispatcher} {x : Act}

/-- Acts of waits and of the listener. -/
def Act.StandsAside : Act → Prop
  | wait .. | move _ (.wait _) | move _ .listener | move _ .pump => True
  | _ => False

/-- Waits and listener neither take the gate nor give it back. -/
theorem inFlight_act_of_standsAside (s : Dispatcher) (hx : x.StandsAside) :
    (s.act x).inFlight = s.inFlight := by
  have e := s.act_exchange x
  have hsame : (s.act x).ledger.underWay = s.ledger.underWay := by
    generalize (s.act x).ledger = l at e
    cases e with
    | stay | finish | sit | rise => rfl
    | _ => cases hx
  exact congrArg (Option.map (·.call)) hsame

/-- A call that waits at a free gate can go on. -/
theorem isSome_move?_call (hu : s.inFlight = none) {call : Call}
    (hg : .call call ∈ s.room.guests) (now : Nat) :
    (s.move? now (.call call.number)).isSome := by
  have hnone : s.underWay = none := Option.map_eq_none_iff.1 hu
  have hseated : (s.seatedCall? call.number).isSome := by
    rw [seatedCall?, List.findSome?_isSome_iff]
    exact ⟨.call call, hg, by simp⟩
  rw [move?, moveCall?, hnone]
  rwa [Option.isSome_map]

/-- So can, whenever its reply has come, the call that holds the gate. -/
theorem isSome_move?_answered {call : Call} (hu : s.underWay = some ⟨call, true⟩) (now : Nat) :
    (s.move? now (.call call.number)).isSome := by
  simp [move?, moveCall?, hu]

/-- So can a listener with a signal. -/
theorem isSome_move?_listener (hu : s.inFlight = none) (hl : s.listener ≠ .stopped)
    (hf : s.core.front ≠ []) (now : Nat) : (s.move? now .listener).isSome :=
  isSome_moveListener? (Option.map_eq_none_iff.1 hu) hl hf

/-- Whether calls and listener can go on does not depend on who waits. -/
theorem isSome_move?_congr_waits (s : Dispatcher) (waits : List Wait) {actor : Actor}
    (ha : ∀ ticket, actor ≠ .wait ticket) (now : Nat) :
    ({ s with waits }.move? now actor).isSome = (s.move? now actor).isSome := by
  cases actor with
  | pump => rw [move?, move?, movePump?, movePump?, Option.isSome_map, Option.isSome_map]
  | listener =>
    have hfree : { s with waits }.gateFree = s.gateFree := rfl
    simp only [move?, moveListener?, hfree]
    cases s.listener with
    | ready =>
      dsimp only
      split
      · rfl
      · split <;> rfl
      · split <;> rfl
    | seated event =>
      dsimp only
      split <;> rfl
    | stopped => rfl
  | call number =>
    simp only [move?, moveCall?]
    cases s.underWay with
    | some u =>
      dsimp only
      split <;> rfl
    | none => exact (Option.isSome_map ..).trans (Option.isSome_map ..).symm
  | wait ticket => exact absurd rfl (ha ticket)

end Dispatcher

/-! ## Any run -/

/-- In a table polled by hand, at any moment of any run:

* the gate is held if and only if there is exactly one registration that is past the check of the
  table and whose reply is not taken up; there are never two;
* nothing else holds it, so no signal and no wait does;
* at a free gate every registration goes on, or fails because the table is closed, and every signal
  is handled, whatever else is under way; those that are new do so at once.

In a dispatcher, at any moment of any run:

* the calls that were issued are those that have ended and the one that holds the gate; their
  requests are the requests for jobs that have reached the manager, and, as long as nothing is
  forgotten, all that has been sent is what has reached it;
* a call is issued only at a free gate, and gives it back when its reply is taken up or when it is
  abandoned; waits, listener and pump leave the gate alone;
* whoever else waits for a job, a call whose reply has come can go on, and at a free gate every call
  that waits for it and a listener with a signal can;
* if calls get the gate in the order of arrival, their requests are sent in the order in which they
  were submitted. -/
theorem enqueues_serialised :
    (∀ xs, let s := PolledTable.after {} xs
      (s.gate.isSome ↔ ∃! label, s.InCallAt label) ∧
      (∀ label other, s.InCallAt label → s.InCallAt other → label = other) ∧
      (∀ label number a, s.activities.get? label = some ⟨number, a⟩ → s.gate = some number →
        a.isInCall) ∧
      (s.gate = none → ∀ label,
        (∀ reply, if s.table.closed then (s.register label reply).1 = .failed .listenerUnavailable
          else s.issuedIn (.register label reply) = some s.begun) ∧
        (∀ number reply, s.activities.get? label = some ⟨number, .atGate reply⟩ →
          if s.table.closed then (s.poll label).1 = .failed .listenerUnavailable
          else s.issuedIn (.poll label) = some number) ∧
        ∀ path result,
          (s.resolve label path result).1 = .resolved (s.table.resolve path result).1 ∧
          ∀ number, s.activities.get? label = some ⟨number, .resolving path result⟩ →
            (s.poll label).1 = .resolved (s.table.resolve path result).1)) ∧
    ∀ (capacity : Nat) (xs : List Dispatcher.Act),
      let first : Dispatcher := { feed := { capacity } }
      let s := xs.foldl Dispatcher.act first
      (first.issues xs = first.endings xs ++ s.inFlight.toList ∧
        (first.requests xs).filterMap ManagerCall.job? = (first.issues xs).map (·.request) ∧
        (.clear ∉ xs → s.sent = first.requests xs)) ∧
      (∀ x call, s.issued? x = some call → s.inFlight = none) ∧
      (∀ x call, s.ended? x = some call →
        ((∃ now, x = .move now (.call call.number)) ∧ s.underWay = some ⟨call, true⟩) ∨
          x = .drop call.label ∧ s.inFlight = some call) ∧
      (∀ x : Dispatcher.Act, x.StandsAside → (s.act x).inFlight = s.inFlight) ∧
      (∀ waits now,
        (∀ call, s.underWay = some ⟨call, true⟩ →
          ({ s with waits }.move? now (.call call.number)).isSome) ∧
        (s.inFlight = none →
          (∀ call, .call call ∈ s.room.guests →
            ({ s with waits }.move? now (.call call.number)).isSome) ∧
          (s.listener ≠ .stopped → s.core.front ≠ [] →
            ({ s with waits }.move? now .listener).isSome))) ∧
      ((Lineup.start capacity).inOrder xs = true →
        (first.issues xs).Sublist (first.submissions xs)) := by
  constructor
  · intro xs s
    refine ⟨PolledTable.gate_isSome_iff xs, fun label other => PolledTable.inCallAt_unique xs,
      fun label number a ha hg => ?_, fun hg label => ⟨?_, ?_, fun path result => ⟨?_, ?_⟩⟩⟩
    · obtain ⟨other, reply, ho⟩ := (PolledTable.gate_eq_some_iff xs).1 hg
      obtain rfl := PolledTable.label_eq_of_number_eq xs ha ho rfl
      cases ha.symm.trans ho
      rfl
    · exact PolledTable.register_of_free hg label
    · exact fun number reply => PolledTable.poll_atGate_of_free hg
    · exact PolledTable.resolve_of_free hg label path result
    · exact fun number => PolledTable.poll_resolving_of_free hg
  · intro capacity xs first s
    refine ⟨⟨first.issues_eq xs, first.requests_filterMap_job? xs, first.sent_foldl⟩,
      fun x call hi => ?issued, fun x call he => ?ended,
      fun x => s.inFlight_act_of_standsAside,
      fun waits now => ⟨fun call hu => ?answered, fun hu => ⟨fun call hg => ?call,
        fun hl hf => ?listener⟩⟩,
      Lineup.issues_sublist capacity⟩
    case issued =>
      obtain ⟨-, -, hu, -⟩ := (s.act_exchange x).issued hi
      exact Option.map_eq_none_iff.2 hu
    case ended =>
      refine ((s.act_exchange x).ended he).imp_right fun ⟨hx, answered, hu⟩ => ⟨hx, ?_⟩
      rw [Dispatcher.inFlight, hu]
      rfl
    case answered =>
      rw [s.isSome_move?_congr_waits waits fun ticket => by simp]
      exact Dispatcher.isSome_move?_answered hu now
    case call =>
      rw [s.isSome_move?_congr_waits waits fun ticket => by simp]
      exact Dispatcher.isSome_move?_call hu hg now
    case listener =>
      rw [s.isSome_move?_congr_waits waits fun ticket => by simp]
      exact Dispatcher.isSome_move?_listener hu hl hf now

/-- While one caller waits for a job for ever, three calls are submitted. The second is abandoned
before it gets the gate, and the third gets it after the first. -/
theorem enqueues_serialised_three :
    let call (unit : String) : Except Error JobRequest := .ok (.method .start unit .replace)
    let first : Dispatcher := { feed := { capacity := 2 } }
    let xs : List Dispatcher.Act := [
      .start "a" (call "a.service") [] false .nextJob, .move 0 (.call 0), .move 0 (.call 0),
      .wait 0 "a" none, .start "b" (call "b.service") [] true .nextJob,
      .start "c" (call "c.service") [] false .nextJob,
      .start "d" (call "d.service") [] true .nextJob, .move 0 (.call 1), .drop "c", .release "b",
      .move 0 (.call 1), .move 0 (.call 3)]
    let s := xs.foldl Dispatcher.act first
    (Lineup.start 2).inOrder xs = true ∧ s.waits.length = 1 ∧
      (first.issues xs).map (·.number) = [0, 1, 3] ∧
      (first.endings xs).map (·.number) = [0, 1] ∧ s.inFlight.map (·.number) = some 3 ∧
      (first.issues xs).Sublist (first.submissions xs) := by
  intro call first xs s
  have ho : (Lineup.start 2).inOrder xs = true := by decide +kernel +zetaReduce
  obtain ⟨-, -, -, -, -, hsublist⟩ := enqueues_serialised.2 2 xs
  exact ⟨ho, by decide +kernel +zetaReduce, by decide +kernel +zetaReduce,
    by decide +kernel +zetaReduce, by decide +kernel +zetaReduce, hsublist ho⟩

end SystemdControl
