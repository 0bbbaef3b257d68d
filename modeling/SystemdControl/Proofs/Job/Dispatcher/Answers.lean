import SystemdControl.Proofs.Job.Dispatcher.Requests

/-!
# What callers are told

A caller that asked for a job gets a handle, which names the unit of its request and the path that
the manager replied.

* `Exchange.started`: a handle is handed out when the reply of a call is taken up;
* `Dispatcher.issues_subset`: only calls that waited already, or that are submitted in the run, get
  the gate in it;
* `Dispatcher.Alone` says that a label stands for one call only. Then every handle under that label
  is of that call (`Dispatcher.Alone.after`).
-/

namespace SystemdControl

open Dispatcher (Act)

namespace Exchange

variable {s : Dispatcher} {x : Act} {l : Ledger} {call : Call}

/-- Nothing that callers were told is taken back, unless it is forgotten. -/
theorem events_grow (e : Exchange s x l) (hx : x ≠ .clear) : s.events <+: l.events := by
  cases e with
  | clear => exact absurd rfl hx
  | refuse | refuseKill | kill | answerKill | finish | turnAway | fail | register =>
    exact List.prefix_append ..
  | _ => exact List.prefix_refl _

/-- A handle is handed out when the reply of a call is taken up. -/
theorem started (e : Exchange s x l) {label : String} {handle : JobHandle}
    (h : (label, .started handle) ∈ l.events) :
    (label, .started handle) ∈ s.events ∨
      ∃ call, (∃ now, x = .move now (.call call.number)) ∧ s.underWay = some ⟨call, true⟩ ∧
        label = call.label ∧ handle.unit = call.request.unit ∧
        (s.answer call.reply).1 = .ok handle.ticket.path := by
  have hother : ∀ {other : String} {event : JobEvent}, (∀ handle, event ≠ .started handle) →
      (label, .started handle) ∈ s.events ++ [(other, event)] →
      (label, .started handle) ∈ s.events := fun hne hm => by
    refine (List.mem_append.1 hm).resolve_right fun hm => ?_
    cases List.mem_singleton.1 hm
    exact hne handle rfl
  have hkill : ∀ fail handle, Dispatcher.killEvent fail ≠ .started handle := fun fail handle => by
    cases fail <;> nofun
  cases e with
  | clear => cases h
  | refuse | refuseKill | finish | turnAway | fail => exact .inl (hother (by simp) h)
  | kill | answerKill => exact .inl (hother (hkill _) h)
  | @register now c hu path ho hr =>
    rcases List.mem_append.1 h with h | h
    · exact .inl h
    · cases List.mem_singleton.1 h
      exact .inr ⟨c, ⟨now, rfl⟩, hu, rfl, rfl, hr⟩
  | _ => exact .inl h

/-- A call that waits for the gate did so before, or is submitted. -/
theorem mem_guests (e : Exchange s x l) (h : .call call ∈ l.guests) :
    .call call ∈ s.room.guests ∨ s.submitted? x = some call := by
  cases e with
  | submit label request before held reply hg =>
    rcases List.mem_cons.1 (hg.mem_iff.1 h) with he | hm
    · cases he
      exact .inr rfl
    · exact .inl hm
  | sit now hl hu hg =>
    exact .inl ((List.mem_cons.1 (hg.mem_iff.1 h)).resolve_left (by simp))
  | rise | issue | turnAway | giveUp => exact .inl (List.mem_of_mem_erase h)
  | _ => exact .inl h

/-- A call that holds the gate did so before, or is issued. -/
theorem mem_issued? (e : Exchange s x l) (h : l.underWay.map (·.call) = some call) :
    s.inFlight = some call ∨ s.ledger.issued? l = some call := by
  have hm : call ∈ s.inFlight.toList ++ (s.ledger.issued? l).toList := by
    rw [show s.inFlight = s.ledger.underWay.map (·.call) from rfl, e.inFlight, h]
    exact List.mem_append_right _ (List.mem_singleton_self call)
  exact (List.mem_append.1 hm).imp Option.mem_toList.1 Option.mem_toList.1

end Exchange

namespace Dispatcher

variable {s : Dispatcher} {call : Call}

theorem events_grow {xs : List Act} (hx : .clear ∉ xs) (s : Dispatcher) :
    s.events <+: (xs.foldl act s).events := by
  induction xs generalizing s with
  | nil => exact List.prefix_refl _
  | cons x xs ih =>
    rw [List.mem_cons, not_or] at hx
    exact ((s.act_exchange x).events_grow (Ne.symm hx.1)).trans (ih hx.2 (s.act x))

/-- Whoever gets the gate in a run waited for it already, or is submitted in that run. -/
theorem issues_subset {xs : List Act} (h : call ∈ s.issues xs) :
    .call call ∈ s.room.guests ∨ call ∈ s.submissions xs := by
  induction xs generalizing s with
  | nil => cases h
  | cons x xs ih =>
    rw [issues, Run.outputs_cons, List.mem_append, Option.mem_toList] at h
    rw [submissions, Run.outputs_cons, List.mem_append, Option.mem_toList]
    rcases h with hi | h
    · obtain ⟨-, hg, -⟩ := (s.act_exchange x).issued hi
      exact .inl hg
    · rcases ih h with hg | hs
      · exact ((s.act_exchange x).mem_guests hg).imp_right .inl
      · exact .inr (.inr hs)

/-! ## One call under a label -/

/-- Whether an act submits a call under a label. -/
def Act.startsAs (label : String) : Act → Bool
  | start other .. => other = label
  | _ => false

/-- What the manager may have meant by a path. -/
def Replies (reply : Reply) (path : JobPath) : Prop :=
  ∃ s : Dispatcher, (s.answer reply).1 = .ok path

/-- A label stands for one call only, and handles under it are of that call. Its request was sent by
the time it holds the gate, or has a handle. -/
structure Alone (s : Dispatcher) (call : Call) : Prop where
  waiting : ∀ c, .call c ∈ s.room.guests → c.label = call.label → c = call
  inFlight : ∀ c, s.inFlight = some c → c.label = call.label →
    c = call ∧ .job call.request ∈ s.sent
  started : ∀ handle, (call.label, .started handle) ∈ s.events →
    .job call.request ∈ s.sent ∧ handle.unit = call.request.unit ∧
      Replies call.reply handle.ticket.path

namespace Alone

theorem submit {label : String} (hg : ∀ c, .call c ∈ s.room.guests → c.label ≠ label)
    (hi : ∀ c, s.inFlight = some c → c.label ≠ label)
    (he : ∀ handle, (label, .started handle) ∉ s.events) (request : JobRequest)
    (before : List Signal) (held : Bool) (reply : Reply) :
    Alone (s.act (.start label (.ok request) before held reply))
      ⟨s.begun, label, request, before, held, reply⟩ where
  waiting c hc hl := by
    rcases (s.act_exchange _).mem_guests hc with hm | hs
    · exact absurd hl (hg c hm)
    · exact (Option.some.inj hs).symm
  inFlight c hc hl := absurd hl (hi c hc)
  started handle h := absurd h (he handle)

theorem act (h : Alone s call) {x : Act} (hx : x.startsAs call.label = false) (hc : x ≠ .clear) :
    Alone (s.act x) call where
  waiting c hguest hl := by
    rcases (s.act_exchange x).mem_guests hguest with hm | hs
    · exact h.waiting c hm hl
    · cases x with
      | start other request before held reply =>
        cases request with
        | error e => cases hs
        | ok request =>
          cases hs
          exact absurd hl (of_decide_eq_false hx)
      | _ => cases hs
  inFlight c hflight hl := by
    rw [s.act_sent hc]
    rcases (s.act_exchange x).mem_issued? hflight with hi | hi
    · exact (h.inFlight c hi hl).imp_right fun hsent => List.mem_append_left _ hsent
    · obtain ⟨-, hg, -⟩ := (s.act_exchange x).issued hi
      obtain rfl := h.waiting c hg hl
      refine ⟨rfl, List.mem_append_right _ ?_⟩
      rw [due?, show s.issued? x = some c from hi]
      exact List.mem_singleton_self _
  started handle hm := by
    rw [s.act_sent hc]
    rcases (s.act_exchange x).started hm with hm | ⟨c, -, hu, hl, hunit, hpath⟩
    · exact (h.started handle hm).imp_left fun hsent => List.mem_append_left _ hsent
    · have hinFlight : s.inFlight = some c := by rw [Dispatcher.inFlight, hu]; rfl
      obtain ⟨rfl, hsent⟩ := h.inFlight c hinFlight hl.symm
      exact ⟨List.mem_append_left _ hsent, hunit, s, hpath⟩

theorem after (h : Alone s call) {xs : List Act} (hx : ∀ x ∈ xs, x.startsAs call.label = false)
    (hc : .clear ∉ xs) : Alone (xs.foldl Dispatcher.act s) call := by
  induction xs generalizing s with
  | nil => exact h
  | cons x xs ih =>
    rw [List.mem_cons, not_or] at hc
    exact ih (h.act (hx x List.mem_cons_self) (Ne.symm hc.1))
      (fun y hy => hx y (List.mem_cons_of_mem _ hy)) hc.2

end Alone

end Dispatcher

end SystemdControl
