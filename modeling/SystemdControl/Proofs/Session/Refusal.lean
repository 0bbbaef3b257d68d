import SystemdControl.Proofs.Session.Resting
import SystemdControl.Session.Units

/-!
# Refused calls

On the only thread of an executor no call can be waited for. It is refused before it does anything:
whatever was asked, and however wrongly, everything stays as it is. A wait alone leaves something
behind, as it has its handle no more: the waiter goes away, with its entry if that is still the
current one of its path.

* `JobTable.Sound.drop_eq_forget`: a waiter that goes away takes nothing with it that is not its
  own;
* `Blocking.Leaves` is what a refused call leaves, and `Blocking.leaves_refuse` that it does so at
  any moment;
* `Blocking.settled_refuse`: where all wait, nobody goes on after it;
* `Blocking.waits_eq_true_iff`: which calls those are;
* `Blocking.refused_calls_do_nothing`: all of it, and that other steps are those of a session.
-/

namespace SystemdControl

/-! ## Waiters that go away -/

namespace JobTable

variable {j : List Deed} {t : JobTable} {ticket : Ticket}

/-- A table without a registration and without anything of it. -/
def forget (t : JobTable) (ticket : Ticket) : JobTable :=
  { t with
    entries := t.entries.filter (·.ticket ≠ ticket)
    waiters := t.waiters.filter (·.ticket ≠ ticket) }

/-- Path and number of an entry are those of a live waiter only if it is its own. -/
theorem Sound.drop_eq_forget (h : Sound j t) (hn : t.registered ≤ 2 ^ 64)
    (hl : ticket ∈ t.tickets) : t.drop ticket = t.forget ticket := by
  have hentries : (t.drop ticket).entries = (t.forget ticket).entries := by
    refine List.filter_congr fun e he => ?_
    have hown : e.ticket = ticket ↔ e.ticket.path = ticket.path ∧ e.ticket.id = ticket.id := by
      refine ⟨fun heq => heq ▸ ⟨rfl, rfl⟩, fun hs => ?_⟩
      exact h.eq_of_id_eq hn (h.ticket_mem he) hl hs.1 hs.2
    simp [hown]
  exact congrArg (fun entries => { t.forget ticket with entries }) hentries

end JobTable

/-- What happened to the table since it was empty. -/
theorem Session.Reached.sound {s : Session} (h : s.Reached) :
    ∃ j, JobTable.Sound j s.jobs.table := by
  obtain ⟨capacity, hr⟩ := h.jobs
  have hboth := hr.keeps (P := fun d =>
    JobTable.Holds d.table d.core.tickets ∧ ∃ j, JobTable.Sound j d.table) ?_
    ⟨.nil, [], JobTable.sound_nil⟩
  · exact hboth.2
  · rintro d x ⟨hholds, j, hj⟩
    obtain ⟨hholds', hdoes⟩ := (d.act_effect x).doesAll hholds
    exact ⟨hholds', _, hj.doesAll hdoes⟩

namespace Blocking

variable {s t : Session} {x : Step}

/-! ## What a refused call leaves -/

/-- Of a wait the handle is gone with the waiter behind it, of every other call nothing is left. The
waiter takes no other entry with it than its own, unless the numbers of the registrations have come
round. -/
inductive Leaves (s : Session) : Step → Session → Prop
  | spent {label : String} {limit : Option Duration} {handle : JobHandle}
      (hg : s.jobs.handles.get? label = some handle)
      (hown : s.jobs.table.registered ≤ 2 ^ 64 →
        s.jobs.table.drop handle.ticket = s.jobs.table.forget handle.ticket) :
      Leaves s (.wait label limit) { s with jobs := { s.jobs with
        handles := s.jobs.handles.remove label
        table := s.jobs.table.drop handle.ticket } }
  | nothing {x : Step} (hx : ∀ label limit, x ≠ .wait label limit) : Leaves s x s

/-- A call that has what it refers to leaves nothing else, whatever is going on at that moment. -/
theorem leaves_refuse (h : s.Reached) (hthere : refersToNothing s x = false) :
    Leaves s x (refuse s x) := by
  by_cases hx : ∃ label limit, x = .wait label limit
  · obtain ⟨label, limit, rfl⟩ := hx
    cases hg : s.jobs.handles.get? label with
    | none => simp [refersToNothing, Labelled.has_eq_isSome_get?, hg] at hthere
    | some handle =>
      obtain ⟨j, hj⟩ := h.sound
      rw [refuse, hg]
      exact .spent hg fun hn => hj.drop_eq_forget hn (Dispatcher.handle_ticket_mem h.holds hg)
  · rw [refuse_eq_self fun label limit he => hx ⟨label, limit, he⟩]
    exact .nothing fun label limit he => hx ⟨label, limit, he⟩

/-- Whoever else waits for a job is told the same as before. -/
theorem outcome?_refuse (h : s.Reached) (hn : s.jobs.table.registered ≤ 2 ^ 64) {ticket : Ticket}
    (hl : ticket ∈ (refuse s x).jobs.table.tickets) :
    (refuse s x).jobs.table.outcome? ticket = s.jobs.table.outcome? ticket := by
  unfold refuse at hl ⊢
  split
  · split
    · rename_i hg
      simp only [hg, JobTable.tickets_drop, List.mem_filter, decide_eq_true_eq] at hl
      obtain ⟨j, hj⟩ := h.sound
      exact hj.outcome?_drop hn hl.1 (Dispatcher.handle_ticket_mem h.holds hg) hl.2
    · rfl
  · rfl

/-- Nobody had a turn, and nobody gets one. -/
theorem settled_refuse (h : s.Reachable) (x : Step) : (refuse s x).Settled := by
  have hs := h.settled
  by_cases hx : ∃ label limit, x = .wait label limit
  · obtain ⟨label, limit, rfl⟩ := hx
    have ht := (tended_refuse h.tended (.wait label limit)).jobs
    cases hg : s.jobs.handles.get? label with
    | none => rwa [refuse, hg]
    | some handle =>
      rw [refuse, hg] at ht ⊢
      have hsilent : s.jobs.sent = [] ∧ s.jobs.events = [] := by
        rw [← hs.told]
        exact ⟨rfl, rfl⟩
      exact {
        calm := ⟨⟨ht.toSteady, hs.calm.rest.idle⟩, hs.calm.guests, ht.heeded⟩
        still := hs.still
        told := by simp only [Dispatcher.act, hsilent]
        read := hs.read }
  · rwa [refuse_eq_self fun label limit he => hx ⟨label, limit, he⟩]

/-! ## Steps on the only thread -/

/-- The calls that would wait: those about units, a listing, a subscription, the next item of one,
and the wait for a job. -/
theorem waits_eq_true_iff :
    waits x = true ↔
      (∃ (call : JobCall) (label : String) (t : Treatment), x = call.step label t) ∨
      (∃ (call : KillCall) (label : String) (held : Bool) (fail : Option Error),
        x = call.step label held fail) ∨
      (∃ label, x = .list label) ∨ (∃ label options, x = .subscribe label options) ∨
      (∃ subscription kind, x = .next subscription kind) ∨ ∃ label limit, x = .wait label limit := by
  constructor
  · intro hx
    cases x with
    | start label unit mode ask before held reply =>
      exact .inl ⟨⟨unit, mode, ask⟩, label, ⟨before, held, reply⟩, rfl⟩
    | kill label unit who signal held fail =>
      exact .inr (.inl ⟨⟨unit, who, signal⟩, label, held, fail, rfl⟩)
    | list | subscribe | next | wait => simp
    | _ => cases hx
  · rintro (⟨call, label, t, rfl⟩ | ⟨call, label, held, fail, rfl⟩ | ⟨label, rfl⟩ |
      ⟨label, options, rfl⟩ | ⟨subscription, kind, rfl⟩ | ⟨label, limit, rfl⟩) <;> rfl

theorem step_of_waits (hx : waits x = true) (hthere : refersToNothing s x = false) :
    step .singleThread s x =
      (⟨.refused (.invalidInput .blocksOnlyThread), (refuse s x).settle.jobs.sent⟩,
        (refuse s x).settle.clear) := by
  simp only [step, Executor.block, hthere, hx, if_true, Bool.false_eq_true, if_false]

theorem step_of_not_waits (hx : waits x = false) :
    step .singleThread s x =
      (⟨.immediate (s.step x).1.answer, (s.step x).1.calls⟩, (s.step x).2) := by
  have hthere : refersToNothing s x = false := by
    cases x with
    | wait | next => cases hx
    | _ => rfl
  simp only [step, Executor.block, hthere, hx, Bool.false_eq_true, if_false]
  rfl

/-- Refused calls do nothing.

* At any moment a call that would wait is refused, whatever was asked. What goes on afterwards goes
  on from where it was, but for the handle of a wait, its waiter and that waiter's own entry; and
  those of the other waiters are told what they would have been told, among at most `2 ^ 64`
  registrations.
* Between two steps nothing goes on at all: no request is sent and nothing else changes.
* What does not wait is done as it always is.

The calls that would wait are all those for a job, to signal a unit, for a listing, a subscription
and its next item, and every wait for a job. -/
theorem refused_calls_do_nothing :
    (∀ (s : Session) (x : Step), s.Reached → waits x = true → refersToNothing s x = false →
      ∃ t, Leaves s x t ∧
        (s.jobs.table.registered ≤ 2 ^ 64 → ∀ ticket ∈ t.jobs.table.tickets,
          t.jobs.table.outcome? ticket = s.jobs.table.outcome? ticket) ∧
        step .singleThread s x =
          (⟨.refused (.invalidInput .blocksOnlyThread), t.settle.jobs.sent⟩, t.settle.clear) ∧
        (s.Reachable →
          step .singleThread s x = (⟨.refused (.invalidInput .blocksOnlyThread), []⟩, t))) ∧
    (∀ (s : Session) (x : Step), waits x = false →
      step .singleThread s x =
        (⟨.immediate (s.step x).1.answer, (s.step x).1.calls⟩, (s.step x).2)) ∧
    ∀ x, waits x = true ↔
      (∃ (call : JobCall) (label : String) (t : Treatment), x = call.step label t) ∨
      (∃ (call : KillCall) (label : String) (held : Bool) (fail : Option Error),
        x = call.step label held fail) ∨
      (∃ label, x = .list label) ∨ (∃ label options, x = .subscribe label options) ∨
      (∃ subscription kind, x = .next subscription kind) ∨
      ∃ label limit, x = .wait label limit := by
  refine ⟨fun s x h hx hthere => ?_, fun s x hx => step_of_not_waits hx,
    fun x => waits_eq_true_iff⟩
  refine ⟨refuse s x, leaves_refuse h hthere, fun hn ticket => outcome?_refuse h hn,
    step_of_waits hx hthere, fun hr => ?_⟩
  have hrest := settled_refuse hr x
  have hsilent : (refuse s x).jobs.sent = [] := by
    rw [← hrest.told]
    rfl
  rw [step_of_waits hx hthere, hrest.settle_eq, hrest.clear_eq, hsilent]

/-- Two have a handle of the same job, of which the first was superseded. A wait for that one is
refused, and so is a request that makes no sense. -/
theorem refused_calls_do_nothing_superseded :
    let s : Session := { options := {}, jobs := { feed := { capacity := 100 } } }
    let xs : List Step := [
      .start "a" "a" .replace (.method .start) [] false (.path ⟨"/job/1"⟩),
      .start "b" "b" .replace (.method .stop) [] false (.path ⟨"/job/1"⟩)]
    let t := s.after xs
    let wait : Step := .wait "a" (some (.ofSecs 0))
    let start : Step := .start "c" "" .replace (.method .start) [] false (.path ⟨"/job/2"⟩)
    (t.jobs.table.waiters.length = 2 ∧ (refuse t wait).jobs.table.waiters.length = 1 ∧
      (refuse t wait).jobs.table.entries = t.jobs.table.entries) ∧
      (∃ u, Leaves t wait u ∧
        step .singleThread t wait = (⟨.refused (.invalidInput .blocksOnlyThread), []⟩, u)) ∧
      (∃ u, Leaves t start u ∧
        step .singleThread t start = (⟨.refused (.invalidInput .blocksOnlyThread), []⟩, u)) ∧
      step .singleThread t .shutdown =
        (⟨.immediate (t.step .shutdown).1.answer, (t.step .shutdown).1.calls⟩,
          (t.step .shutdown).2) := by
  intro s xs t wait start
  obtain ⟨hrefused, hothers, -⟩ := refused_calls_do_nothing
  have hconnect : Session.connect? {} none = .ok s := rfl
  have ht : t.Reachable := (Session.Reachable.connect hconnect).after xs
  obtain ⟨u, hu, -, -, hwait⟩ := hrefused t wait ht.reached rfl (by decide +kernel)
  obtain ⟨v, hv, -, -, hstart⟩ := hrefused t start ht.reached rfl rfl
  exact ⟨by decide +kernel, ⟨u, hu, hwait ht⟩, ⟨v, hv, hstart ht⟩, hothers t .shutdown rfl⟩

end Blocking

end SystemdControl
