import SystemdControl.Proofs.Session.Tended

/-!
# Sessions come to rest

Pump, listener, calls, waits, pollers and readers go on until all of them have to wait. While the
clock stands still they cannot do so for ever, in whatever order they go on: each of their steps is
one of those that `Session.effort` says are left. A poller uses none up for nothing, as it puts its
alarm off to a later moment whenever it starts a fetch.

* `Session.Goes` is one step of someone, by turn or out of turn, and `Goes.effort_lt` says that it
  uses one up; `Session.Reached` are the states in which that is so, in the middle of everything;
* `Session.goes_settle`: to settle is to make such steps, by turns, after those have been roused
  whose time has come;
* `Session.AtRest`: nobody can go on at all;
* `Session.comes_to_rest`: sessions come to rest, and do so again after every millisecond.
-/

namespace SystemdControl.Session

open Relation (ReflTransGen)

variable {s t : Session} {x : Step}

/-! ## Steps of those who go on -/

/-- Someone who can go on does, whoever's turn it is, or the turn of someone who cannot is over. -/
inductive Goes (s : Session) : Session → Prop
  | job {actor : Actor} {jobs : Dispatcher} (h : s.jobs.move? s.now actor = some jobs) :
      Goes s { s with jobs }
  | jobTurn {actor : Actor} (hnext : s.jobs.agenda.next? = some actor)
      (h : s.jobs.move? s.now actor = none) : Goes s { s with jobs := s.jobs.pause actor }
  | watch {watcher : Watcher} {watch : Inventory} (h : s.watch.move? s.now watcher = some watch) :
      Goes s { s with watch }
  | watchTurn {watcher : Watcher} (hnext : s.watch.agenda.next? = some watcher)
      (h : s.watch.move? s.now watcher = none) : Goes s { s with watch := s.watch.pause watcher }

/-- A session in a state that some acts on either side have led to, in whatever order: calls, moves
by turn or out of turn, and time going on. -/
structure Reached (s : Session) : Prop where
  jobs : ∃ capacity, Dispatcher.Reaches { feed := { capacity } } s.jobs
  watch : Inventory.Reaches {} s.watch

/-- A bound on the steps that are possible while nobody comes and the clock stands still. -/
def effort (s : Session) : Nat :=
  s.jobs.effort s.now + s.watch.effort s.now

namespace Reached

theorem holds (h : s.Reached) : JobTable.Holds s.jobs.table s.jobs.core.tickets := by
  obtain ⟨capacity, hr⟩ := h.jobs
  exact hr.keeps (P := fun d => JobTable.Holds d.table d.core.tickets)
    (fun _ x hd => Dispatcher.holds_act hd x) .nil

theorem numbered (h : s.Reached) : s.watch.Numbered := by
  obtain ⟨xs, hxs⟩ := h.watch
  exact hxs ▸ Inventory.Numbered.empty.after xs

theorem of_reaches (h : s.Reached) (hj : Dispatcher.Reaches s.jobs t.jobs)
    (hw : Inventory.Reaches s.watch t.watch) : t.Reached := by
  obtain ⟨⟨capacity, hr⟩, hs⟩ := h
  exact ⟨⟨capacity, hr.trans hj⟩, hs.trans hw⟩

theorem goes (h : s.Reached) (hg : Goes s t) : t.Reached := by
  cases hg with
  | @job actor jobs hm =>
    have hact := Dispatcher.Reaches.act s.jobs (.move s.now actor)
    rw [Dispatcher.act, hm] at hact
    exact h.of_reaches hact (.refl _)
  | @jobTurn actor => exact h.of_reaches (.act s.jobs (.pause actor)) (.refl _)
  | @watch watcher watch hm =>
    have hact := Inventory.Reaches.act s.watch (.move s.now watcher)
    rw [Inventory.act, hm] at hact
    exact h.of_reaches (.refl _) hact
  | @watchTurn watcher hnext hm =>
    have hact := Inventory.Reaches.act s.watch (.turn s.now)
    rw [Inventory.act, Inventory.step?, hnext, Option.map_some, hm] at hact
    exact h.of_reaches (.refl _) hact

theorem advance (h : s.Reached) (n : Nat) : (s.advance n).Reached :=
  h.of_reaches (s.advance_reaches n) (s.advance_watches n)

end Reached

theorem Reachable.reached (h : s.Reachable) : s.Reached := by
  refine ⟨?_, h.tended.watch.reaches⟩
  induction h with
  | @connect s options h =>
    cases h
    exact ⟨options.capacity, .refl _⟩
  | step _ x ih => exact ih.imp fun _ hr => hr.trans (step_reaches _ x)
  | blocking _ executor x ih =>
    exact ih.imp fun _ hr => hr.trans (Blocking.step_reaches executor _ x)

/-- Every step of someone is one of those that were left. -/
theorem Goes.effort_lt (hg : Goes s t) (h : s.Reached) : t.effort < s.effort := by
  unfold effort
  cases hg with
  | job hm => exact Nat.add_lt_add_right (Dispatcher.effort_move?_lt h.holds hm) _
  | jobTurn hnext hm => exact Nat.add_lt_add_right (Dispatcher.effort_pause_lt h.holds hnext hm) _
  | watch hm => exact Nat.add_lt_add_left (Inventory.effort_move?_lt h.numbered.keys hm) _
  | watchTurn hnext => exact Nat.add_lt_add_left (Inventory.effort_pause_lt h.numbered.keys hnext) _

/-- No run is longer than the effort that is left. -/
theorem length_le_effort {ts : List Session} (h : s.Reached) (hc : (s :: ts).IsChain Goes) :
    ts.length ≤ s.effort := by
  induction ts generalizing s with
  | nil => exact Nat.zero_le _
  | cons t ts ih =>
    obtain ⟨hg, hc⟩ := List.isChain_cons_cons.1 hc
    exact Nat.lt_of_le_of_lt (ih (h.goes hg) hc) (hg.effort_lt h)

/-! ## Rest -/

/-- Nobody has a turn. -/
structure Idle (s : Session) : Prop where
  jobs : s.jobs.agenda.toList = []
  watch : s.watch.agenda.toList = []

/-- Nobody has a turn, and nobody could go on with one. -/
structure AtRest (s : Session) : Prop extends Idle s where
  actors : ∀ actor, s.jobs.move? s.now actor = none
  watchers : ∀ watcher, s.watch.move? s.now watcher = none

/-- All wait in a session if there is no further step. -/
theorem atRest_iff : s.AtRest ↔ ∀ t, ¬ Goes s t := by
  constructor
  · rintro ⟨⟨hj, hw⟩, hactors, hwatchers⟩ t hg
    cases hg with
    | job h => rw [hactors] at h; cases h
    | watch h => rw [hwatchers] at h; cases h
    | jobTurn hnext => rw [(Agenda.next?_eq_none_iff _).2 hj] at hnext; cases hnext
    | watchTurn hnext => rw [(Agenda.next?_eq_none_iff _).2 hw] at hnext; cases hnext
  · intro h
    have hactors : ∀ actor, s.jobs.move? s.now actor = none := fun actor =>
      Option.eq_none_iff_forall_ne_some.2 fun jobs hm => h _ (.job hm)
    have hwatchers : ∀ watcher, s.watch.move? s.now watcher = none := fun watcher =>
      Option.eq_none_iff_forall_ne_some.2 fun watch hm => h _ (.watch hm)
    refine ⟨⟨(Agenda.next?_eq_none_iff _).1 ?_, (Agenda.next?_eq_none_iff _).1 ?_⟩, hactors,
      hwatchers⟩
    · exact Option.eq_none_iff_forall_ne_some.2 fun actor hnext => h _ (.jobTurn hnext (hactors _))
    · exact Option.eq_none_iff_forall_ne_some.2 fun w hnext => h _ (.watchTurn hnext (hwatchers _))

/-- Whoever goes on, in whatever order, some steps later all wait. -/
theorem exists_atRest (h : s.Reached) : ∃ t, ReflTransGen Goes s t ∧ t.AtRest := by
  induction hn : s.effort using Nat.strong_induction_on generalizing s with
  | _ n ih =>
    subst hn
    by_cases hrest : s.AtRest
    · exact ⟨s, .refl, hrest⟩
    · rw [atRest_iff, not_forall_not] at hrest
      obtain ⟨u, hg⟩ := hrest
      obtain ⟨t, hsteps, ht⟩ := ih _ (hg.effort_lt h) (h.goes hg) rfl
      exact ⟨t, .head hg hsteps, ht⟩

/-! ## Settling -/

/-- Those have been roused whose time has come, and the end of listings has been noticed. -/
def rung (s : Session) : Session :=
  { s with
    watch := s.watch.alarm s.now
    jobs := (s.jobs.alarm s.now).withGuests (s.watch.alarm s.now).listing.length }

theorem goes_watch_steps (s : Session) (n : Nat) :
    ReflTransGen Goes s { s with watch := s.watch.steps s.now n } := by
  induction n generalizing s with
  | zero => exact .refl
  | succ n ih =>
    unfold Inventory.steps
    split
    · exact .refl
    · rename_i watch hs
      obtain ⟨watcher, hnext, rfl⟩ := Option.map_eq_some_iff.1 hs
      refine .head ?_ (ih { s with watch := (s.watch.move? s.now watcher).getD _ })
      cases hm : s.watch.move? s.now watcher with
      | none => exact .watchTurn hnext hm
      | some watch => exact .watch hm

theorem goes_job_steps (s : Session) (n : Nat) :
    ReflTransGen Goes s { s with jobs := s.jobs.steps s.now n } := by
  induction n generalizing s with
  | zero => exact .refl
  | succ n ih =>
    unfold Dispatcher.steps
    split
    · exact .refl
    · rename_i jobs hs
      obtain ⟨actor, hnext, rfl⟩ := Option.map_eq_some_iff.1 hs
      refine .head ?_ (ih { s with jobs := (s.jobs.move? s.now actor).getD _ })
      cases hm : s.jobs.move? s.now actor with
      | none => exact .jobTurn hnext hm
      | some jobs => exact .job hm

/-- To settle is to make steps, by turns, until nobody has a turn any more. -/
theorem goes_settle (s : Session) : ReflTransGen Goes s.rung s.settle := by
  have hlisting : (s.watch.settle s.now).listing = (s.watch.alarm s.now).listing :=
    Inventory.listing_steps ..
  have hsettle : s.settle = { s with
      watch := s.watch.settle s.now
      jobs := ((s.jobs.alarm s.now).withGuests (s.watch.alarm s.now).listing.length).settle
        s.now } := by
    rw [← hlisting]
    rfl
  rw [hsettle]
  exact (goes_watch_steps s.rung _).trans
    (goes_job_steps { s.rung with watch := s.watch.settle s.now } _)

theorem idle_settle (h : s.Reached) : s.settle.Idle where
  jobs := by
    refine (Agenda.next?_eq_none_iff _).1 (Dispatcher.next?_settle ?_ s.now)
    exact Dispatcher.holds_act (x := .withGuests _) (Dispatcher.holds_act h.holds (.alarm s.now))
  watch := (Agenda.next?_eq_none_iff _).1 (Inventory.next?_settle h.numbered s.now)

/-- A millisecond has gone by. -/
def tick (s : Session) : Session :=
  ({ s with now := s.now + millisecond } : Session).rung

theorem advance_succ (s : Session) (n : Nat) :
    s.advance (n + 1) = (s.advance n).moveTo ((s.advance n).now + millisecond) := by
  induction n generalizing s with
  | zero => rfl
  | succ n ih => exact ih (s.moveTo (s.now + millisecond))

theorem goes_advance (s : Session) (n : Nat) :
    ReflTransGen Goes (s.advance n).tick (s.advance (n + 1)) := by
  rw [advance_succ]
  exact goes_settle { s.advance n with now := (s.advance n).now + millisecond }

theorem idle_advance (h : s.Reached) (n : Nat) : (s.advance (n + 1)).Idle := by
  rw [advance_succ]
  exact idle_settle (s := { s.advance n with now := (s.advance n).now + millisecond })
    ⟨(h.advance n).jobs, (h.advance n).watch⟩

/-- If nobody was left without a turn before, nobody can go on after everything has. -/
theorem TendedApart.atRest (h : s.TendedApart)
    (hn : s.settle.jobs.table.registered ≤ 2 ^ 64) : s.settle.AtRest := by
  have hend := h.settle
  have hsettled := h.settled
  obtain ⟨⟨_, hj⟩, _, hw⟩ := h
  have hrest := (settle_calm hj.toSteady hj.heeded).rest
  have hstill := Inventory.settle_still hw.numbered hw.alert s.now
  exact {
    jobs := hrest.idle
    watch := hstill.idle
    actors := hrest.move?_eq_none (hend.jobs.briefed hn).informed
    watchers := hstill.move?_eq_none hend.watch.prompt hend.watch.attended }

/-- Sessions come to rest.

* From every state that anything can lead to, in whatever order it happens, no run of steps of those
  who can go on is longer than the effort that is left, and some run ends with all waiting.
* To settle is such a run. It starts when those have been roused whose time has come, and ends when
  nobody has a turn any more; and so it is after every millisecond that goes by.
* If the session was led to by steps of either interface, whatever was asked of it since, nobody
  could go on then who has no turn, among at most `2 ^ 64` registrations. -/
theorem comes_to_rest :
    (∀ s : Session, s.Reached →
      (∀ ts, (s :: ts).IsChain Goes → ts.length ≤ s.effort) ∧
      (∃ t, ReflTransGen Goes s t ∧ t.AtRest) ∧
      ReflTransGen Goes s.rung s.settle ∧ s.settle.Idle ∧
      ∀ n, ReflTransGen Goes (s.advance n).tick (s.advance (n + 1)) ∧ (s.advance (n + 1)).Idle) ∧
    ∀ (s : Session) (x : Step), s.Reachable →
      let t := (s.perform x).2
      t.Reached ∧ (t.settle.jobs.table.registered ≤ 2 ^ 64 → t.settle.AtRest) ∧
      ∀ n, (t.advance (n + 1)).jobs.table.registered ≤ 2 ^ 64 → (t.advance (n + 1)).AtRest := by
  refine ⟨fun s h => ⟨fun ts => length_le_effort h, exists_atRest h, goes_settle s, idle_settle h,
    fun n => ⟨goes_advance s n, idle_advance h n⟩⟩, fun s x h => ?_⟩
  have ht := h.tended.perform x
  refine ⟨h.reached.of_reaches (s.perform_reaches x) (s.perform_watches x), ht.apart.atRest,
    fun n => ?_⟩
  rw [advance_succ]
  exact TendedApart.atRest (s := { (s.perform x).2.advance n with
    now := ((s.perform x).2.advance n).now + millisecond }) (ht.advance n).apart

/-- The signal of a job is on its way, one waits for it, and two wait for changes of units. -/
theorem comes_to_rest_signal :
    let s : Session := { options := {}, jobs := { feed := { capacity := 100 } } }
    let xs : List Step := [.inventory [⟨.ok [.named "b" "loaded" "active"], 0⟩], .subscribe "u" {},
      .start "a" "a" .replace (.method .start) [] false (.path ⟨"/job/1"⟩), .wait "a" none,
      .await "r" "u", .await "q" "u"]
    let t := ((s.after xs).perform (.emit [.removed ⟨1, ⟨"/job/1"⟩, "a.service", .done⟩])).2
    (∀ ts, (t :: ts).IsChain Goes → ts.length ≤ 19) ∧
      ReflTransGen Goes t.rung t.settle ∧ t.settle.AtRest ∧
      ((s.after xs).jobs.waits.length = 1 ∧ t.settle.jobs.waits = []) ∧
      ReflTransGen Goes (t.advance 1).tick (t.advance 2) ∧ (t.advance 2).AtRest := by
  intro s xs t
  obtain ⟨hany, hown⟩ := comes_to_rest
  have hconnect : connect? {} none = .ok s := rfl
  have hs : (s.after xs).Reachable := (Reachable.connect hconnect).after xs
  obtain ⟨ht, hsettle, hadvance⟩ := hown _ (.emit [.removed ⟨1, ⟨"/job/1"⟩, "a.service", .done⟩]) hs
  obtain ⟨hlength, -, hgoes, -, hlater⟩ := hany t ht
  have heffort : t.effort = 19 := by decide +kernel
  refine ⟨heffort ▸ hlength, hgoes, hsettle (by decide +kernel), by decide +kernel, (hlater 1).1,
    hadvance 1 (by decide +kernel)⟩

end SystemdControl.Session
