import SystemdControl.Proofs.Job.Dispatcher.Inert
import SystemdControl.Proofs.Session.JobSide
import SystemdControl.Proofs.Session.Tended
import SystemdControl.Proofs.Session.WatchSide

/-!
# Extra signals change nothing

Two sessions that are asked the same, but for extra signals in the second one. Marks say which these
are, and `Strewn.follow?` watches over them: it has an answer if no signal of the second session is
lost, the listener takes only such extra signals as it can ignore at once, and it does not have a
turn for extra signals only when the end of a call makes pump and listener stop. Then both sessions
report the same after every step.

* `Step.strip` is a step without its extra signals, `Strewn.follow?` the marks after some steps;
* `Session.Abreast` is what two such sessions are between two steps, and `Abreast.step` says that
  they stay so and report the same;
* `Session.extra_signals_inert`: whatever the steps are.
-/

namespace SystemdControl

open Dispatcher (Act Lively Rest)

/-! ## Steps with extra signals -/

/-- A step without the signals that are marked. -/
def Step.strip (marks : List Bool) : Step → Step
  | .start label unit mode ask before held reply =>
    .start label unit mode ask (SystemdControl.strip marks before) held reply
  | .emit signals => .emit (SystemdControl.strip marks signals)
  | x => x

namespace Step

variable (marks : List Bool) (x : Step)

theorem isAdvance_strip : (x.strip marks).isAdvance = x.isAdvance := by
  cases x <;> rfl

theorem jobAct?_strip (now : Nat) :
    (x.strip marks).jobAct? now = (x.jobAct? now).map (·.strip marks) := by
  cases x <;> rfl

end Step

/-- The steps of a list, without the signals that are marked. -/
def stripped (zs : List (Step × List Bool)) : List Step :=
  zs.map fun z => z.1.strip z.2

/-- The dispatcher of a session before everything goes on. -/
def Session.settling (s : Session) : Dispatcher :=
  (s.jobs.alarm s.now).withGuests (s.watch.settle s.now).listing.length

namespace Strewn

/-- The marks after everything has gone on. -/
def settle? (m : Strewn) (s : Session) : Option Strewn :=
  m.steps? s.now s.settling.work s.settling

/-- The marks after some milliseconds. -/
def advance? : Nat → Session → Strewn → Option Strewn
  | 0, _, m => some m
  | n + 1, s, m =>
    let s : Session := { s with now := s.now + Session.millisecond }
    (m.settle? s).bind (advance? n s.settle)

/-- The marks after a step, before everything goes on. -/
def perform? (m : Strewn) (s : Session) (x : Step) (marks : List Bool) : Option Strewn :=
  match x with
  | .advance millis => advance? millis s m
  | x => some (m.act s.jobs (s.perform x).2.jobs marks)

/-- The marks after a step, whose own signals are marked. -/
def next? (m : Strewn) (s : Session) (x : Step) (marks : List Bool) : Option Strewn :=
  (m.perform? s x marks).bind fun m => m.settle? (s.perform x).2

/-- The marks after some steps, if all goes smoothly. -/
def follow? (m : Strewn) (s : Session) : List (Step × List Bool) → Option Strewn
  | [] => some m
  | (x, marks) :: zs => (m.next? s x marks).bind fun m => m.follow? (s.step x).2 zs

end Strewn

/-- Two reports that say the same, apart from how many signals were sent. -/
structure Report.Alike (r r' : Report) : Prop where
  answer : r.answer = r'.answer ∨ ∃ n n', r.answer = .sent n ∧ r'.answer = .sent n'
  listening : r.listening = r'.listening
  events : r.events = r'.events
  calls : r.calls = r'.calls

namespace Session

variable {m m' : Strewn} {s t : Session} {x : Step} {marks : List Bool}

/-! ## One session -/

theorem numbered_reaches {d d' : Dispatcher} (h : Dispatcher.Reaches d d') (hn : d.Numbered)
    (hd : d.ledger.Distinct) (ha : (d.room.guests.map Party.actor).Nodup) : d'.Numbered :=
  (h.keeps (P := fun d => d.Numbered ∧ d.ledger.Distinct ∧ (d.room.guests.map Party.actor).Nodup)
    (fun d x hp => ⟨Dispatcher.numbered_act hp.1 hp.2.1 hp.2.2 x,
      (d.act_exchange x).distinct hp.2.1, Dispatcher.actors_act hp.2.1 hp.2.2 x⟩)
    ⟨hn, hd, ha⟩).1

/-- A session in which everybody waits, and whose calls are numbered. -/
structure Poised (s : Session) : Prop extends s.Calm, s.Tended where
  still : s.watch.Still s.now
  numbered : s.jobs.Numbered

namespace Poised

theorem connect {options : BusOptions} (h : connect? options none = .ok s) : s.Poised where
  toCalm := .connect h
  toTended := tended_connect h
  still := still_connect h
  numbered u hu := by
    cases h
    cases hu

/-- After everything has gone on everybody waits again. -/
theorem settle (h : s.Poised) (ht : t.TendedApart) (hr : Dispatcher.Reaches s.jobs t.jobs) :
    t.settle.Poised := by
  have htended := ht.settle
  obtain ⟨⟨_, hj⟩, _, hw⟩ := ht
  exact {
    settle_calm hj.toSteady hj.heeded, htended with
    still := Inventory.settle_still hw.numbered hw.alert t.now
    numbered :=
      numbered_reaches (hr.trans t.settle_reaches) h.numbered h.rest.distinct h.rest.actors }

theorem moveTo (h : s.Poised) (now : Nat) : (s.moveTo now).Poised :=
  h.settle (t := { s with now }) h.apart (.refl _)

theorem clear (h : s.Poised) : s.clear.Poised where
  toCalm := clear_calm h.toCalm
  toTended := h.toTended.clear
  still := still_clear h.still
  numbered := h.numbered

theorem lively_moveTo (h : s.Poised) (now : Nat) : Lively now ({ s with now } : Session).settling :=
  h.rest.lively now _

theorem lively_perform (h : s.Poised) (hx : x.isAdvance = false) :
    Lively s.now (s.perform x).2.settling := by
  rw [settling, perform_now s hx, perform_jobs s hx]
  cases hj : x.jobAct? s.now with
  | none => exact h.rest.lively s.now _
  | some y => exact h.rest.lively_act h.numbered (Step.isCall_jobAct? hj).1 _

/-- Nobody is roused by the clock or by the listings when nothing was asked but to emit signals. -/
theorem settling_emit (h : s.Poised) (signals : List Signal) :
    ({ s with jobs := s.jobs.act (.emit signals) } : Session).settling =
      s.jobs.act (.emit signals) := by
  have hguests : (s.jobs.act (.emit signals)).guests = s.jobs.guests :=
    Dispatcher.guests_act rfl nofun
  have hwaits : (s.jobs.act (.emit signals)).waits = s.jobs.waits :=
    congrArg Core.waits (Dispatcher.core_emitSignals s.jobs signals)
  show ((s.jobs.act (.emit signals)).alarm s.now).withGuests
    (s.watch.settle s.now).listing.length = _
  rw [h.still.settle, ← h.guests, ← hguests]
  exact Dispatcher.rouse_none (hwaits ▸ h.isOver_eq_false) (Dispatcher.heeded_act h.heeded _)

end Poised

/-- To emit nothing is nothing. -/
theorem Settled.step_emit_nil (h : s.Settled) :
    s.step (.emit []) = (⟨.sent 0, s.jobs.listening?, [], []⟩, s) := by
  have hjobs : s.jobs.emitSignals [] = s.jobs := by
    show ({ s.jobs with feed := s.jobs.feed.emit [] } : Dispatcher) = s.jobs
    rw [Feed.emit_nil]
  have hperform : s.perform (.emit []) = (.sent 0, s) := by
    show (Answer.sent (if s.jobs.feed.accepts then 0 else 0),
      ({ s with jobs := s.jobs.emitSignals [] } : Session)) = _
    rw [hjobs, ite_self]
  have hsilent : s.jobs.sent = [] ∧ s.jobs.events = [] := by
    rw [← h.told]
    exact ⟨rfl, rfl⟩
  have hevents : s.events = [] := by
    rw [events, hsilent.2, h.read]
    exact List.mergeSort_nil
  rw [Session.step, hperform]
  dsimp only
  rw [h.settle_eq, h.clear_eq, hevents, hsilent.1]

theorem perform_options (s : Session) (x : Step) : (s.perform x).2.options = s.options := by
  cases x with
  | drop label =>
    show (s.drop label).2.options = s.options
    unfold drop
    split
    · split <;> rfl
    · rfl
  | subscribe label options =>
    simp only [perform]
    split <;> rfl
  | pollStream label =>
    simp only [perform]
    split <;> rfl
  | next | await | openStream | cancel | isCancelled | tryNextError =>
    show (s.withHeld _ _).2.options = s.options
    unfold withHeld
    split <;> rfl
  | advance millis =>
    show (s.advance millis).options = s.options
    induction millis generalizing s with
    | zero => rfl
    | succ n ih => exact ih (s.moveTo (s.now + millisecond))
  | _ => rfl

/-! ## Two sessions -/

/-- Two sessions that are the same apart from their jobs. -/
structure Same (s t : Session) : Prop where
  now : s.now = t.now
  watch : s.watch = t.watch
  options : s.options = t.options

namespace Same

theorem eq (h : Same s t) : s = { t with jobs := s.jobs } := by
  obtain ⟨options, now, jobs, watch⟩ := s
  obtain ⟨rfl, rfl, rfl⟩ := h
  rfl

/-- The clock and the listings are looked at in both. -/
theorem settling (h : Same s t) (hj : Dispatcher.Abreast m s.jobs t.jobs) :
    Dispatcher.Abreast m s.settling t.settling := by
  unfold Session.settling
  rw [h.now, h.watch]
  exact (hj.alarm t.now).withGuests _

theorem settle (h : Same s t) : Same s.settle t.settle where
  now := h.now
  watch := by
    show s.watch.settle s.now = t.watch.settle t.now
    rw [h.watch, h.now]
  options := h.options

theorem clear (h : Same s t) : Same s.clear t.clear where
  now := h.now
  watch := congrArg (fun watch : Inventory => { watch with events := [] }) h.watch
  options := h.options

section

variable (h : Same s t) (hdrop : ∀ label, (s.jobs.drop label).1 = (t.jobs.drop label).1)
include h hdrop

/-- What a step asks of the inventory. -/
theorem watchAct?_strip (marks : List Bool) (x : Step) :
    s.watchAct? (x.strip marks) = t.watchAct? x := by
  rw [h.eq]
  generalize s.jobs = jobs at hdrop
  cases x with
  | drop label => simp only [Step.strip, watchAct?, hdrop]
  | _ => rfl

theorem perform (hx : x.isAdvance = false) (marks : List Bool) :
    Same (s.perform (x.strip marks)).2 (t.perform x).2 := by
  have hx' : (x.strip marks).isAdvance = false := (x.isAdvance_strip marks).trans hx
  have hne : ∀ {y : Step}, y.isAdvance = false → ∀ millis, y ≠ .advance millis :=
    fun hy millis he => by rw [he] at hy; cases hy
  constructor
  · rw [perform_now s hx', perform_now t hx, h.now]
  · rw [s.perform_watch (hne hx'), t.perform_watch (hne hx), h.watchAct?_strip hdrop, h.watch]
  · rw [perform_options, perform_options, h.options]

end

end Same

/-- Two such sessions before everything goes on, of which the second one has extra signals to
move. -/
structure Astir (m : Strewn) (s t : Session) : Prop extends Same s t where
  jobs : Dispatcher.Beside m s.settling t.settling
  ending : m.Ending t.settling
  left : Lively s.now s.settling
  right : Lively t.now t.settling

/-- Everything goes on in both. -/
theorem Astir.settle (h : Astir m s t) (hm : m.settle? t = some m') :
    Dispatcher.Beside m' s.settle.jobs t.settle.jobs ∧ m'.Ending t.settle.jobs := by
  have hleft := h.left
  rw [h.now] at hleft
  show Dispatcher.Beside m' (s.settling.settle s.now) (t.settling.settle t.now) ∧
    m'.Ending (t.settling.settle t.now)
  rw [h.now]
  exact h.jobs.settle hleft h.right h.ending hm

/-- Two such sessions when everybody waits. -/
structure Abreast (m : Strewn) (s t : Session) : Prop extends Same s t where
  jobs : Dispatcher.Abreast m s.jobs t.jobs
  left : s.Poised
  right : t.Poised

/-- The same ones have a turn in both when everybody waits: nobody has. -/
theorem Astir.abreast (h : Astir m s t) (hm : m.settle? t = some m') (hs : s.settle.Poised)
    (ht : t.settle.Poised) : Abreast m' s.settle t.settle where
  toSame := h.toSame.settle
  jobs :=
    have ⟨hbeside, hending⟩ := h.settle hm
    { hbeside with
      agenda := by rw [hs.rest.idle, ht.rest.idle]
      finished := fun hfin => (hending hfin).elim id fun ⟨hstop, ha⟩ =>
        have hfree : t.settle.jobs.underWay = none := by
          by_contra hu
          exact nomatch ha.symm.trans (Dispatcher.not_abandoned_of_underWay hu)
        ht.rest.listener_eq_stopped hfree (.inl hstop) }
  left := hs
  right := ht

namespace Abreast

theorem drop_eq (h : Abreast m s t) (label : String) :
    (s.jobs.drop label).1 = (t.jobs.drop label).1 :=
  (h.jobs.all.drop h.right.rest.actors label).1

/-! ### Time goes on -/

theorem settling (h : Abreast m s t) (now : Nat) :
    Dispatcher.Abreast m ({ s with now } : Session).settling ({ t with now } : Session).settling :=
  Same.settling (s := { s with now }) (t := { t with now }) ⟨rfl, h.watch, h.options⟩ h.jobs

theorem astir (h : Abreast m s t) (now : Nat) : Astir m { s with now } { t with now } where
  now := rfl
  watch := h.watch
  options := h.options
  jobs := (h.settling now).toBeside
  ending := (h.settling now).ending
  left := h.left.lively_moveTo now
  right := h.right.lively_moveTo now

theorem astir_now (h : Abreast m s t) : Astir m s t := by
  have hs : ({ s with now := t.now } : Session) = s := by rw [← h.now]
  exact hs ▸ h.astir t.now

theorem moveTo (h : Abreast m s t) (now : Nat) (hm : m.settle? { t with now } = some m') :
    Abreast m' (s.moveTo now) (t.moveTo now) :=
  (h.astir now).abreast hm (h.left.moveTo now) (h.right.moveTo now)

theorem advance (h : Abreast m s t) (n : Nat) (hm : Strewn.advance? n t m = some m') :
    Abreast m' (s.advance n) (t.advance n) := by
  induction n generalizing m s t with
  | zero =>
    cases hm
    exact h
  | succ n ih =>
    obtain ⟨m₁, hm₁, hm⟩ := Option.bind_eq_some_iff.1 hm
    have hnext := h.moveTo (t.now + millisecond) hm₁
    exact ih (s := s.moveTo (s.now + millisecond)) (h.now ▸ hnext) hm

/-! ### A step -/

/-- What a step asks of the jobs, before the clock and the listings are looked at. -/
theorem perform_jobs (h : Abreast m s t) (hx : x.isAdvance = false)
    (hemit : ∀ signals, x ≠ .emit signals) (marks : List Bool) :
    Dispatcher.Abreast (m.act t.jobs (t.perform x).2.jobs marks) (s.perform (x.strip marks)).2.jobs
      (t.perform x).2.jobs := by
  have hd := h.right.rest.distinct
  have hn := h.right.numbered
  rw [Session.perform_jobs t hx, Session.perform_jobs s ((x.isAdvance_strip marks).trans hx),
    x.jobAct?_strip marks, h.now]
  cases hy : x.jobAct? t.now with
  | none =>
    show Dispatcher.Abreast (m.act t.jobs t.jobs marks) s.jobs t.jobs
    rw [m.act_of_load_eq marks rfl]
    exact h.jobs.mark hd hn marks
  | some y =>
    refine h.jobs.act hd hn h.right.rest.actors (Step.isCall_jobAct? hy).1 (fun signals he => ?_)
      marks
    rw [he] at hy
    cases x with
    | emit signals' => exact hemit signals' rfl
    | _ => cases hy

/-- What a step asks, when clock and listings have been looked at. -/
theorem perform_settling (h : Abreast m s t) (hx : x.isAdvance = false) (marks : List Bool) :
    Dispatcher.Beside (m.act t.jobs (t.perform x).2.jobs marks)
        (s.perform (x.strip marks)).2.settling (t.perform x).2.settling ∧
      (m.act t.jobs (t.perform x).2.jobs marks).Ending (t.perform x).2.settling := by
  by_cases hemit : ∃ signals, x = .emit signals
  · obtain ⟨signals, rfl⟩ := hemit
    have hleft := h.left.settling_emit (strip marks signals)
    have hright := h.right.settling_emit signals
    show Dispatcher.Beside (m.act t.jobs (t.jobs.act (.emit signals)) marks)
        ({ s with jobs := s.jobs.act (.emit (strip marks signals)) } : Session).settling
        ({ t with jobs := t.jobs.act (.emit signals) } : Session).settling ∧
      (m.act t.jobs (t.jobs.act (.emit signals)) marks).Ending
        ({ t with jobs := t.jobs.act (.emit signals) } : Session).settling
    rw [hleft, hright]
    exact ⟨h.jobs.emit (h.now ▸ h.left.rest) h.right.rest h.right.numbered marks signals,
      fun hfin => .inl ((Dispatcher.listener_act rfl).trans (h.jobs.finished hfin))⟩
  · have hsettling := (h.toSame.perform h.drop_eq hx marks).settling
      (h.perform_jobs hx (fun signals he => hemit ⟨signals, he⟩) marks)
    exact ⟨hsettling.toBeside, hsettling.ending⟩

/-- What a step asks leaves both ready to go on. -/
theorem perform (h : Abreast m s t) (hx : x.isAdvance = false) (marks : List Bool) :
    Astir (m.act t.jobs (t.perform x).2.jobs marks) (s.perform (x.strip marks)).2
      (t.perform x).2 where
  toSame := h.toSame.perform h.drop_eq hx marks
  jobs := (h.perform_settling hx marks).1
  ending := (h.perform_settling hx marks).2
  left := by
    rw [perform_now s ((x.isAdvance_strip marks).trans hx)]
    exact h.left.lively_perform ((x.isAdvance_strip marks).trans hx)
  right := by
    rw [perform_now t hx]
    exact h.right.lively_perform hx

/-- What is answered at once. -/
theorem perform_answer (h : Abreast m s t) (x : Step) (marks : List Bool) :
    (s.perform (x.strip marks)).1 = (t.perform x).1 ∨
      ∃ n n', (s.perform (x.strip marks)).1 = .sent n ∧ (t.perform x).1 = .sent n' := by
  have hall := h.jobs.all
  cases x with
  | emit signals => exact .inr ⟨_, _, rfl, rfl⟩
  | release label => exact .inl (congrArg Answer.released (hall.release label).1)
  | wait label limit =>
    have hwait := (hall.wait t.now label limit).1
    refine .inl ?_
    show (if (s.jobs.wait s.now label limit).1 then Answer.ok else .missing) =
      if (t.jobs.wait t.now label limit).1 then .ok else .missing
    rw [h.now, hwait]
  | dropHolder label => exact .inl (congrArg Answer.removed (hall.dropHolder label).1)
  | drop label =>
    refine .inl (congrArg Answer.dropped ?_)
    show (s.drop label).1 = (t.drop label).1
    have hdrop := h.drop_eq label
    by_cases hmissing : (t.jobs.drop label).1 = .missing
    · exact (drop_congr h.watch h.now (hdrop.trans hmissing) hmissing).1
    · rw [drop_of_hit hmissing, drop_of_hit (hdrop ▸ hmissing), hdrop]
  | options => exact .inl (congrArg Answer.options h.options)
  | start | kill | disconnect | shutdown | clone => exact .inl rfl
  | _ => exact .inl (perform_congr h.watch h.now rfl rfl).1

theorem clear (h : Abreast m s t) : Abreast m s.clear t.clear where
  toSame := h.toSame.clear
  jobs := by
    have htwins := h.jobs.twins_act h.right.rest.actors (x := .clear) rfl nofun nofun
    exact h.jobs.frame htwins rfl rfl rfl
  left := h.left.clear
  right := h.right.clear

/-- What is reported when everything has gone on. -/
theorem alike (h : Abreast m s t) {answer answer' : Answer}
    (ha : answer = answer' ∨ ∃ n n', answer = .sent n ∧ answer' = .sent n') :
    Report.Alike ⟨answer, s.jobs.listening?, s.events, s.jobs.sent⟩
      ⟨answer', t.jobs.listening?, t.events, t.jobs.sent⟩ where
  answer := ha
  listening := h.jobs.all.listening?_eq
  events := by
    show s.events = t.events
    rw [events, events, h.jobs.all.events_eq, h.watch]
  calls := h.jobs.all.sent_eq

/-- A step is the same in both, apart from the extra signals. -/
theorem step (h : Abreast m s t) (hm : m.next? t x marks = some m') :
    (s.step (x.strip marks)).1.Alike (t.step x).1 ∧
      Abreast m' (s.step (x.strip marks)).2 (t.step x).2 := by
  obtain ⟨m₁, hperform, hsettle⟩ := Option.bind_eq_some_iff.1 hm
  have hastir : Astir m₁ (s.perform (x.strip marks)).2 (t.perform x).2 := by
    cases hx : x.isAdvance with
    | false =>
      have hm₁ : m.act t.jobs (t.perform x).2.jobs marks = m₁ := by
        cases x with
        | advance => cases hx
        | _ => exact Option.some.inj hperform
      exact hm₁ ▸ h.perform hx marks
    | true =>
      cases x with
      | advance millis => exact (h.advance millis hperform).astir_now
      | _ => cases hx
  have hlater := hastir.abreast hsettle
    (h.left.settle (h.left.toTended.perform _).apart (s.perform_reaches _))
    (h.right.settle (h.right.toTended.perform x).apart (t.perform_reaches x))
  exact ⟨hlater.alike (h.perform_answer x marks), hlater.clear⟩

/-- So are all steps of a list, if they go smoothly. -/
theorem follow {zs : List (Step × List Bool)} (h : Abreast m s t) (hm : m.follow? t zs = some m') :
    List.Forall₂ Report.Alike (s.run (stripped zs)) (t.run (zs.map Prod.fst)) ∧
      Abreast m' (s.after (stripped zs)) (t.after (zs.map Prod.fst)) := by
  induction zs generalizing m s t with
  | nil =>
    cases hm
    exact ⟨.nil, h⟩
  | cons z zs ih =>
    obtain ⟨x, marks⟩ := z
    obtain ⟨m₁, hnext, hm⟩ := Option.bind_eq_some_iff.1 hm
    obtain ⟨halike, hlater⟩ := h.step hnext
    obtain ⟨hrun, hafter⟩ := ih hlater hm
    exact ⟨.cons halike hrun, hafter⟩

end Abreast

/-! ## All steps -/

/-- The steps up to some point go smoothly if all do. -/
theorem follow?_append (m : Strewn) (s : Session) (ys zs : List (Step × List Bool)) :
    m.follow? s (ys ++ zs) =
      (m.follow? s ys).bind fun m => m.follow? (s.after (ys.map Prod.fst)) zs := by
  induction ys generalizing m s with
  | nil => rfl
  | cons y ys ih =>
    obtain ⟨x, marks⟩ := y
    simp only [List.cons_append, Strewn.follow?, Option.bind_assoc, ih]
    rfl

theorem Abreast.connect {options : BusOptions} (h : connect? options none = .ok s) :
    Abreast {} s s where
  now := rfl
  watch := rfl
  options := rfl
  left := .connect h
  right := .connect h
  jobs := by
    cases h
    exact Dispatcher.abreast_of_twins ⟨_, _, rfl, rfl⟩ (fun _ => ⟨rfl, rfl⟩) nofun

/-- Extra signals change nothing. Whatever else is asked of the session, all reports are those of the
session without these signals, and so are table, listener and those who wait after each step. A step
that emits nothing but extra signals leaves that session as it is. The listener takes a signal that
cannot be decoded whoever holds the gate, and at a free gate it ignores one whose path has no
registration or has its result already. -/
theorem extra_signals_inert {options : BusOptions} (h : connect? options none = .ok s)
    {zs : List (Step × List Bool)} {m : Strewn} (hm : Strewn.follow? {} s zs = some m) :
    List.Forall₂ Report.Alike (s.run (stripped zs)) (s.run (zs.map Prod.fst)) ∧
    (∀ ys, ys <+: zs →
      let t := s.after (stripped ys)
      let u := s.after (ys.map Prod.fst)
      t.jobs.table = u.jobs.table ∧ t.jobs.listener = u.jobs.listener ∧
        t.jobs.waits = u.jobs.waits ∧ t.jobs.handles = u.jobs.handles ∧ t.watch = u.watch ∧
        t.now = u.now ∧ t.step (.emit []) = (⟨.sent 0, t.jobs.listening?, [], []⟩, t)) ∧
    (∀ (d : Dispatcher) error feed, d.listener = .ready →
      d.feed.take? = some (.undecodable error, feed) → d.moveListener? = some { d with feed }) ∧
    ∀ (d : Dispatcher) event, d.gateFree = true →
      (∀ e ∈ d.table.entries, e.ticket.path = event.jobPath → e.slot = .resolved) →
      d.ignores (.removed event) = true := by
  have hstart := Abreast.connect h
  refine ⟨(hstart.follow hm).1, fun ys hys => ?_, fun d error feed hl ht => ?_,
    fun d event hg => Dispatcher.ignores_removed hg⟩
  · obtain ⟨zs, rfl⟩ := hys
    rw [follow?_append] at hm
    obtain ⟨m₁, hm₁, -⟩ := Option.bind_eq_some_iff.1 hm
    have hlater := (hstart.follow hm₁).2
    have hall := hlater.jobs.all
    exact ⟨hall.table_eq, hall.listener_eq, hall.waits_eq, hall.handles_eq, hlater.watch,
      hlater.now, ((Settled.connect h).after (stripped ys)).step_emit_nil⟩
  · simp only [Dispatcher.moveListener?, hl, ht]

/-- Signals that cannot be decoded and signals for other jobs, while a call is in flight, while one
waits, after its job has its result, and when the session has been shut down. -/
theorem extra_signals_inert_eight :
    let s : Session := { options := {}, jobs := { feed := { capacity := 100 } } }
    let undecodable : Signal := .undecodable (.dbus "SignalDecode" "body")
    let removed (path : String) : Signal := .removed ⟨1, ⟨path⟩, "a.service", .done⟩
    let zs : List (Step × List Bool) :=
      [(.emit [removed "/other", undecodable], [true, true]),
        (.start "a" "a" .replace (.method .start) [undecodable, removed "/job/1"] true
          (.path ⟨"/job/1"⟩), [true, false]),
        (.emit [undecodable], [true]),
        (.release "a", []),
        (.wait "a" none, []),
        (.emit [removed "/job/1"], [true]),
        (.advance 1, []),
        (.shutdown, [])]
    ∃ m, connect? {} none = .ok s ∧ Strewn.follow? {} s zs = some m ∧
      List.Forall₂ Report.Alike (s.run (stripped zs)) (s.run (zs.map Prod.fst)) := by
  intro s undecodable removed zs
  have hsome : (Strewn.follow? {} s zs).isSome = true := by decide +kernel +zetaReduce
  obtain ⟨m, hm⟩ := Option.isSome_iff_exists.1 hsome
  have hconnect : connect? {} none = .ok s := rfl
  have hinert := extra_signals_inert hconnect hm
  exact ⟨m, hconnect, hm, hinert.1⟩

/-- When the end of the last call makes pump and listener stop, it matters that an extra signal has
given the listener a turn: it stops before the pump brings the result of the first job. -/
theorem extra_turn_at_the_end :
    let s : Session := { options := {}, jobs := { feed := { capacity := 100 } } }
    let call (name : String) (before : List Signal) (held : Bool) (path : String) : Step :=
      .start name name .replace (.method .start) before held (.path ⟨path⟩)
    let zs : List (Step × List Bool) :=
      [(call "a" [] true "/job/1", []),
        (call "b" [.undecodable (.dbus "SignalDecode" "body")] false "/job/2", [true]),
        (call "c" [.removed ⟨1, ⟨"/job/1"⟩, "a.service", .done⟩] false "/job/3", []),
        (.dropHolder "main", []),
        (.release "a", [])]
    let outcome? (s : Session) : Option (Except Error JobResult) :=
      (s.jobs.handles.get? "a").bind fun handle => s.jobs.table.outcome? handle.ticket
    connect? {} none = .ok s ∧ Strewn.follow? {} s zs = none ∧
      outcome? (s.after (stripped zs)) = some (.ok .done) ∧
      outcome? (s.after (zs.map Prod.fst)) = some (.error (.listenerStopped "/job/1")) := by
  intro s call zs outcome?
  refine ⟨rfl, ?_, ?_, ?_⟩ <;> decide +kernel +zetaReduce

end Session

end SystemdControl
