import SystemdControl.Proofs.Job.Dispatcher.Beside.Step

/-!
# Extra signals change nothing

A dispatcher with extra signals to move, and one without them. They are beside each other when both
have to wait, and so after whatever is asked of them then.

* `Dispatcher.Beside.step`: a step of the second one is one of the first one too, or nothing to it;
* `Dispatcher.Beside.steps`: so they are beside each other after all their steps, however many each
  of them makes;
* `Dispatcher.Abreast` is what they are when both wait, and `Abreast.act` what they are after a call
  of the interface.
-/

namespace SystemdControl

namespace Dispatcher

variable {m m' : Strewn} {s t s' t' : Dispatcher} {now : Nat}

/-! ## What is known of both -/

/-- When all have been called whose time has come, everything can go on. -/
theorem Lively.of_orderly (h : Steady now s) (ho : s.Orderly) (hp : s.Purposeful)
    (later guests : Nat) : Lively later ((s.alarm later).withGuests guests) where
  toSteady := (h.alarm later).act (x := .withGuests guests) rfl
  toOrdered :=
    have halarm : ({ s.alarm later with guests } : Dispatcher).Orderly :=
      (ho.rouseWaits _).frame rfl rfl rfl rfl rfl
    halarm.stopIfAbandoned.ordered
  purposeful :=
    have halarm : ({ s.alarm later with guests } : Dispatcher).Purposeful := hp.rouseWaits _
    halarm.stopIfAbandoned

theorem Rest.lively (h : Rest now s) (later guests : Nat) :
    Lively later ((s.alarm later).withGuests guests) :=
  .of_orderly h.toSteady h.orderly (fun _ actor hm => by rw [h.idle] at hm; cases hm) later guests

theorem Rest.lively_act (h : Rest now s) (hn : s.Numbered) {x : Act} (hx : x.isCall = true)
    (guests : Nat) : Lively now (((s.act x).alarm now).withGuests guests) :=
  .of_orderly (h.toSteady.act hx) (h.orderly_act hn hx) (h.purposeful_act hx) now guests

/-! ## While everything goes on -/

theorem steps_succ (hs : s.step? now = some s') (n : Nat) :
    steps now (n + 1) s = steps now n s' := by
  rw [steps, hs]

theorem steps_of_none (hs : s.step? now = none) (n : Nat) : steps now n s = s := by
  cases n with
  | zero => rfl
  | succ n => rw [steps, hs]

namespace Beside

/-- A step of the second one is one of the first one, or nothing to it. -/
theorem step (h : Beside m s t) (hs : Lively now s) (ht : Lively now t) (ho : m.Ending t)
    (hhead : ∀ actor, s.agenda.next? = some actor → s.busy m.finished actor = true)
    (hstep : t.step? now = some t') (hsm : m.Smooth t t') :
    Beside (m.step t t') s t' ∨
      ∃ s', s.step? now = some s' ∧ Beside (m.step t t') s' t' := by
  have hkeep := (step?_coasts hstep).stays_stopping
  obtain ⟨actor, hnext, -⟩ := step?_cases hstep
  have hturn : s.busy m.finished actor = true → s.agenda.next? = some actor :=
    h.next?_eq hhead hnext
  obtain rfl : (t.move? now actor).getD (t.pause actor) = t' :=
    Option.some.inj ((step?_eq hnext).symm.trans hstep)
  have hmove : Beside (m.step t ((t.move? now actor).getD (t.pause actor))) s
        ((t.move? now actor).getD (t.pause actor)) ∨
      s.agenda.next? = some actor ∧
        Beside (m.step t ((t.move? now actor).getD (t.pause actor)))
          ((s.move? now actor).getD (s.pause actor))
          ((t.move? now actor).getD (t.pause actor)) := by
    cases actor with
    | pump => exact h.step_pump hs ht hnext hturn hsm
    | listener => exact h.step_listener hs ht ho hnext hturn hsm
    | call number => exact .inr ⟨hturn rfl, h.both_call hs ht ho (hturn rfl) hnext hkeep hsm⟩
    | wait ticket => exact .inr ⟨hturn rfl, h.both_wait ht.toSteady (hturn rfl) hnext⟩
  exact hmove.imp_right fun ⟨hn, hbeside⟩ => ⟨_, step?_eq hn, hbeside⟩

/-- Both make all their steps. -/
theorem steps {k n : Nat} (h : Beside m s t) (hs : Lively now s) (ht : Lively now t)
    (ho : m.Ending t) (hk : s.effort now < k) (hn : t.effort now < n)
    (hm : m.steps? now n t = some m') :
    Beside m' (Dispatcher.steps now k s) (Dispatcher.steps now n t) ∧
      m'.Ending (Dispatcher.steps now n t) := by
  -- by induction on the steps of the first one, and on those of the second one in between
  induction k generalizing m s t n with
  | zero => exact absurd hk (Nat.not_lt_zero _)
  | succ k ihk =>
    induction n generalizing m t with
    | zero => exact absurd hn (Nat.not_lt_zero _)
    | succ n ihn =>
      by_cases hhead : ∀ actor, s.agenda.next? = some actor → s.busy m.finished actor = true
      · cases ht' : t.step? now with
        | none =>
          have hdone : s.step? now = none := by
            rw [step?, Option.map_eq_none_iff]
            by_contra hne
            obtain ⟨actor, hactor⟩ := Option.ne_none_iff_exists'.1 hne
            have ha := h.twins.agenda_eq
            rw [(Agenda.next?_eq_none_iff _).1 (Option.map_eq_none_iff.1 ht'),
              Agenda.toList_eq_cons hactor, List.filter_cons_of_pos (hhead actor hactor)] at ha
            cases ha
          rw [Strewn.steps?, ht'] at hm
          cases hm
          rw [steps_of_none hdone, steps_of_none ht']
          exact ⟨h, ho⟩
        | some t' =>
          rw [Strewn.steps?, ht'] at hm
          rw [steps_succ ht']
          dsimp only at hm
          split at hm
          · rename_i hsm
            have ho' := ho.step ht'
            have hn' := effort_lt ht.holds ht'
            rcases h.step hs ht ho hhead ht' hsm with hright | ⟨s', hs', hboth⟩
            · exact ihn hright (ht.step? ht') ho' (by omega) hm
            · have hk' := effort_lt hs.holds hs'
              rw [steps_succ hs']
              exact ihk hboth (hs.step? hs') (ht.step? ht') ho' (by omega) (by omega) hm
          · cases hm
      · -- the first one ends a turn in which it has nothing to do
        simp only [not_forall] at hhead
        obtain ⟨actor, hactor, hidle⟩ := hhead
        obtain ⟨s', hs', hleft⟩ := h.left hs.toSteady hactor (Bool.eq_false_iff.2 hidle)
        have hk' := effort_lt hs.holds hs'
        rw [steps_succ hs']
        exact ihk hleft (hs.step? hs') ht ho (by omega) hn hm

/-- Both go on until they have to wait. -/
theorem settle (h : Beside m s t) (hs : Lively now s) (ht : Lively now t) (ho : m.Ending t)
    (hm : m.steps? now t.work t = some m') :
    Beside m' (s.settle now) (t.settle now) ∧ m'.Ending (t.settle now) :=
  h.steps hs ht ho (effort_lt_work now s) (effort_lt_work now t) hm

end Beside

/-! ## Calls of the interface -/

/-- Only moves of the listener change what it is doing. -/
theorem listener_act {x : Act} (hx : x.isCall = true) : (s.act x).listener = s.listener :=
  (act_apart (fun now he => by rw [he] at hx; cases hx)
    fun now he => by rw [he] at hx; cases hx).listener

/-- What is asked, without the signals that are marked. -/
def Act.strip (marks : List Bool) : Act → Act
  | .start label request before held reply =>
    .start label request (SystemdControl.strip marks before) held reply
  | .emit signals => .emit (SystemdControl.strip marks signals)
  | x => x

/-- Two states beside each other in which the same ones have a turn. Where all is over the listener
has stopped. -/
structure Abreast (m : Strewn) (s t : Dispatcher) : Prop extends Beside m s t where
  agenda : s.agenda.toList = t.agenda.toList
  finished : m.finished = true → t.listener = .stopped

theorem abreast_of_twins (h : Twins m.before (fun _ => true) s t)
    (hf : s.listener ≠ .stopped → s.feed = t.feed.without m.line ∧ m.line.length = t.feed.load)
    (ho : m.finished = true → t.listener = .stopped) : Abreast m s t := by
  have ha := h.agenda_eq
  rw [List.filter_true, List.filter_true] at ha
  exact ⟨.of_feed_eq (h.mono fun _ _ => rfl) hf, ha, ho⟩

namespace Abreast

section

variable (h : Abreast m s t)
include h

theorem ending : m.Ending t := fun hfin => .inl (h.finished hfin)

/-- The feeds differ in the extra signals alone. -/
theorem without (hl : s.listener ≠ .stopped) :
    s.feed = t.feed.without m.line ∧ m.line.length = t.feed.load :=
  have hfin : m.finished = false := Bool.eq_false_iff.2 fun hfin =>
    hl (h.twins.listener_eq.trans (h.finished hfin))
  ⟨h.feed_eq hl hfin, (h.feed hl).2⟩

theorem all : Twins m.before (fun _ => true) s t :=
  h.twins.withAgenda s.feed t.feed (by rw [h.agenda])

/-- Marks for calls that are yet to come change nothing. -/
theorem congr {before : Nat → List Bool} (hd : t.ledger.Distinct) (hn : t.Numbered)
    (hb : ∀ number < t.begun, before number = m.before number) :
    Abreast { m with before } s t :=
  abreast_of_twins (h.all.congr (fun call hc => hb _ (hd.number_lt call hc))
    fun u hu => hb _ (hn u hu).1) h.without h.finished

/-- What is marked of the signals of a call that begins now. -/
theorem mark (hd : t.ledger.Distinct) (hn : t.Numbered) (marks : List Bool) :
    Abreast { m with before := Function.update m.before t.begun marks } s t :=
  h.congr hd hn fun _ hlt => Function.update_of_ne (Nat.ne_of_lt hlt) ..

/-- What does not change the feed. -/
theorem frame (htwins : Twins m.before (fun _ => true) s' t') (hl : s'.listener = s.listener)
    (hf : s'.feed = s.feed) (hf' : t'.feed = t.feed) : Abreast m s' t' := by
  refine abreast_of_twins htwins (fun hl' => ?_) fun hfin => ?_
  · rw [hf, hf']
    exact h.without (hl ▸ hl')
  · rw [← htwins.listener_eq, hl, h.twins.listener_eq]
    exact h.finished hfin

theorem alarm (later : Nat) : Abreast m (s.alarm later) (t.alarm later) :=
  h.frame (h.all.alarm later) rfl rfl rfl

theorem withGuests (guests : Nat) : Abreast m (s.withGuests guests) (t.withGuests guests) :=
  have hfeed : ∀ r : Dispatcher, (r.withGuests guests).feed = r.feed := fun r =>
    feed_act (s := r) (x := .withGuests guests) rfl nofun nofun
  h.frame (h.all.withGuests guests) (listener_act (s := s) (x := .withGuests guests) rfl) (hfeed s)
    (hfeed t)

/-- What is asked of both, without the signals that are marked of a call. -/
theorem twins_act (ha : (t.room.guests.map Party.actor).Nodup) {x : Act} (hx : x.isCall = true)
    (he : ∀ signals, x ≠ .emit signals) (hd : x ≠ .disconnect) :
    Twins m.before (fun _ => true) (s.act (x.strip (m.before t.begun))) (t.act x) := by
  have hall := h.all
  cases x with
  | start label request before held reply => exact hall.start label request before held reply
  | kill label request held fail => exact hall.kill label request held fail
  | release label => exact (hall.release label).2
  | wait now label limit => exact (hall.wait now label limit).2
  | drop label => exact (hall.drop ha label).2
  | emit signals => exact absurd rfl (he signals)
  | disconnect => exact absurd rfl hd
  | requestStop => exact hall.requestStop
  | addHolder label access =>
    obtain ⟨feed, agenda, rfl, ha⟩ := hall
    exact ⟨feed, agenda, rfl, ha⟩
  | dropHolder label => exact (hall.dropHolder label).2
  | withGuests guests => exact hall.withGuests guests
  | clear =>
    obtain ⟨feed, agenda, rfl, ha⟩ := hall
    exact ⟨feed, agenda, rfl, ha⟩
  | alarm | move | pause => cases hx

theorem disconnect : Abreast m s.disconnect t.disconnect :=
  abreast_of_twins ((h.all.withFeed s.feed.finish t.feed.finish).rouse .pump) (fun hl => by
    obtain ⟨hfeed, hlength⟩ := h.without hl
    exact ⟨congrArg Feed.finish hfeed, hlength⟩) h.finished

/-- Whatever is asked, but for signals. -/
theorem act (hd : t.ledger.Distinct) (hn : t.Numbered) (ha : (t.room.guests.map Party.actor).Nodup)
    {x : Act} (hx : x.isCall = true) (he : ∀ signals, x ≠ .emit signals) (marks : List Bool) :
    Abreast (m.act t (t.act x) marks) (s.act (x.strip marks)) (t.act x) := by
  have hmarks := h.mark hd hn marks
  by_cases hdis : x = .disconnect
  · subst hdis
    have hload : (t.act .disconnect).feed.load = t.feed.load := rfl
    rw [m.act_of_load_eq marks hload]
    exact hmarks.disconnect
  · have hfeed : (t.act x).feed = t.feed := feed_act hx he hdis
    rw [m.act_of_load_eq marks (by rw [hfeed])]
    have htwins := hmarks.twins_act ha hx he hdis
    dsimp only at htwins
    rw [Function.update_self] at htwins
    have hx' : (x.strip marks).isCall = true := by cases x <;> exact hx
    have he' : ∀ signals, x.strip marks ≠ .emit signals := fun signals => by
      cases x with
      | emit signals' => exact absurd rfl (he signals')
      | _ => exact nofun
    have hdis' : x.strip marks ≠ .disconnect := by
      cases x with
      | disconnect => exact absurd rfl hdis
      | _ => exact nofun
    exact hmarks.frame htwins (listener_act hx') (feed_act hx' he' hdis') hfeed

/-- Signals, of which the first one gets those that are not marked, while both wait. -/
theorem emit (hs : Rest now s) (ht : Rest now t) (hn : t.Numbered) (marks : List Bool)
    (signals : List Signal) :
    Beside (m.act t (t.act (.emit signals)) marks) (s.act (.emit (strip marks signals)))
      (t.act (.emit signals)) := by
  have hmarks := h.mark ht.distinct hn marks
  have hidle : s.busy m.finished .pump = false := Bool.eq_false_iff.2 fun hb =>
    hs.not_needs .pump (.inl (able_of_busy_pump now hb))
  have hturn : ∀ {r : Dispatcher}, r.agenda.toList = [] → .pump ∉ r.agenda.toList := fun hr hm => by
    rw [hr] at hm
    cases hm
  exact hmarks.toBeside.emitSignals (fun hl => (h.without hl).1) hidle (hturn hs.idle)
    (hturn ht.idle) marks signals

end

end Abreast

end Dispatcher

end SystemdControl
