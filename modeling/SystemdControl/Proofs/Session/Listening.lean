import SystemdControl.Proofs.Job.Dispatcher.Parting
import SystemdControl.Proofs.Session.Calm

/-!
# How long a session listens

The listener of a session runs while someone can make a call or has one under way, unless a caller
asks it to stop or the manager ends the stream. After either of these, and once nobody needs it any
more, it stops as soon as no request for a job is under way, for ever; whoever waits for a job then
is answered.

* `Session.InUse` is what keeps the listener running, and `Session.Calm.step_stopping` says that it
  is asked to stop when that has come to an end;
* `Session.settle_acts` and `Session.step_acts`: the acts of a step are what it asks and of those
  who go on by themselves;
* `Session.wait_step`: what a step does to a wait, and `Session.wait_after` a list of steps;
* `Session.listens_while_needed` is all of it.
-/

namespace SystemdControl

theorem Step.eq_shutdown {x : Step} {now : Nat} (h : x.jobAct? now = some .requestStop) :
    x = .shutdown := by
  cases x <;> cases h
  rfl

namespace Session

open Dispatcher (Act Drifts Reaches)

variable {s : Session} {x : Step}

/-- Someone can make a call or has one under way: a listing, a request to signal a unit, or a
request for a job at the gate or before it. -/
def InUse (s : Session) : Prop :=
  s.jobs.holders ≠ [] ∨ s.watch.listing ≠ [] ∨ s.jobs.kills ≠ [] ∨ s.jobs.underWay ≠ none ∨
    ∃ call, .call call ∈ s.jobs.room.guests

theorem Calm.abandoned_iff (h : s.Calm) : s.jobs.abandoned = true ↔ ¬ s.InUse := by
  have hguests : s.jobs.guests ≠ 0 ↔ s.watch.listing ≠ [] := by
    rw [h.guests, Ne, List.length_eq_zero_iff]
  rw [Dispatcher.abandoned_iff, Dispatcher.InUse, InUse, hguests]

/-! ## Who is asked to stop -/

/-- It is asked to stop while everything goes on only when nobody needs it then. -/
theorem settle_stopping (hs : s.settle.jobs.stopping = true) :
    s.jobs.stopping = true ∨ s.settle.jobs.abandoned = true := by
  let t := (s.jobs.act (.alarm s.now)).act (.withGuests s.settle.watch.listing.length)
  have hcoasts : t.Coasts s.settle.jobs := Dispatcher.settle_coasts s.now t
  rcases hcoasts.stopping hs with ht | ha
  · exact ((Dispatcher.act_minds (x := .withGuests _) nofun).stopping ht).imp_right
      hcoasts.stays_abandoned
  · exact .inr ha

/-- Nobody comes to need it while everything goes on, as no listing begins. -/
theorem settle_abandoned (hg : s.jobs.guests = s.watch.listing.length)
    (ha : s.jobs.abandoned = true) : s.settle.jobs.abandoned = true := by
  have hn := Dispatcher.abandoned_iff.1 ha
  have hnone : (s.watch.settle s.now).listing = [] := by
    have hempty : s.watch.listing = [] := by
      by_contra hne
      exact hn (.inr (.inl (by rwa [hg, Ne, List.length_eq_zero_iff])))
    rw [Inventory.listing_settle, hempty, List.filter_nil]
  refine (Dispatcher.settle_coasts ..).stays_abandoned ?_
  rw [Dispatcher.withGuests, Dispatcher.abandoned_stopIfAbandoned, hnone,
    Dispatcher.abandoned_iff]
  exact fun hu => hn (hu.imp_right (Or.imp_left fun h => absurd rfl h))

theorem Calm.advance_abandoned (h : s.Calm) (ha : s.jobs.abandoned = true) (n : Nat) :
    (s.advance n).jobs.abandoned = true := by
  induction n generalizing s with
  | zero => exact ha
  | succ n ih =>
    exact ih (h.moveTo _) (settle_abandoned (s := { s with now := s.now + millisecond }) h.guests ha)

theorem Calm.advance_stopping (h : s.Calm) {n : Nat} (hs : (s.advance n).jobs.stopping = true) :
    s.jobs.stopping = true ∨ (s.advance n).jobs.abandoned = true := by
  induction n generalizing s with
  | zero => exact .inl hs
  | succ n ih =>
    refine (ih (h.moveTo _) hs).elim (fun hs => ?_) .inr
    exact (settle_stopping (s := { s with now := s.now + millisecond }) hs).imp_right fun ha =>
      (h.moveTo _).advance_abandoned ha n

/-- A step is about the jobs or about the inventory. -/
theorem perform_cases (s : Session) (hx : x.isAdvance = false) :
    (s.perform x).2.jobs = s.jobs ∨
      ∃ y, x.jobAct? s.now = some y ∧ (s.perform x).2.jobs = s.jobs.act y ∧
        (s.perform x).2.watch = s.watch := by
  have hjobs := perform_jobs s hx
  cases x with
  | drop label =>
    show (s.drop label).2.jobs = _ ∨ ∃ y, _ ∧ (s.drop label).2.jobs = _ ∧ (s.drop label).2.watch = _
    unfold drop
    split
    · exact .inl (by split <;> rfl)
    · rename_i hd
      refine .inr ⟨_, rfl, ?_, rfl⟩
      rw [Dispatcher.act, hd]
  | start | kill | release | wait | emit | disconnect | shutdown | clone | dropHolder =>
    exact .inr ⟨_, rfl, hjobs, rfl⟩
  | advance => cases hx
  | _ => exact .inl hjobs

/-- The listener is asked to stop by a caller, or when nobody needs it any more. -/
theorem Calm.step_stopping (h : s.Calm) (hx : x ≠ .shutdown)
    (hs : (s.step x).2.jobs.stopping = true) :
    s.jobs.stopping = true ∨ ¬ (s.step x).2.InUse := by
  rw [← (h.step x).abandoned_iff]
  refine (settle_stopping (s := (s.perform x).2) hs).elim (fun hp => ?_) .inr
  cases hadvance : x.isAdvance with
  | true =>
    cases x with
    | advance millis =>
      replace hp : (s.advance millis).jobs.stopping = true := hp
      exact (h.advance_stopping hp).imp_right
        (settle_abandoned (s := s.advance millis) (h.advance millis).guests)
    | _ => cases hadvance
  | false =>
    rcases s.perform_cases hadvance with hjobs | ⟨y, hy, hjobs, hwatch⟩
    · exact .inl (hjobs ▸ hp)
    · have hguests : (s.perform x).2.jobs.guests = (s.perform x).2.watch.listing.length := by
        rw [(h.perform hadvance).2.2, hwatch, h.guests]
      have hstop : y ≠ .requestStop := fun he => hx (Step.eq_shutdown (he ▸ hy))
      rw [hjobs] at hp
      refine ((Dispatcher.act_minds hstop).stopping hp).imp_right fun ha => ?_
      rw [← hjobs] at ha
      exact settle_abandoned (s := (s.perform x).2) hguests ha

/-! ## The acts of a step -/

/-- Some acts are those of a step up to its report: what it asks, and acts of those who go on by
themselves. -/
structure Acts (s : Session) (x : Step) (xs : List Act) : Prop where
  own : ∀ y ∈ xs, y.isOwn = true ∨ x.jobAct? s.now = some y
  jobs : (s.perform x).2.settle.jobs = xs.foldl Dispatcher.act s.jobs

theorem exists_acts_step (s : Session) (x : Step) : ∃ xs, s.Acts x xs := by
  obtain ⟨ys, hys, hsettle⟩ := (s.perform x).2.settle_drifts
  cases hx : x.isAdvance with
  | true =>
    cases x with
    | advance millis =>
      obtain ⟨xs, hxs, hjobs⟩ := s.advance_drifts millis
      refine ⟨xs ++ ys, fun y hy => .inl ((List.mem_append.1 hy).elim (hxs y) (hys y)), ?_⟩
      rw [List.foldl_append, ← hjobs]
      exact hsettle
    | _ => cases hx
  | false =>
    rw [perform_jobs s hx] at hsettle
    cases hy : x.jobAct? s.now with
    | none => exact ⟨ys, fun y hm => .inl (hys y hm), by rw [hsettle, hy, Option.elim_none]⟩
    | some y =>
      refine ⟨y :: ys, fun z hz => ?_, by rw [hsettle, hy]; rfl⟩
      exact (List.mem_cons.1 hz).elim (fun he => .inr (by rw [hy, he])) fun hm => .inl (hys z hm)

namespace Acts

variable {xs : List Act}

theorem clear_not_mem (h : s.Acts x xs) : .clear ∉ xs := by
  intro hm
  rcases h.own _ hm with hown | hask
  · cases hown
  · cases x <;> cases hask

theorem ne_drop (h : s.Acts x xs) {label : String} (hx : x ≠ .drop label) :
    ∀ y ∈ xs, y ≠ .drop label := by
  rintro y hm rfl
  rcases h.own _ hm with hown | hask
  · cases hown
  · cases x <;> cases hask
    exact hx rfl

theorem ne_disconnect (h : s.Acts x xs) (hx : x ≠ .disconnect) : ∀ y ∈ xs, y ≠ .disconnect := by
  rintro y hm rfl
  rcases h.own _ hm with hown | hask
  · cases hown
  · cases x <;> cases hask
    exact hx rfl

end Acts

theorem isCut_step (s : Session) (hx : x ≠ .disconnect) :
    (s.step x).2.jobs.isCut = s.jobs.isCut := by
  obtain ⟨xs, hacts⟩ := s.exists_acts_step x
  have hkeep : ∀ (xs : List Act) (d : Dispatcher), (∀ y ∈ xs, y ≠ .disconnect) →
      (xs.foldl Dispatcher.act d).isCut = d.isCut := fun xs => by
    induction xs with
    | nil => exact fun d _ => rfl
    | cons y ys ih =>
      intro d hy
      rw [List.forall_mem_cons] at hy
      exact (ih _ hy.2).trans (Dispatcher.isCut_act hy.1)
  exact (congrArg Dispatcher.isCut hacts.jobs).trans (hkeep xs _ (hacts.ne_disconnect hx))

/-- What has ended of the jobs is reported. -/
theorem mem_report_iff {label : String} {event : JobEvent} :
    (label, .job event) ∈ (s.step x).1.events ↔
      (label, event) ∈ (s.perform x).2.settle.jobs.events := by
  show _ ∈ (s.perform x).2.settle.events ↔ _
  simp [events]

/-! ## Waits -/

/-- A step ends a wait, with an error or with the result that was delivered to it. -/
def Ends (s : Session) (x : Step) (w : Wait) : Prop :=
  ∃ outcome, (w.label, .job (.finished outcome)) ∈ (s.step x).1.events ∧
    ∀ result, outcome = .ok result → ∃ xs ys, s.Acts x xs ∧ ys <+: xs ∧
      ((ys.foldl Dispatcher.act s.jobs).table.waiter? w.ticket).bind (·.inbox) = some result

/-- A wait goes on or ends, unless its caller abandons it. -/
theorem wait_step {w : Wait} (hw : w ∈ s.jobs.waits) (hx : x ≠ .drop w.label) :
    w ∈ (s.step x).2.jobs.waits ∨ s.Ends x w := by
  obtain ⟨xs, hacts⟩ := s.exists_acts_step x
  refine (Dispatcher.parting_after hw (hacts.ne_drop hx) hacts.clear_not_mem).imp
    (fun hw' => ?_) ?_
  · show w ∈ (s.perform x).2.settle.jobs.waits
    rwa [hacts.jobs]
  · rintro ⟨outcome, he, hok⟩
    refine ⟨outcome, mem_report_iff.2 ?_, fun result hr => ?_⟩
    · rwa [hacts.jobs]
    · obtain ⟨ys, hys, hinbox⟩ := hok result hr
      exact ⟨xs, ys, hacts, hys, hinbox⟩

theorem wait_after {w : Wait} (hw : w ∈ s.jobs.waits) {xs : List Step}
    (hx : .drop w.label ∉ xs) :
    w ∈ (s.after xs).jobs.waits ∨ ∃ ys y zs, xs = ys ++ y :: zs ∧ (s.after ys).Ends y w := by
  induction xs generalizing s with
  | nil => exact .inl hw
  | cons x xs ih =>
    rw [List.mem_cons, not_or] at hx
    rcases wait_step hw (Ne.symm hx.1) with hw' | hends
    · refine (ih hw' hx.2).imp_right ?_
      rintro ⟨ys, y, zs, rfl, hends⟩
      exact ⟨x :: ys, y, zs, rfl, hends⟩
    · exact .inr ⟨[], x, xs, rfl, hends⟩

/-- What a wait with a limit is answered that begins when the table is closed. -/
def lateAnswer (ticket : Ticket) (inbox : Option JobResult) (limit : Option Duration) :
    Except Error JobResult :=
  if limit.any (·.isZero) then .error (.invalidInput .timeoutZero) else lastWord ticket inbox

/-- In a closed table every handle is answered at once. -/
theorem Calm.wait_closed (h : s.Calm) (hc : s.jobs.table.closed = true) {label : String}
    {handle : JobHandle} (hg : s.jobs.handles.get? label = some handle) (limit : Option Duration) :
    (label, .job (.finished (lateAnswer handle.ticket
      ((s.jobs.table.waiter? handle.ticket).bind (·.inbox)) limit))) ∈
        (s.step (.wait label limit)).1.events := by
  rw [mem_report_iff]
  obtain ⟨xs, hxs, hjobs⟩ := (s.perform (.wait label limit)).2.settle_drifts
  have hclear : .clear ∉ xs := fun hm => Bool.false_ne_true (hxs _ hm)
  have hdrop : ∀ y ∈ xs, y ≠ .drop label := by
    rintro y hy rfl
    cases hxs _ hy
  obtain ⟨hsteady, hheeded, -⟩ := h.perform (x := .wait label limit) rfl
  have hcalm := settle_calm hsteady hheeded
  have hclosed : (s.perform (.wait label limit)).2.jobs.table.closed = true :=
    (s.jobs.act_effect (.wait s.now label limit)).stays_closed hc
  have hwaits : (s.perform (.wait label limit)).2.settle.jobs.waits = [] :=
    hcalm.rest.waits_eq_nil <|
      (settle_reaches _).keeps (fun d x => (d.act_effect x).stays_closed) hclosed
  rw [hjobs] at hwaits ⊢
  rcases Dispatcher.wait_told_or_begun hg s.now limit with ⟨hzero, he⟩ | ⟨hzero, w, hl, ht, hw, htable⟩
  · refine (Dispatcher.events_grow hclear _).subset ?_
    rw [lateAnswer, if_pos hzero]
    show _ ∈ (s.jobs.act (.wait s.now label limit)).events
    rw [he]
    exact List.mem_append_right _ (List.mem_singleton_self _)
  · have hlast := Dispatcher.last_word_after hsteady.holds hclosed (w := w) hw (hl ▸ hdrop) hclear
    rw [hwaits, show (s.perform (.wait label limit)).2.jobs.table = s.jobs.table from htable,
      hl, ht] at hlast
    rw [lateAnswer, if_neg hzero]
    exact hlast.resolve_left List.not_mem_nil

/-! ## How long it listens -/

/-- While it is needed and nobody ends it, nobody is asked to stop and the stream goes on. -/
theorem Calm.running_after (h : s.Calm) (hs : s.jobs.stopping = false)
    (hcut : s.jobs.isCut = false) {xs : List Step}
    (huse : ∀ ys, ys <+: xs → (s.after ys).InUse) (hstop : .shutdown ∉ xs)
    (hend : .disconnect ∉ xs) :
    (s.after xs).jobs.stopping = false ∧ (s.after xs).jobs.isCut = false := by
  induction xs generalizing s with
  | nil => exact ⟨hs, hcut⟩
  | cons x xs ih =>
    rw [List.mem_cons, not_or] at hstop hend
    have hin : (s.step x).2.InUse := huse [x] (List.cons_prefix_cons.2 ⟨rfl, List.nil_prefix⟩)
    refine ih (h.step x) ?_ ((s.isCut_step (Ne.symm hend.1)).trans hcut) (fun ys hys => ?_)
      hstop.2 hend.2
    · by_contra hn
      rcases h.step_stopping (Ne.symm hstop.1) (by simpa using hn) with hs' | hnot
      · exact Bool.false_ne_true (hs.symm.trans hs')
      · exact hnot hin
    · exact huse (x :: ys) (List.cons_prefix_cons.2 ⟨rfl, hys⟩)

/-- What ends the listener goes on to do so. -/
theorem stopping_or_isCut_after (xs : List Step)
    (h : s.jobs.stopping = true ∨ s.jobs.isCut = true) :
    (s.after xs).jobs.stopping = true ∨ (s.after xs).jobs.isCut = true :=
  (s.after_reaches xs).keeps (P := fun d => d.stopping = true ∨ d.isCut = true)
    (fun d x => Or.imp (d.stopping_act x) Dispatcher.isCut_of_act) h

theorem stopping_step_shutdown (s : Session) : (s.step .shutdown).2.jobs.stopping = true :=
  (s.perform .shutdown).2.settle_reaches.keeps Dispatcher.stopping_act
    (Dispatcher.stopping_requestStop s.jobs)

theorem isCut_step_disconnect (s : Session) : (s.step .disconnect).2.jobs.isCut = true := by
  show (s.perform .disconnect).2.settle.jobs.isCut = true
  exact (settle_reaches _).keeps (P := fun d => d.isCut = true)
    (fun _ _ => Dispatcher.isCut_of_act) rfl

/-- The listener is asked to stop, or the stream has ended, once it is not needed, a caller has
asked for it, or the manager has ended the stream. -/
theorem Calm.ending_after (h : s.Calm) {xs : List Step}
    (hend : (∃ ys, ys <+: xs ∧ ¬ (s.after ys).InUse) ∨ .shutdown ∈ xs ∨ .disconnect ∈ xs) :
    (s.after xs).jobs.stopping = true ∨ (s.after xs).jobs.isCut = true := by
  have hmem : ∀ x, x ∈ xs →
      (∀ s : Session, (s.step x).2.jobs.stopping = true ∨ (s.step x).2.jobs.isCut = true) →
      (s.after xs).jobs.stopping = true ∨ (s.after xs).jobs.isCut = true := by
    intro x hx hstep
    obtain ⟨ys, zs, rfl⟩ := List.append_of_mem hx
    rw [after_append, after_cons]
    exact stopping_or_isCut_after zs (hstep _)
  rcases hend with ⟨ys, ⟨zs, rfl⟩, hn⟩ | hx | hx
  · rw [after_append]
    have hys := h.after ys
    exact stopping_or_isCut_after zs (.inl (hys.heeded (hys.abandoned_iff.2 hn)))
  · exact hmem _ hx fun s => .inl s.stopping_step_shutdown
  · exact hmem _ hx fun s => .inr s.isCut_step_disconnect

section
variable {options : BusOptions} (h : connect? options none = .ok s) (xs : List Step)
include h

theorem drained_after : (s.after xs).jobs.core.Drained := by
  obtain ⟨acts, ha⟩ := s.after_reaches xs
  cases h
  rw [ha]
  exact Dispatcher.drained_after options.capacity acts

theorem winding_after : (s.after xs).jobs.Winding := by
  have hreaches := s.after_reaches xs
  cases h
  exact hreaches.keeps (fun d x hd => hd.act x) (.start _)

end

/-- The listener of a session runs, and its table is open, while someone needs it, unless a caller
has asked it to stop or the stream has ended. After that, once everybody has gone on and no request
for a job is under way, the table is closed for ever, and nobody is told that it listens. Every
wait has been answered then, unless it was abandoned, and every handle that is left is answered as
soon as it is waited for, with the result that was delivered to it or with an error. -/
theorem listens_while_needed {options : BusOptions} (h : connect? options none = .ok s)
    (xs : List Step) :
    let t := s.after xs
    ((∀ ys, ys <+: xs → (s.after ys).InUse) → .shutdown ∉ xs → .disconnect ∉ xs →
      t.jobs.listener ≠ .stopped ∧ t.jobs.table.closed = false ∧
        (t.jobs.holders.any (·.2 = .bus) = true → t.jobs.listening? = some true)) ∧
    ((∃ ys, ys <+: xs ∧ ¬ (s.after ys).InUse) ∨ .shutdown ∈ xs ∨ .disconnect ∈ xs →
      t.jobs.underWay = none →
      (∀ ys zs, xs = ys ++ zs → ∀ w ∈ (s.after ys).jobs.waits, .drop w.label ∉ zs →
        ∃ zs₁ x zs₂, zs = zs₁ ++ x :: zs₂ ∧ ((s.after ys).after zs₁).Ends x w) ∧
      ∀ zs,
        let u := t.after zs
        u.jobs.listener = .stopped ∧ u.jobs.table.closed = true ∧ u.jobs.waits = [] ∧
          (∀ listening, u.jobs.listening? = some listening → listening = false) ∧
          ∀ label handle, u.jobs.handles.get? label = some handle → ∀ limit,
            (label, .job (.finished (lateAnswer handle.ticket
              ((u.jobs.table.waiter? handle.ticket).bind (·.inbox)) limit))) ∈
                (u.step (.wait label limit)).1.events) := by
  intro t
  have hcalm : t.Calm := calm_after h xs
  have hstart : s.jobs.stopping = false ∧ s.jobs.isCut = false := by
    cases h
    exact ⟨rfl, rfl⟩
  refine ⟨fun huse hstop hend => ?listens, fun hend hu => ?stops⟩
  case listens =>
    obtain ⟨hrun, hcut⟩ := (Calm.connect h).running_after hstart.1 hstart.2 huse hstop hend
    have hl : t.jobs.listener ≠ .stopped := fun hl =>
      ((winding_after h xs).listener hl).elim (fun hs => Bool.false_ne_true (hrun.symm.trans hs))
        fun he => Bool.false_ne_true (hcut.symm.trans he)
    have hopen : t.jobs.table.closed = false :=
      Bool.eq_false_iff.2 fun hc => hl ((drained_after h xs).closed_iff.1 hc)
    exact ⟨hl, hopen, fun hbus => by rw [Dispatcher.listening?, if_pos hbus, hopen]; rfl⟩
  case stops =>
    have hl : t.jobs.listener = .stopped :=
      hcalm.rest.listener_eq_stopped hu ((Calm.connect h).ending_after hend)
    have hclosed : t.jobs.table.closed = true := (drained_after h xs).closed_iff.2 hl
    refine ⟨fun ys zs hxs w hw hdrop => ?_, fun zs => ?_⟩
    · refine (wait_after hw hdrop).resolve_left fun hw' => ?_
      rw [← after_append, ← hxs] at hw'
      rw [show (s.after xs).jobs.waits = [] from hcalm.rest.waits_eq_nil hclosed] at hw'
      exact List.not_mem_nil hw'
    · intro u
      have hu' : u.jobs.table.closed = true :=
        (t.after_reaches zs).keeps (fun d x => (d.act_effect x).stays_closed) hclosed
      have hcalm' : u.Calm := hcalm.after zs
      have hdrained : u.jobs.core.Drained := by
        have hd := drained_after h (xs ++ zs)
        rwa [after_append] at hd
      refine ⟨hdrained.closed_iff.1 hu', hu', hcalm'.rest.waits_eq_nil hu', fun b hb => ?_,
        fun label handle hg limit => hcalm'.wait_closed hu' hg limit⟩
      rw [Dispatcher.listening?] at hb
      split at hb
      · rw [hu'] at hb
        exact (Option.some.inj hb).symm
      · cases hb

/-- A call that the manager keeps waiting keeps the listener running when the last bus is gone, and
a handle does not. -/
theorem listens_while_needed_last_call :
    let first : Session := { options := {}, jobs := { feed := { capacity := 100 } } }
    let calls : List Step := [.start "a" "a" .replace (.method .start) [] false (.path ⟨"/job/1"⟩),
      .start "b" "b" .replace (.method .start) [] true .nextJob, .dropHolder "main"]
    let s := first.after calls
    let t := first.after (calls ++ [.release "b"])
    (s.jobs.holders = [] ∧ s.InUse ∧ s.jobs.listener ≠ .stopped ∧ s.jobs.table.closed = false) ∧
      ¬ t.InUse ∧ t.jobs.listener = .stopped ∧ t.jobs.table.closed = true ∧
        ("a", .job (.finished (.error (.listenerStopped "/job/1")))) ∈
          (t.step (.wait "a" none)).1.events := by
  intro first calls s t
  have hconnect : connect? {} none = .ok first := rfl
  have hholds : ∀ n ≤ 2, (first.after (calls.take n)).jobs.holders ≠ [] := by
    decide +kernel +zetaReduce
  have hlast : s.jobs.holders = [] ∧ s.jobs.underWay ≠ none := by decide +kernel +zetaReduce
  have hidle : t.jobs.abandoned = true ∧ t.jobs.underWay = none := by decide +kernel +zetaReduce
  have hget : t.jobs.handles.get? "a" = some ⟨"a.service", ⟨⟨"/job/1"⟩, 0⟩⟩ ∧
      (t.jobs.table.waiter? ⟨⟨"/job/1"⟩, 0⟩).bind (·.inbox) = none := by
    decide +kernel +zetaReduce
  have huse : ∀ ys, ys <+: calls → (first.after ys).InUse := by
    intro ys hys
    have hlen : ys.length ≤ 3 := hys.length_le
    rw [List.prefix_iff_eq_take.1 hys]
    by_cases hlt : ys.length ≤ 2
    · exact .inl (hholds _ hlt)
    · rw [show ys.length = 3 by omega]
      exact .inr (.inr (.inr (.inl hlast.2)))
  have hn : ¬ t.InUse := (calm_after hconnect _).abandoned_iff.1 hidle.1
  obtain ⟨hlistens, -⟩ := listens_while_needed hconnect calls
  obtain ⟨-, hstops⟩ := listens_while_needed hconnect (calls ++ [.release "b"])
  obtain ⟨hrun, hopen, -⟩ := hlistens huse (by simp [calls]) (by simp [calls])
  have hin := huse _ List.prefix_rfl
  rw [show first.after calls = s from rfl] at hrun hopen hin
  rw [show first.after (calls ++ [.release "b"]) = t from rfl] at hstops
  have hend : ∃ ys, ys <+: calls ++ [.release "b"] ∧ ¬ (first.after ys).InUse :=
    ⟨_, List.prefix_rfl, hn⟩
  clear_value s t
  obtain ⟨-, hever⟩ := hstops (.inl hend) hidle.2
  obtain ⟨hl, hc, -, -, hwait⟩ := hever []
  have he := hwait "a" _ hget.1 none
  rw [show t.after [] = t from rfl, hget.2] at he
  exact ⟨⟨hlast.1, hin, hrun, hopen⟩, hn, hl, hc, he⟩

end Session

end SystemdControl
