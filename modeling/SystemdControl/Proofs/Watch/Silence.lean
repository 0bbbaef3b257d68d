import SystemdControl.Proofs.Watch.Changes

/-!
# Errors that nobody reads

When and whether errors are read makes no difference to the changes: the poller does not wait for
room for an error, and what it does next does not depend on the errors that are unread.

* `Inventory.hush` is an inventory without its errors; `Inventory.hush_act`: what an act does to the
  rest, it does without them;
* `Inventory.record` is what is seen of a run besides the reading of errors;
* `Inventory.errors_do_not_matter`: runs that differ only in the reading of errors have the same
  record; and of the failures of the fetches exactly those are lost for which there is no room.
-/

namespace SystemdControl

namespace Subscription

variable {p : Subscription} {now : Nat}

/-- A subscription without its unread errors. -/
def hush (p : Subscription) : Subscription :=
  { p with errors := [] }

@[simp] theorem hush_hush (p : Subscription) : p.hush.hush = p.hush := rfl

@[simp] theorem wantsFetch_hush (p : Subscription) : p.hush.wantsFetch = p.wantsFetch := rfl

@[simp] theorem hasEnded_hush (p : Subscription) : p.hush.hasEnded = p.hasEnded := rfl

@[simp] theorem changes_hush (p : Subscription) : p.hush.changes = p.changes := rfl

theorem hush_receive (p : Subscription) (result : Except Error (List UnitStatus)) :
    (p.receive result).hush = (p.hush.receive result).hush := by
  cases result <;> rfl

/-- The poller goes on without its errors as it does with them. -/
theorem move?_hush (p : Subscription) (now : Nat) :
    (p.move? now).map hush = (p.hush.move? now).map hush := by
  have hend : p.endIfCancelled.map hush = p.hush.endIfCancelled.map hush := by
    unfold endIfCancelled
    show _ = (if p.cancelled then _ else _ : Option Subscription).map hush
    split <;> rfl
  have hphase : p.hush.phase = p.phase := rfl
  cases hp : p.phase with
  | due =>
    simp only [move?, hphase, hp]
    exact hend
  | fetching fetch =>
    simp only [move?, hphase, hp]
    split
    · simp only [Option.map_some]
      rw [hush_receive]
    · exact hend
  | publishing delta current =>
    simp only [move?, hphase, hp]
    show _ = (if p.changes.length < p.size then _ else _ : Option Subscription).map hush
    split
    · rfl
    · exact hend
  | resting =>
    simp only [move?, hphase, hp]
    show _ = (if p.alarm ≤ now then _ else _ : Option Subscription).map hush
    split
    · rfl
    · exact hend
  | ended => simp only [move?, hphase, hp]

theorem readChange_hush (p : Subscription) :
    p.hush.readChange = (p.readChange.1, p.readChange.2.hush) := by
  have hchanges : p.hush.changes = p.changes := rfl
  unfold readChange
  rw [hchanges]
  split <;> rfl

end Subscription

namespace Inventory

variable {s t : Inventory} {key k now : Nat} {p : Subscription}

/-- An inventory without the errors, and without the streams that are taken. -/
def hush (s : Inventory) : Inventory :=
  { s with pollers := s.pollers.map fun e => (e.1, e.2.hush), streams := [] }

/-- Whether an act has to do with reading errors. -/
def Act.hears : Act → Bool
  | .read _ .errors | .openStream _ _ .errors => true
  | _ => false

theorem poller?_hush (s : Inventory) (k : Nat) :
    s.hush.poller? k = (s.poller? k).map (·.hush) := by
  simp only [poller?, hush, List.find?_map]
  rw [Option.map_map, Option.map_map]
  rfl

theorem keys_hush (s : Inventory) : s.hush.keys = s.keys := by
  simp only [keys, hush, List.map_map]
  rfl

theorem hush_putPoller (s : Inventory) (k : Nat) (p : Subscription) :
    (s.putPoller k p).hush = s.hush.putPoller k p.hush := by
  simp only [hush, putPoller, List.map_map]
  congr 1
  refine List.map_congr_left fun e _ => ?_
  simp only [Function.comp_apply]
  split <;> rfl

theorem hush_requeuePoller (s : Inventory) (k : Nat) (p : Subscription) :
    (s.requeuePoller k p).hush = s.hush.requeuePoller k p.hush := by
  simp only [hush, requeuePoller, List.map_append, List.filter_map]
  rfl

theorem fetch_hush (s : Inventory) (now : Nat) :
    s.hush.fetch now = ((s.fetch now).1, (s.fetch now).2.hush) := by
  have hscript : s.hush.script = s.script := rfl
  unfold fetch
  rw [hscript]
  split <;> rfl

theorem hush_alarm (s : Inventory) (now : Nat) : (s.alarm now).hush = s.hush.alarm now := by
  simp only [hush, alarm, List.filter_map, List.map_map]
  rfl

theorem hush_callReader (s : Inventory) (k : Nat) :
    (s.callReader k).hush = s.hush.callReader k := by
  have hreaders : s.hush.readers = s.readers := rfl
  unfold callReader
  rw [hreaders]
  split <;> rfl

theorem hush_cancel (s : Inventory) (k : Nat) : (s.cancel k).hush = s.hush.cancel k := by
  unfold cancel
  rw [poller?_hush]
  cases hp : s.poller? k with
  | none => rfl
  | some p =>
    show ((s.putPoller k p.cancel).hush).rouse _ = _
    rw [hush_putPoller]
    rfl

theorem hush_cancelIfUnwanted (s : Inventory) (k : Nat) :
    (s.cancelIfUnwanted k).hush = s.hush.cancelIfUnwanted k := by
  have hwanted : s.hush.isWanted k = s.isWanted k := rfl
  unfold cancelIfUnwanted
  rw [hwanted]
  split
  · rfl
  · exact hush_cancel s k

theorem hush_leaveLine (s : Inventory) (reader : Reader) :
    (s.leaveLine reader).hush = s.hush.leaveLine reader := by
  simp only [leaveLine]
  rw [hush_cancelIfUnwanted]
  congr 1
  split
  · exact hush_callReader _ _
  · rfl

theorem hush_hush (s : Inventory) : s.hush.hush = s.hush := by
  simp only [hush, List.map_map]
  rfl

theorem hush_callReaders (s : Inventory) (k : Nat) :
    (s.callReaders k).hush = s.hush.callReaders k := rfl

theorem hush_callFor (s : Inventory) (k : Nat) (p p' : Subscription) :
    (s.callFor k p p').hush = s.hush.callFor k p.hush p'.hush := by
  by_cases hl : p.changes.length < p'.changes.length <;> cases he : p'.hasEnded <;>
    simp [callFor, hl, he, hush_callReader, hush_callReaders]

theorem read_changes_hush (s : Inventory) (k : Nat) :
    s.hush.read k .changes = ((s.read k .changes).1, (s.read k .changes).2.hush) := by
  unfold read
  rw [poller?_hush]
  cases hp : s.poller? k with
  | none => rfl
  | some p =>
    simp only [Option.map_some, Subscription.readChange_hush]
    generalize p.readChange = r
    obtain ⟨item, p'⟩ := r
    cases item with
    | pending | ended => rfl
    | item delta =>
      have hpublishing : p'.hush.isPublishing = p'.isPublishing := rfl
      simp only [hpublishing, ← hush_putPoller]
      split <;> rfl

/-- Reading an error takes it, and does nothing else. -/
theorem hush_read_errors (h : s.keys.Nodup) (k : Nat) : (s.read k .errors).2.hush = s.hush := by
  have hreads := s.reads k .errors
  generalize s.read k .errors = r at hreads
  obtain ⟨item, s'⟩ := r
  cases hreads with
  | @error p e rest hp he =>
    show (s.putPoller k { p with errors := rest }).hush = s.hush
    simp only [hush, putPoller, List.map_map]
    congr 1
    refine List.map_congr_left fun e' he' => ?_
    have hfind := poller?_of_mem h he'
    rw [Function.comp_apply]
    split
    · rename_i hk
      rw [hk, hp, Option.some.injEq] at hfind
      rw [← hfind, hk]
      rfl
    · rfl
  | pending | ended => rfl

theorem movePoller?_hush (s : Inventory) (now k : Nat) :
    (s.movePoller? now k).map hush = (s.hush.movePoller? now k).map hush := by
  have hlook := poller?_hush s k
  cases hp : s.poller? k with
  | none =>
    rw [hp] at hlook
    rw [movePoller?, movePoller?, hp, hlook]
    rfl
  | some p =>
    rw [hp] at hlook
    rw [movePoller?_eq hp, movePoller?_eq hlook, Subscription.wantsFetch_hush, fetch_hush]
    split
    · rw [Option.map_some, Option.map_some, hush_putPoller, hush_putPoller, hush_hush]
      rfl
    · have hmove := p.move?_hush now
      cases hm : p.move? now with
      | none =>
        rw [hm, Option.map_none, eq_comm, Option.map_eq_none_iff] at hmove
        rw [hmove]
        rfl
      | some p₁ =>
        rw [hm, Option.map_some, eq_comm, Option.map_eq_some_iff] at hmove
        obtain ⟨p₂, hm₂, he⟩ := hmove
        rw [hm₂]
        simp only [Option.map_some, hush_callFor, hush_putPoller, hush_hush, he,
          Subscription.hush_hush]

theorem moveReader?_hush (s : Inventory) (number : Nat) :
    s.hush.moveReader? number = (s.moveReader? number).map hush := by
  have hreaders : s.hush.readers = s.readers := rfl
  unfold moveReader?
  rw [hreaders]
  cases s.readers.find? (·.number = number) with
  | none => rfl
  | some reader =>
    simp only [Option.bind_some, read_changes_hush]
    generalize s.read reader.subscription .changes = r
    obtain ⟨item, s'⟩ := r
    cases item with
    | pending => rfl
    | change | error | ended =>
      simp only [Option.map_some, ← hush_leaveLine]
      rfl

theorem move?_hush (s : Inventory) (now : Nat) (watcher : Watcher) :
    (s.move? now watcher).map hush = (s.hush.move? now watcher).map hush := by
  cases watcher with
  | poller k => exact movePoller?_hush s now k
  | reader number =>
    have hidem : hush ∘ hush = hush := funext hush_hush
    rw [move?, move?, moveReader?_hush, Option.map_map, hidem]

theorem hush_pause (s : Inventory) (watcher : Watcher) :
    (s.pause watcher).hush = s.hush.pause watcher := by
  have hreaders : s.hush.readers = s.readers := rfl
  cases watcher with
  | poller k =>
    have hpoller : ∀ s : Inventory, poller? { s with agenda := s.agenda.dismiss } k = s.poller? k :=
      fun _ => rfl
    simp only [pause]
    rw [hpoller, hpoller, poller?_hush]
    cases s.poller? k with
    | none => rfl
    | some p => exact hush_requeuePoller _ k p
  | reader number =>
    simp only [pause]
    rw [hreaders]
    cases s.readers.find? (·.number = number) <;> rfl

theorem hush_enrol (s : Inventory) (label : String) (p : Subscription) :
    (s.enrol label p).hush = s.hush.enrol label p.hush := by
  simp only [enrol, rouse, hush, List.map_append]
  rfl

/-- What an act does to an inventory without its errors is what it does with them. -/
theorem hush_act (h : s.keys.Nodup) (x : Act) : (s.act x).hush = (s.hush.act x).hush := by
  have hmove : ∀ now watcher (r r' : Inventory), r.hush = r'.hush →
      ((s.move? now watcher).getD r).hush = ((s.hush.move? now watcher).getD r').hush :=
    fun now watcher r r' hr => by
      rw [← Option.getD_map hush, ← Option.getD_map hush, move?_hush, hr]
  cases x with
  | alarm now => rw [act, act, hush_alarm, hush_alarm, hush_hush]
  | turn now =>
    have hagenda : s.hush.agenda = s.agenda := rfl
    simp only [act, step?, hagenda]
    cases s.agenda.next? with
    | none => exact (hush_hush s).symm
    | some watcher =>
      exact hmove now watcher _ _ (by rw [hush_pause, hush_pause, hush_hush])
  | move now watcher => exact hmove now watcher _ _ (hush_hush s).symm
  | list now label =>
    simp only [act, list, fetch_hush]
    exact congrArg (fun t : Inventory => { t with
      listing := t.listing ++ [(label, (s.fetch now).1)] }) (hush_hush (s.fetch now).2).symm
  | subscribe label o =>
    cases ho : Subscription.open? o with
    | error e => rw [act_subscribe_of_error ho, act_subscribe_of_error ho, hush_hush]
    | ok p =>
      have hheld : s.hush.held = s.held := rfl
      have hp : p.hush = p := by
        obtain ⟨-, rfl⟩ := Subscription.eq_of_open? ho
        rfl
      rw [act_subscribe ho, act_subscribe ho, hheld]
      split
      · rw [hush_enrol, hush_enrol, hush_hush]
      · rw [hush_cancelIfUnwanted, hush_cancelIfUnwanted, hush_enrol, hush_enrol, hush_hush]
  | read k kind =>
    cases kind with
    | changes => rw [act, act, read_changes_hush, hush_hush]
    | errors =>
      rw [act, act, hush_read_errors h, hush_read_errors (by rwa [keys_hush]), hush_hush]
  | cancel k => rw [act, act, hush_cancel, hush_cancel, hush_hush]
  | dropHeld label =>
    have hheld : s.hush.held = s.held := rfl
    simp only [act, dropHeld, hheld]
    cases s.held.get? label with
    | none => exact (hush_hush s).symm
    | some k =>
      show (cancelIfUnwanted _ k).hush = (cancelIfUnwanted _ k).hush
      rw [hush_cancelIfUnwanted, hush_cancelIfUnwanted]
      exact congrArg (fun t : Inventory =>
        cancelIfUnwanted { t with held := s.held.remove label } k) (hush_hush s).symm
  | dropTask label =>
    have hlisting : s.hush.listing = s.listing := rfl
    have hreaders : s.hush.readers = s.readers := rfl
    simp only [act, dropTask?, hlisting, hreaders]
    split
    · exact congrArg (fun t : Inventory => { t with listing := s.listing.remove label })
        (hush_hush s).symm
    · cases s.readers.find? (·.label = label) with
      | none => exact (hush_hush s).symm
      | some reader =>
        show (s.leaveLine reader).hush = (s.hush.leaveLine reader).hush
        rw [hush_leaveLine, hush_leaveLine, hush_hush]
  | addScript answers =>
    exact congrArg (fun t : Inventory => t.addScript answers) (hush_hush s).symm
  | openStream label k kind => exact (hush_hush s).symm
  | await label k => exact congrArg (fun t : Inventory => t.await label k) (hush_hush s).symm
  | clear => exact congrArg (fun t : Inventory => { t with events := [] }) (hush_hush s).symm

theorem hush_act_of_hears (hn : s.keys.Nodup) {x : Act} (h : x.hears = true) :
    (s.act x).hush = s.hush := by
  cases x with
  | read k kind =>
    cases kind with
    | errors => exact hush_read_errors hn k
    | changes => cases h
  | openStream label k kind => rfl
  | _ => cases h

/-! ## Records -/

/-- What is seen at a subscription besides its errors: the fetch that starts, the changes that enter
the stream and those that someone gets. -/
structure Seen where
  starts : Option Fetch
  publishes : Option UnitDelta
  takes : Option UnitDelta

/-- What is seen of an act at the subscription of a number. -/
def seen (s : Inventory) (key : Nat) (x : Act) : Seen where
  starts := s.gives Subscription.starts key x
  publishes := s.gives Subscription.publishes key x
  takes := (s.answer? key x).bind (·.change?)

/-- The acts of a run that have nothing to do with errors, with what is seen of each of them at the
subscription of a number. -/
def record (key : Nat) (s : Inventory) : List Act → List (Act × Seen)
  | [] => []
  | x :: xs =>
    if x.hears then record key (s.act x) xs
    else (x, s.seen key x) :: record key (s.act x) xs

theorem doneBy?_hush (s : Inventory) (key now : Nat) (watcher : Watcher) :
    s.hush.doneBy? key now watcher = s.doneBy? key now watcher := by
  cases watcher with
  | poller k =>
    have hturn : ∀ p : Subscription, s.hush.turnOf now p.hush = s.turnOf now p := fun p => by
      rw [turnOf, turnOf, Subscription.wantsFetch_hush, fetch_hush]
    rw [doneBy?, doneBy?, poller?_hush, Option.map_map]
    exact congrArg (fun f => if k = key then (s.poller? key).map f else none) (funext hturn)
  | reader number => rfl

theorem done?_hush (s : Inventory) (key : Nat) (x : Act) : s.hush.done? key x = s.done? key x := by
  cases x with
  | turn now =>
    have hagenda : s.hush.agenda = s.agenda := rfl
    simp only [done?, mover?, hagenda]
    cases s.agenda.next? with
    | none => rfl
    | some watcher => exact doneBy?_hush s key now watcher
  | move now watcher => exact doneBy?_hush s key now watcher
  | _ => rfl

theorem gives_hush {β : Type} {out : Subscription → Subscription.Act → Option β}
    (h : ∀ p y, out p.hush y = out p y) (s : Inventory) (key : Nat) (x : Act) :
    s.hush.gives out key x = s.gives out key x := by
  rw [gives, gives, poller?_hush, done?_hush, Option.bind_map]
  exact congrArg _ (funext fun p => congrArg _ (funext (h p)))

theorem seen_hush (s : Inventory) (key : Nat) (x : Act) : s.hush.seen key x = s.seen key x := by
  have hdelivered : ∀ (p : Subscription) y, p.hush.delivered y = p.delivered y := fun p y => by
    cases y with
    | readChange =>
      rw [Subscription.delivered, Subscription.readChange_hush, Subscription.delivered]
    | begin | move | readError | cancel => rfl
  have hstarts : ∀ (p : Subscription) y, p.hush.starts y = p.starts y := fun p y => by
    cases y <;> rfl
  have hpublishes : ∀ (p : Subscription) y, p.hush.publishes y = p.publishes y := fun p y => by
    cases y <;> rfl
  simp only [seen, tells_changes.answer?_bind, gives_hush hdelivered, gives_hush hstarts,
    gives_hush hpublishes]

/-- A run and the same run without the reading of errors, from states that differ in errors. -/
theorem record_filter (key : Nat) (hs : s.Numbered) (ht : t.Numbered) (h : s.hush = t.hush)
    (xs : List Act) :
    record key s xs = record key t (xs.filter (!·.hears)) ∧
      (s.after xs).hush = (t.after (xs.filter (!·.hears))).hush := by
  induction xs generalizing s t with
  | nil => exact ⟨rfl, h⟩
  | cons x xs ih =>
    cases hx : x.hears with
    | true =>
      rw [List.filter_cons_of_neg (by simp [hx]), record, if_pos hx]
      exact ih (hs.act x) ht ((hush_act_of_hears hs.keys hx).trans h)
    | false =>
      have hnot : ¬ x.hears = true := by simp [hx]
      have hact : (s.act x).hush = (t.act x).hush := by
        rw [hush_act hs.keys, hush_act ht.keys, h]
      obtain ⟨hrecord, hafter⟩ := ih (hs.act x) (ht.act x) hact
      rw [List.filter_cons_of_pos (by simp [hx]), record, record, if_neg hnot, if_neg hnot,
        hrecord, ← seen_hush s, h, seen_hush]
      exact ⟨rfl, hafter⟩

/-! ## Failures -/

/-- Of the failures that the poller takes up those are kept for which there is room. -/
theorem gives_keeps_eq (hp : s.poller? key = some p) {x : Act} {e : Error}
    (he : s.gives Subscription.fails key x = some e) :
    s.gives Subscription.keeps key x = if p.errors.length < p.size then some e else none := by
  rw [gives, hp, Option.bind_some] at he ⊢
  obtain ⟨y, hy, hfails⟩ := Option.bind_eq_some_iff.1 he
  rw [hy, Option.bind_some, Subscription.keeps_eq, hfails, Option.filter_some]
  simp only [decide_eq_true_eq]

/-- A failure is unread behind those that were, if there is room for it; and otherwise all is as it
was. -/
theorem errors_of_gives_fails (hp : s.poller? key = some p) {x : Act} {e : Error}
    (he : s.gives Subscription.fails key x = some e) :
    ∃ p', (s.act x).poller? key = some p' ∧
      p'.errors = if p.errors.length < p.size then p.errors ++ [e] else p.errors := by
  obtain ⟨ys, hp', hgiven⟩ := exists_run hp [x]
  have htells : s.gives Subscription.tells key x = none := by
    rw [gives, hp, Option.bind_some] at he ⊢
    obtain ⟨y, hy, hfails⟩ := Option.bind_eq_some_iff.1 he
    rw [hy, Option.bind_some]
    cases y with
    | move => rfl
    | begin | readChange | readError | cancel => cases hfails
  have hstock := p.errors_append_given ys
  rw [hgiven _ Subscription.keeps_cancel, hgiven _ fun _ => rfl, given, given, Run.outputs_cons,
    Run.outputs_cons, htells, gives_keeps_eq hp he] at hstock
  refine ⟨_, hp', ?_⟩
  split at hstock
  · rename_i hroom
    rw [if_pos hroom]
    simpa using hstock.symm
  · rename_i hroom
    rw [if_neg hroom]
    simpa using hstock.symm

/-- Errors that nobody reads do not matter. Two runs that differ only in when and whether errors are
read have the same record at every subscription: the same fetches start, the same changes enter the
stream and are read, in the same acts and so at the same times; and afterwards the two differ in
unread errors at most.

At every moment of a run the errors that readers got of a subscription, with those that are unread,
are the failures that have entered its stream, some of all failures of its fetches, in order. If a
fetch fails next, the failure is lost if and only if there is no room for it: it is unread behind
the others then, or they are as they were. -/
theorem errors_do_not_matter (xs ys : List Act)
    (h : xs.filter (!·.hears) = ys.filter (!·.hears)) :
    (∀ key, record key {} xs = record key {} ys) ∧ (after {} xs).hush = (after {} ys).hush ∧
      ∀ before label (o : SubscribeOptions) later rest,
        xs = before ++ .subscribe label o :: (later ++ rest) → 0 < o.interval.toNanos →
        let key := (after {} before).opened
        let s := after {} (before ++ [.subscribe label o])
        ∃ p, (s.after later).poller? key = some p ∧
          s.heard key later ++ p.errors = s.given Subscription.keeps key later ∧
          (s.given Subscription.keeps key later).Sublist (s.given Subscription.fails key later) ∧
          ∀ x e, (s.after later).gives Subscription.fails key x = some e →
            ((s.after later).gives Subscription.keeps key x = none ↔
              p.errors.length = max o.buffer 1) ∧
            ∃ p', (s.after (later ++ [x])).poller? key = some p' ∧
              p'.errors = if p.errors.length = max o.buffer 1 then p.errors
                else p.errors ++ [e] := by
  have hxs := fun key => record_filter key Numbered.empty Numbered.empty rfl xs
  have hys := fun key => record_filter key Numbered.empty Numbered.empty rfl ys
  refine ⟨fun key => ?_, ?_, fun before label o later _ _ ho => ?_⟩
  · rw [(hxs key).1, (hys key).1, h]
  · rw [(hxs 0).2, (hys 0).2, h]
  · intro key s
    obtain ⟨p₀, zs, hopen, hp, hgiven⟩ := exists_run_of_subscribe before later label ho
    obtain ⟨herrors, hbuffer⟩ : p₀.errors = [] ∧ p₀.buffer = o.buffer := by
      obtain ⟨-, rfl⟩ := Subscription.eq_of_open? hopen
      exact ⟨rfl, rfl⟩
    have hsize : (p₀.after zs).size = max o.buffer 1 := by
      rw [Subscription.size, Subscription.buffer_after, hbuffer]
    have hfits := ((Subscription.Fits.of_open? hopen).after zs).errors
    refine ⟨p₀.after zs, hp, ?_, ?_, fun x e he => ⟨?_, ?_⟩⟩
    · rw [heard_eq_given, ← hgiven _ fun _ => rfl, ← hgiven _ Subscription.keeps_cancel,
        ← Subscription.errors_append_given, herrors, List.nil_append]
    · rw [← hgiven _ Subscription.keeps_cancel, ← hgiven _ fun _ => rfl]
      exact p₀.given_keeps_sublist zs
    · rw [gives_keeps_eq hp he, ← hsize]
      split <;> simp <;> omega
    · obtain ⟨p', hp', herrors'⟩ := errors_of_gives_fails hp he
      refine ⟨p', by rwa [after_append], ?_⟩
      rw [herrors', ← hsize]
      by_cases hroom : (p₀.after zs).errors.length < (p₀.after zs).size
      · rw [if_pos hroom, if_neg (Nat.ne_of_lt hroom)]
      · rw [if_neg hroom, if_pos (Nat.le_antisymm hfits (Nat.not_lt.1 hroom))]

/-- Two failures, the first of which is read in time in one run only: there is room for the second
in that run, and none in the other. -/
theorem errors_do_not_matter_two :
    let o : SubscribeOptions := { interval := ⟨0, 1, by decide⟩, buffer := 0 }
    let before : List Act := [.addScript [⟨.error (.io "x"), 0⟩, ⟨.error (.io "y"), 0⟩]]
    let later : List Act → List Act := fun reads =>
      List.replicate 3 (.turn 0) ++ reads ++ [.alarm 1, .turn 1, .turn 1]
    let run : List Act → List Act := fun reads =>
      before ++ .subscribe "s" o :: (later reads ++ [.turn 1])
    let s := after {} (before ++ [.subscribe "s" o])
    (run []).filter (!·.hears) = (run [.read 0 .errors]).filter (!·.hears) ∧
      record 0 {} (run []) = record 0 {} (run [.read 0 .errors]) ∧
      (s.after (later [])).gives Subscription.keeps 0 (.turn 1) = none ∧
      (s.after (later [.read 0 .errors])).gives Subscription.keeps 0 (.turn 1) ≠ none := by
  intro o before later run s
  have hsame : (run []).filter (!·.hears) = (run [.read 0 .errors]).filter (!·.hears) := rfl
  obtain ⟨hrecord, -, hlost⟩ := errors_do_not_matter _ _ hsame
  obtain ⟨-, -, hkept⟩ := errors_do_not_matter _ _ hsame.symm
  have hlook : ∀ reads, reads = [] ∨ reads = [.read 0 .errors] →
      ((s.after (later reads)).poller? 0).map (·.errors.length) = some (1 - reads.length) ∧
        ((s.after (later reads)).gives Subscription.fails 0 (.turn 1)).isSome = true := by
    rintro reads (rfl | rfl) <;> exact ⟨by decide, by decide⟩
  refine ⟨hsame, hrecord 0, ?_, ?_⟩
  · obtain ⟨hlen, hfails⟩ := hlook [] (.inl rfl)
    obtain ⟨e, he⟩ := Option.isSome_iff_exists.1 hfails
    obtain ⟨p, hp, -, -, hnext⟩ := hlost before "s" o (later []) [.turn 1] rfl (by decide)
    have hp' : (s.after (later [])).poller? 0 = some p := hp
    rw [hp', Option.map_some, Option.some.injEq] at hlen
    exact (hnext _ _ he).1.2 hlen
  · obtain ⟨hlen, hfails⟩ := hlook [.read 0 .errors] (.inr rfl)
    obtain ⟨e, he⟩ := Option.isSome_iff_exists.1 hfails
    obtain ⟨p, hp, -, -, hnext⟩ :=
      hkept before "s" o (later [.read 0 .errors]) [.turn 1] rfl (by decide)
    have hp' : (s.after (later [.read 0 .errors])).poller? 0 = some p := hp
    rw [hp', Option.map_some, Option.some.injEq] at hlen
    exact fun hnone => absurd ((hnext _ _ he).1.1 hnone) (by rw [hlen]; decide)

end Inventory

end SystemdControl
