import SystemdControl.Proofs.Job.Dispatcher.Race
import SystemdControl.Proofs.Job.Dispatcher.Stopping

/-!
# The queue between pump and listener

The pump waits for nobody, so the queue can overflow; nothing else loses a signal, and nothing
changes their order.

* `Core.takes`, `Dispatcher.takes`: the signals that leave the queue, in an act and in a run;
  `Effect.hand_takes` says where they go;
* `Trail.waiting` and `Trail.taken`: the numbers of the signals in hand or queue, and of those that
  have left the queue (`Trail.takes_after`);
* `Dispatcher.core_act_pump`: what the pump does with the next signal, and `Trail.pump_all` what it
  does with all of them.
-/

namespace SystemdControl

namespace Core

variable {c c' : Core}

/-- The signals that leave the queue in an act. -/
def takes (c c' : Core) : List Signal :=
  c.feed.queue.take (c.feed.queue.length - c'.feed.queue.length)

theorem takes_eq_nil (h : c.feed.queue.length ≤ c'.feed.queue.length) : c.takes c' = [] := by
  rw [takes, Nat.sub_eq_zero_of_le h, List.take_zero]

theorem takes_eq_singleton {signal : Signal} (h : c.feed.queue = signal :: c'.feed.queue) :
    c.takes c' = [signal] := by
  simp [takes, h]

theorem hand_of_ready (h : c.listener = .ready) : c.hand = [] := by
  rw [hand, h]

theorem hand_of_seated {event : JobRemoved} (h : c.listener = .seated event) :
    c.hand = [.removed event] := by
  rw [hand, h]

theorem length_hand_le (c : Core) : c.hand.length ≤ 1 := by
  unfold hand
  split
  · exact Nat.le_refl 1
  · exact Nat.zero_le 1

/-- What the listener has in hand and what it takes is what it gets done with, and what it then has
in hand. -/
theorem Effect.hand_takes (e : c.Effect c') :
    c.hand ++ c.takes c' = c.front.take (c.passed c') ++ c'.hand := by
  have hkeep : c'.hand = c.hand → c.feed.queue.length ≤ c'.feed.queue.length →
      c.hand ++ c.takes c' = c.front.take (c.passed c') ++ c'.hand := fun hh hq => by
    have hp : c.passed c' = 0 := by
      simp only [passed, front, List.length_append, hh]
      omega
    rw [takes_eq_nil hq, hh, hp, List.take_zero, List.append_nil, List.nil_append]
  cases e with
  | pump hf => exact hkeep rfl (queue_length_le_of_pump? hf)
  | issue | emit => exact hkeep rfl (by simp)
  | @skip error feed hl ht =>
    have hq : c.feed.queue = .undecodable error :: feed.queue := (queue_of_take? ht).1
    have hl' : { c with feed }.listener = .ready := hl
    have htaken : c.takes { c with feed } = [.undecodable error] := takes_eq_singleton hq
    rw [htaken, hand_of_ready hl, hand_of_ready hl', passed, front_of_ready hl, front_of_ready hl',
      hq]
    simp
  | @sit event feed hl ht =>
    have hq : c.feed.queue = .removed event :: feed.queue := (queue_of_take? ht).1
    rw [takes_eq_singleton hq, hand_of_ready hl, hand_of_seated rfl, passed, front_of_ready hl,
      front_of_seated rfl, hq, Nat.sub_self]
    rfl
  | @take event feed hl hu ht =>
    have hq : c.feed.queue = .removed event :: feed.queue := (queue_of_take? ht).1
    rw [takes_eq_singleton hq, hand_of_ready hl, hand_of_ready rfl, passed, front_of_ready hl,
      front_of_ready rfl, hq]
    simp
  | @rise event hl hu =>
    simp [takes, passed, hand_of_seated hl, hand_of_ready, front_of_seated hl, front_of_ready]
  | stop hl hq =>
    refine hkeep ?_ (Nat.le_refl _)
    rw [hand_of_ready hl]
    rfl
  | _ => exact hkeep rfl (Nat.le_refl _)

/-- The queue never holds more than its size. -/
theorem Effect.queue_length_le (e : c.Effect c') (h : c.feed.queue.length ≤ c.feed.size) :
    c'.feed.queue.length ≤ c'.feed.size ∧ c'.feed.size = c.feed.size := by
  have htake : ∀ {signal feed}, c.feed.take? = some (signal, feed) →
      feed.queue.length ≤ feed.size ∧ feed.size = c.feed.size := fun {signal feed} ht => by
    unfold Feed.take? at ht
    split at ht <;> cases ht
    rename_i hq
    rw [hq, List.length_cons] at h
    exact ⟨Nat.le_of_succ_le h, rfl⟩
  cases e with
  | pump hf => exact Feed.pump?_length hf h
  | issue | emit => exact ⟨by simpa using h, Feed.size_emit _⟩
  | skip hl ht | sit hl ht => exact htake ht
  | take hl hu ht => exact htake ht
  | _ => exact ⟨h, rfl⟩

end Core

namespace Dispatcher

/-- The signals that leave the queue in a run. -/
def takes (s : Dispatcher) : List Act → List Signal
  | [] => []
  | x :: xs => s.core.takes (s.act x).core ++ (s.act x).takes xs

/-! ## Moves of the pump -/

variable {s : Dispatcher}

/-- The pump puts the next signal into the queue if there is room, and drops it otherwise. -/
theorem core_act_pump (now : Nat) {signal : Signal} {rest : List Signal}
    (hp : s.feed.pumping = true) (hs : s.feed.stream = signal :: rest)
    (hl : s.listener ≠ .stopped) :
    (s.act (.move now .pump)).core = { s.core with
      feed :=
        if s.feed.queue.length < s.feed.size then
          { s.feed with stream := rest, queue := s.feed.queue ++ [signal] }
        else { s.feed with stream := rest } } := by
  have hfeed : s.feed.pump? s.stopping (s.listener ≠ .stopped) =
      some (if s.feed.queue.length < s.feed.size then
          { s.feed with stream := rest, queue := s.feed.queue ++ [signal] }
        else { s.feed with stream := rest }) := by
    rw [Feed.pump?, if_neg (by simp [hp]), hs]
    simp only [ne_eq, hl, not_false_eq_true, decide_true, Bool.not_true, Bool.false_eq_true,
      if_false]
    split <;> rfl
  rw [act, move?, movePump?, hfeed, Option.map_some, Option.getD_some, core_rouseListener]
  rfl

end Dispatcher

namespace Trail

variable {t : Trail} {x : Dispatcher.Act}

/-! ## Numbers -/

/-- The numbers of the signals in hand or queue. -/
def waiting (t : Trail) : List Nat :=
  t.line.take t.jobs.core.front.length

/-- The numbers of the signals that the listener has taken from the queue. -/
def taken (t : Trail) : List Nat :=
  t.seen ++ t.waiting.take t.jobs.core.hand.length

theorem seen_step (t : Trail) (x : Dispatcher.Act) :
    (t.step x).seen = t.seen ++ t.waiting.take (t.jobs.core.passed (t.jobs.act x).core) := by
  have hseen : ∀ (ids : List Nat) (fate : Fate),
      ((ids.map (·, fate)).filter (·.2.isSeen)).map (·.1) = if fate.isSeen then ids else [] :=
    fun ids fate => by cases h : fate.isSeen <;> simp [List.filter_map, Function.comp_def, h]
  simp only [seen, step, List.filter_append, List.map_append, hseen, Core.isSeen_seenFate,
    Core.isSeen_missedFate, if_true, Bool.false_eq_true, if_false, List.append_nil]
  rfl

/-- Who waits goes on to wait until the listener is done with it. -/
theorem waiting_step (t : Trail) (x : Dispatcher.Act) :
    t.waiting.drop (t.jobs.core.passed (t.jobs.act x).core) <+: (t.step x).waiting := by
  have hlen : (t.waiting.drop (t.jobs.core.passed (t.jobs.act x).core)).length ≤
      (t.jobs.act x).core.front.length := by
    simp only [waiting, Core.passed, List.length_drop, List.length_take]
    omega
  refine List.prefix_take_iff.2 ⟨?_, hlen⟩
  show _ <+: t.waiting.drop _ ++ _ ++ _
  rw [List.append_assoc]
  exact List.prefix_append ..

theorem map_waiting (h : Accounted t) :
    t.waiting.map (t.emitted[·]?) = t.jobs.core.front.map some := by
  obtain ⟨front, stream, hl, hlen, hf, -⟩ := line_split h.line_eq
  rw [waiting, hl, List.take_left' hlen, hf]

theorem map_taken (h : Accounted t) :
    t.taken.map (t.emitted[·]?) = t.seen.map (t.emitted[·]?) ++ t.jobs.core.hand.map some := by
  rw [taken, List.map_append, List.map_take, map_waiting h, ← List.map_take, Core.front,
    List.take_left]

theorem taken_step (h : Accounted t) (x : Dispatcher.Act) :
    (t.step x).taken.map ((t.step x).emitted[·]?) =
      t.taken.map (t.emitted[·]?) ++ (t.jobs.core.takes (t.jobs.act x).core).map some := by
  have hlt : ∀ i ∈ t.seen ++ t.waiting.take (t.jobs.core.passed (t.jobs.act x).core),
      i < t.emitted.length := fun i hi => by
    refine h.lt_length ?_
    rcases List.mem_append.1 hi with hi | hi
    · exact List.mem_append_left _ (Accounted.mem_of_mem_seen hi)
    · exact List.mem_append_right _ (List.mem_of_mem_take (List.mem_of_mem_take hi))
  have hsame := List.map_congr_left fun i hi => getElem?_emitted_step t x (hlt i hi)
  have hhand := (t.jobs.act_effect x).hand_takes
  calc (t.step x).taken.map ((t.step x).emitted[·]?)
      = (t.step x).seen.map ((t.step x).emitted[·]?) ++ (t.jobs.act x).core.hand.map some :=
        map_taken (h.step x)
    _ = t.seen.map (t.emitted[·]?) ++
          (t.jobs.core.front.take (t.jobs.core.passed (t.jobs.act x).core)).map some ++
          (t.jobs.act x).core.hand.map some := by
        rw [seen_step, hsame, List.map_append, List.map_take, map_waiting h, ← List.map_take]
    _ = t.taken.map (t.emitted[·]?) ++ (t.jobs.core.takes (t.jobs.act x).core).map some := by
        rw [map_taken h, List.append_assoc, List.append_assoc, ← List.map_append, ← List.map_append,
          hhand]

/-- The signals that leave the queue in a run, by number. -/
theorem takes_after (h : Accounted t) (xs : List Dispatcher.Act) :
    (t.after xs).taken.map ((t.after xs).emitted[·]?) =
      t.taken.map (t.emitted[·]?) ++ (t.jobs.takes xs).map some := by
  induction xs generalizing t with
  | nil => exact (List.append_nil _).symm
  | cons x xs ih =>
    show ((t.step x).after xs).taken.map (((t.step x).after xs).emitted[·]?) = _
    rw [ih (h.step x), taken_step h, List.append_assoc, ← List.map_append]
    rfl

/-- The listener takes signals in the order in which they were emitted, and none twice. -/
theorem Accounted.taken_ascending (h : Accounted t) : t.taken.Pairwise (· < ·) := by
  refine h.ascending.sublist (List.Sublist.append_left ?_ _)
  exact (List.take_sublist _ _).trans (List.take_sublist _ _)

/-! ## What the pump does -/

/-- The next signal of the stream goes into the queue if there is room, and is lost otherwise. -/
theorem step_pump (h : Sound t) (now : Nat) {signal : Signal} {rest : List Signal}
    (hs : t.jobs.feed.stream = signal :: rest) (hl : t.jobs.listener ≠ .stopped) :
    let t' := t.step (.move now .pump)
    ∃ i ids, t.line = t.waiting ++ i :: ids ∧ t.emitted[i]? = some signal ∧
      t'.jobs.feed.stream = rest ∧
      if t.jobs.feed.queue.length < t.jobs.feed.size then
        t'.jobs.feed.queue = t.jobs.feed.queue ++ [signal] ∧ t'.fates = t.fates
      else t'.jobs.feed.queue = t.jobs.feed.queue ∧ t'.fates = t.fates ++ [(i, .lost)] := by
  intro t'
  have hp : t.jobs.feed.pumping = true := h.pumping (by simp [hs])
  have hcore := Dispatcher.core_act_pump now hp hs hl
  obtain ⟨front, stream, hline, hlen, -, hstream⟩ := line_split h.line_eq
  rw [show t.jobs.core.feed.stream = signal :: rest from hs, List.map_cons, eq_comm,
    List.map_eq_cons_iff] at hstream
  obtain ⟨i, ids, rfl, hi, -⟩ := hstream
  have hfates := fates_step (x := .move now .pump) hline hlen
  have hwaiting : t.waiting = front := by rw [waiting, hline, List.take_left' hlen]
  have hs' : (t.jobs.act (.move now .pump)).core.feed.stream = rest := by
    rw [hcore]
    split <;> rfl
  have hold : t.jobs.core.feed.stream = signal :: rest := hs
  refine ⟨i, ids, by rw [hline, hwaiting], hi, hs', ?_⟩
  split
  · rename_i hroom
    rw [if_pos hroom] at hcore
    have hf : (t.jobs.act (.move now .pump)).core.front = t.jobs.core.front ++ [signal] := by
      rw [hcore, Core.front, Core.front, List.append_assoc]
      rfl
    have hpassed : t.jobs.core.passed (t.jobs.act (.move now .pump)).core = 0 := by
      simp [Core.passed, hf]
    have hmissed : t.jobs.core.missed (t.jobs.act (.move now .pump)).core = 0 := by
      simp [Core.missed, Core.line, hpassed, hf, hs', hold]
    refine ⟨congrArg (·.feed.queue) hcore, ?_⟩
    simpa [hpassed, hmissed] using hfates
  · rename_i hroom
    rw [if_neg hroom] at hcore
    have hf : (t.jobs.act (.move now .pump)).core.front = t.jobs.core.front := by
      rw [hcore]
      rfl
    have hpassed : t.jobs.core.passed (t.jobs.act (.move now .pump)).core = 0 := by
      simp [Core.passed, hf]
    have hmissed : t.jobs.core.missed (t.jobs.act (.move now .pump)).core = 1 := by
      simp only [Core.missed, Core.line, hpassed, hf, hs', hold, List.length_append,
        List.length_cons]
      omega
    have hlost : t.jobs.core.missedFate = .lost := if_neg hl
    refine ⟨congrArg (·.feed.queue) hcore, ?_⟩
    simpa [hpassed, hmissed, hlost] using hfates

/-- The pump empties the stream by moves of its own, and all that changes is the feed. -/
theorem pump_all (h : Sound t) (now : Nat) (hl : t.jobs.listener ≠ .stopped) :
    let t' := t.after (List.replicate t.jobs.feed.stream.length (.move now .pump))
    t'.jobs.feed.stream = [] ∧
      t'.jobs.feed.queue = t.jobs.feed.queue ++
        t.jobs.feed.stream.take (t.jobs.feed.size - t.jobs.feed.queue.length) ∧
      t'.jobs.core = { t.jobs.core with feed := t'.jobs.feed } := by
  generalize hs : t.jobs.feed.stream = stream
  induction stream generalizing t with
  | nil => exact ⟨hs, by rw [List.take_nil, List.append_nil]; rfl, rfl⟩
  | cons signal rest ih =>
    have hp : t.jobs.feed.pumping = true := h.pumping (by simp [hs])
    have hcore : (t.step (.move now .pump)).jobs.core = _ := Dispatcher.core_act_pump now hp hs hl
    have hl' : (t.step (.move now .pump)).jobs.listener ≠ .stopped :=
      Dispatcher.listener_act_pump (s := t.jobs) now ▸ hl
    obtain ⟨-, -, -, -, hs', -⟩ := step_pump h now hs hl
    obtain ⟨hstream, hqueue, hrest⟩ := ih (h.step _) hl' hs'
    have hfeed : (t.step (.move now .pump)).jobs.feed = _ := congrArg (·.feed) hcore
    refine ⟨hstream, hqueue.trans ?_, hrest.trans (by rw [hcore]; rfl)⟩
    rw [hfeed]
    -- A signal that finds no room finds none for those behind it either.
    split
    · rename_i hroom
      obtain ⟨k, hk⟩ : ∃ k, t.jobs.feed.size - t.jobs.feed.queue.length = k + 1 :=
        Nat.exists_eq_add_one.2 (Nat.sub_pos_of_lt hroom)
      have hk' : t.jobs.feed.size - (t.jobs.feed.queue.length + 1) = k := by omega
      rw [hk, List.take_succ_cons, List.length_append, List.length_singleton, List.append_assoc]
      show _ ++ ([signal] ++ rest.take (t.jobs.feed.size - (t.jobs.feed.queue.length + 1))) = _
      rw [hk']
      rfl
    · rename_i hfull
      have hk : t.jobs.feed.size - t.jobs.feed.queue.length = 0 :=
        Nat.sub_eq_zero_of_le (Nat.le_of_not_lt hfull)
      show t.jobs.feed.queue ++ rest.take (t.jobs.feed.size - t.jobs.feed.queue.length) = _
      rw [hk, List.take_zero, List.take_zero]

theorem emitted_step_emit (ha : t.jobs.feed.accepts = true) {signals : List Signal} :
    (t.step (.emit signals)).emitted = t.emitted ++ signals := by
  have hs : (t.jobs.act (.emit signals)).core.feed.stream = t.jobs.feed.stream ++ signals := by
    show (t.jobs.emitSignals signals).core.feed.stream = _
    rw [Dispatcher.core_emitSignals, Feed.emit, if_pos ha]
  rw [emitted_step, Core.fresh, hs]
  exact congrArg (t.emitted ++ ·) List.drop_left

/-! ## Any run -/

/-- What every act keeps holds after a run. -/
theorem after_of_act {P : Dispatcher → Prop} (hact : ∀ s x, P s → P (s.act x)) (h : P t.jobs)
    (xs : List Dispatcher.Act) : P (t.after xs).jobs := by
  induction xs generalizing t with
  | nil => exact h
  | cons x xs ih => exact ih (t := t.step x) (hact _ x h)

theorem queue_length_le (capacity : Nat) (xs : List Dispatcher.Act) :
    ((start capacity).after xs).jobs.feed.queue.length ≤ max capacity 1 ∧
      ((start capacity).after xs).jobs.feed.size = max capacity 1 := by
  refine after_of_act (P := fun s => s.feed.queue.length ≤ max capacity 1 ∧
    s.feed.size = max capacity 1) (fun s x h => ?_) ⟨Nat.zero_le _, rfl⟩ xs
  obtain ⟨hle, hsize⟩ := h
  obtain ⟨hle', hsize'⟩ := (s.act_effect x).queue_length_le (hle.trans (Nat.le_of_eq hsize.symm))
  have hnow : (s.act x).feed.size = max capacity 1 := hsize'.trans hsize
  exact ⟨hle'.trans (Nat.le_of_eq hnow), hnow⟩

/-- At any moment of any run:

* the signals that have left the queue are, in that order, some of those that were emitted, and none
  of these has been taken twice;
* the queue holds no more than its size, which is the capacity or one, and the listener has at most
  one more in hand; it sits down with one only while a call holds the gate;
* until someone asks to stop or the stream ends, everything that is emitted enters the stream, and
  there is a listener;
* the pump drops the next signal of the stream if the queue is full, and puts it into the queue
  otherwise; nothing is lost in another way;
* whatever gate and listener do the pump can go on until the stream is empty, which takes one move
  for each signal, and no more than the free places of the queue is kept. -/
theorem queue_loses_only_overflow (capacity : Nat) (xs : List Dispatcher.Act) :
    let t := (start capacity).after xs
    let size := max capacity 1
    let queue := t.jobs.feed.queue
    let stream := t.jobs.feed.stream
    (((start capacity).jobs.takes xs).map some = t.taken.map (t.emitted[·]?) ∧
      t.taken.Pairwise (· < ·)) ∧
    (queue.length ≤ size ∧ t.jobs.core.front.length ≤ size + 1 ∧
      ∀ x event, t.jobs.listener ≠ .seated event → (t.step x).jobs.listener = .seated event →
        t.calling.isSome) ∧
    (t.jobs.stopping = false → t.jobs.feed.ended = false →
      t.jobs.listener ≠ .stopped ∧
        ∀ signals, (t.step (.emit signals)).emitted = t.emitted ++ signals) ∧
    (∀ signal rest, stream = signal :: rest → t.jobs.listener ≠ .stopped → ∀ now,
      let t' := t.step (.move now .pump)
      ∃ i ids, t.line = t.waiting ++ i :: ids ∧ t.emitted[i]? = some signal ∧
        t'.jobs.feed.stream = rest ∧
        if queue.length = size then t'.jobs.feed.queue = queue ∧ t'.fates = t.fates ++ [(i, .lost)]
        else t'.jobs.feed.queue = queue ++ [signal] ∧ t'.fates = t.fates) ∧
    (∀ x i, (i, .lost) ∈ (t.step x).fates → (i, .lost) ∈ t.fates ∨ queue.length = size) ∧
    (stream ≠ [] → t.jobs.movePump?.isSome) ∧
    (t.jobs.listener ≠ .stopped → ∀ now,
      let t' := t.after (List.replicate stream.length (.move now .pump))
      t'.jobs.feed.stream = [] ∧
        t'.jobs.feed.queue = queue ++ stream.take (size - queue.length) ∧
        t'.jobs.core = { t.jobs.core with feed := t'.jobs.feed }) := by
  intro t size queue stream
  have h : Sound t := (Sound.start capacity).after xs
  obtain ⟨hle, hsize⟩ : queue.length ≤ size ∧ t.jobs.feed.size = size := queue_length_le capacity xs
  refine ⟨⟨?taken, h.taken_ascending⟩, ⟨hle, ?front, ?seated⟩, ?running, ?pump, ?lost, ?moves, ?all⟩
  case taken =>
    have hrun := takes_after (Accounted.start capacity) xs
    exact hrun.symm
  case front =>
    have hhand := Core.length_hand_le t.jobs.core
    rw [Core.front, List.length_append, Nat.add_comm]
    exact Nat.add_le_add hle hhand
  case seated =>
    intro x event hn hs
    have hu : t.jobs.underWay ≠ none := Dispatcher.act_seats hs hn
    rw [calling, Option.isSome_map]
    exact Option.isSome_iff_ne_none.2 hu
  case running =>
    intro hstop hended
    have hw : t.jobs.Winding := after_of_act (fun s x hs => hs.act x) (.start capacity) xs
    have hno : ¬ (t.jobs.stopping = true ∨ t.jobs.feed.ended = true) := by simp [hstop, hended]
    have hp : t.jobs.feed.pumping = true := by
      by_contra hp
      exact hno (hw.pump (Bool.eq_false_iff.2 hp))
    exact ⟨fun hl => hno (hw.listener hl), fun signals => emitted_step_emit (by
      simp [Feed.accepts, hended, hp])⟩
  case pump =>
    intro signal rest hs hl now t'
    obtain ⟨i, ids, hline, hi, hrest, hmove⟩ := step_pump h now hs hl
    refine ⟨i, ids, hline, hi, hrest, ?_⟩
    rw [hsize] at hmove
    by_cases hfull : queue.length = size
    · rw [if_pos hfull]
      rwa [if_neg (Nat.not_lt_of_le (Nat.le_of_eq hfull.symm))] at hmove
    · rw [if_neg hfull]
      rwa [if_pos (Nat.lt_of_le_of_ne hle hfull)] at hmove
  case lost =>
    intro x i hm
    refine (lost_step h.toAccounted hm).imp_right fun hq => ?_
    rw [hsize] at hq
    exact Nat.le_antisymm hle hq
  case moves => exact fun hs => Dispatcher.isSome_movePump? (h.pumping hs) hs
  case all =>
    intro hl now
    rw [← hsize]
    exact pump_all h now hl

/-- Without a capacity, with a call that the manager keeps waiting: the listener sits with the first
of four signals, the second is in the queue, and the others, of which one cannot be decoded, do not
find room any more. -/
theorem queue_loses_only_overflow_no_capacity :
    let event (n : UInt32) : JobRemoved := ⟨n, ⟨"/job/1"⟩, "a.service", .done⟩
    let signals := [.removed (event 1), .removed (event 2), .undecodable (.io "no path"),
      .removed (event 4)]
    let xs : List Dispatcher.Act := [.start "a" (.ok (.method .start "a.service" .replace)) [] true
      .nextJob, .move 0 (.call 0), .emit signals, .move 0 .pump]
    let ys : List Dispatcher.Act := xs ++ [.move 0 .listener, .move 0 .pump]
    let s := (start 0).after xs
    let t := (start 0).after ys
    s.jobs.listener ≠ .seated (event 1) ∧
      (s.step (.move 0 .listener)).jobs.listener = .seated (event 1) ∧ s.calling.isSome ∧
      ((start 0).jobs.takes ys).map some = t.taken.map (t.emitted[·]?) ∧ t.taken = [0] ∧
      (t.step (.emit signals)).emitted = t.emitted ++ signals ∧
      t.jobs.feed.queue = [.removed (event 2)] ∧
      (t.step (.move 0 .pump)).fates = t.fates ++ [(2, .lost)] ∧ t.jobs.movePump?.isSome ∧
      (t.after (List.replicate 2 (.move 0 .pump))).jobs.feed.queue = [.removed (event 2)] := by
  intro event signals xs ys s t
  have hready : s.jobs.listener ≠ .seated (event 1) := by decide +kernel +zetaReduce
  have hseated : (s.step (.move 0 .listener)).jobs.listener = .seated (event 1) := by
    decide +kernel +zetaReduce
  have htaken : t.taken = [0] := by decide +kernel +zetaReduce
  have hasked : t.jobs.stopping = false ∧ t.jobs.feed.ended = false := by
    decide +kernel +zetaReduce
  have hqueue : t.jobs.feed.queue = [.removed (event 2)] := by decide +kernel +zetaReduce
  have hstream : t.jobs.feed.stream = [.undecodable (.io "no path"), .removed (event 4)] := by
    decide +kernel +zetaReduce
  have hline : t.line = [0, 1, 2, 3] ∧ t.waiting = [0, 1] := by decide +kernel +zetaReduce
  have hlistener : t.jobs.listener ≠ .stopped := by decide +kernel +zetaReduce
  obtain ⟨-, ⟨-, -, hsits⟩, -⟩ := queue_loses_only_overflow 0 xs
  obtain ⟨⟨htakes, -⟩, -, hrunning, hpump, -, hmoves, hall⟩ := queue_loses_only_overflow 0 ys
  rw [show (start 0).after xs = s from rfl] at hsits
  rw [show (start 0).after ys = t from rfl] at htakes hrunning hpump hmoves hall
  clear_value s t
  refine ⟨hready, hseated, hsits _ _ hready hseated, htakes, htaken,
    (hrunning hasked.1 hasked.2).2 signals, hqueue, ?_, hmoves (by simp [hstream]), ?_⟩
  · obtain ⟨i, ids, hi, -, -, hlost⟩ := hpump _ _ hstream hlistener 0
    rw [hline.1, hline.2] at hi
    obtain ⟨rfl, -⟩ : i = 2 ∧ ids = [3] := by simpa [eq_comm] using hi
    rw [if_pos (by rw [hqueue]; rfl)] at hlost
    exact hlost.2
  · obtain ⟨-, hkept, -⟩ := hall hlistener 0
    rw [hstream, hqueue] at hkept
    exact hkept

end Trail

end SystemdControl
