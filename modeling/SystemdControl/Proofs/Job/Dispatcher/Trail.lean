import SystemdControl.Proofs.Job.Dispatcher.Traffic

/-!
# What becomes of signals

Signals are numbered as they enter the stream. In a run their numbers are kept beside the
dispatcher, and what becomes of each is written down when it can be seen.

* `Trail` is a dispatcher with the numbers of the signals on their way, the fates of all others, and
  the journal of its table; `Trail.step` is an act;
* `Trail.Accounted`: every signal is on its way or has one fate, and the listener is done with
  signals in the order in which they were emitted;
* `Trail.Sound`: the table shows its journal.
-/

namespace SystemdControl

open JobTable

/-- What became of a signal. -/
inductive Fate where
  /-- The listener handled it. -/
  | classified (resolution : Resolution)
  /-- The listener could not decode it. -/
  | skipped
  /-- It found the queue full. -/
  | lost
  /-- There was no listener any more. -/
  | dismissed
  deriving DecidableEq

/-- Whether the listener has seen the signal. -/
def Fate.isSeen : Fate → Bool
  | classified _ | skipped => true
  | lost | dismissed => false

/-- What the listener answered. -/
def Fate.resolution? : Fate → Option Resolution
  | classified resolution => some resolution
  | _ => none

namespace Core

/-- What becomes of the first signal when the listener is done with it. -/
def seenFate (c : Core) : Fate :=
  match c.front.head? with
  | some (.removed event) => .classified (c.table.resolve event.jobPath event.result).1
  | _ => .skipped

/-- What becomes of a signal that does not come to the listener. -/
def missedFate (c : Core) : Fate :=
  if c.listener = .stopped then .dismissed else .lost

theorem isSeen_seenFate (c : Core) : c.seenFate.isSeen = true := by
  unfold seenFate
  split <;> rfl

theorem isSeen_missedFate (c : Core) : c.missedFate.isSeen = false := by
  unfold missedFate
  split <;> rfl

theorem resolution?_missedFate (c : Core) : c.missedFate.resolution? = none := by
  unfold missedFate
  split <;> rfl

theorem passed_eq_zero_or_of_classified? {c c' : Core} (h : c.classified? c' = none) :
    c.passed c' = 0 ∨ c.seenFate.resolution? = none := by
  unfold classified? at h
  split at h
  · refine .inr ?_
    unfold seenFate
    split
    · rename_i event hf
      simp [hf] at h
    · rfl
  · exact .inl (by unfold passed; omega)

end Core

/-- A dispatcher with all that was to be seen of it. -/
structure Trail where
  jobs : Dispatcher
  /-- All signals that entered the stream; the number of a signal is its place here. -/
  emitted : List Signal := []
  /-- The numbers of the signals on their way. -/
  line : List Nat := []
  /-- What became of the others, in order. -/
  fates : List (Nat × Fate) := []
  journal : List Deed := []

namespace Trail

/-- A dispatcher of which nothing was to be seen yet. -/
def start (capacity : Nat) : Trail :=
  { jobs := { feed := { capacity } } }

/-- A trail after an act. -/
def step (t : Trail) (x : Dispatcher.Act) : Trail :=
  let c := t.jobs.core
  let c' := (t.jobs.act x).core
  let front := t.line.take c.front.length
  let stream := t.line.drop c.front.length
  { jobs := t.jobs.act x
    emitted := t.emitted ++ c.fresh c'
    line := front.drop (c.passed c') ++ stream.drop (c.missed c') ++
      List.range' t.emitted.length (c.fresh c').length
    fates := t.fates ++ (front.take (c.passed c')).map (·, c.seenFate) ++
      (stream.take (c.missed c')).map (·, c.missedFate)
    journal := t.journal ++ c.deeds c' }

/-- A trail after a run. -/
def after (t : Trail) (xs : List Dispatcher.Act) : Trail :=
  xs.foldl step t

/-- The signals that the listener handled, with what it answered, in order. -/
def classified (t : Trail) : List (Nat × Resolution) :=
  t.fates.filterMap fun f => f.2.resolution?.map (f.1, ·)

/-- The numbers of the signals that the listener is done with, in order. -/
def seen (t : Trail) : List Nat :=
  (t.fates.filter (·.2.isSeen)).map (·.1)

/-- Every signal is on its way or has one fate, and those that come to the listener do so in
order. -/
structure Accounted (t : Trail) : Prop where
  line_eq : t.jobs.core.line.map some = t.line.map (t.emitted[·]?)
  perm : (t.fates.map (·.1) ++ t.line).Perm (List.range t.emitted.length)
  ascending : (t.seen ++ t.line).Pairwise (· < ·)

/-- What an act can add to a trail. -/
inductive Advance (t t' : Trail) : Prop
  | stay (he : t'.emitted = t.emitted) (hl : t'.line = t.line) (hf : t'.fates = t.fates)
  | emit (signals : List Signal) (he : t'.emitted = t.emitted ++ signals)
    (hl : t'.line = t.line ++ List.range' t.emitted.length signals.length)
    (hf : t'.fates = t.fates)
  | see (i : Nat) (fate : Fate) (hs : fate.isSeen = true) (he : t'.emitted = t.emitted)
    (hl : t.line = i :: t'.line) (hf : t'.fates = t.fates ++ [(i, fate)])
  | miss (front ids rest : List Nat) (fate : Fate) (hs : fate.isSeen = false)
    (hq : fate = .lost → t.jobs.core.feed.size ≤ t.jobs.core.feed.queue.length)
    (he : t'.emitted = t.emitted) (hl : t.line = front ++ ids ++ rest)
    (hl' : t'.line = front ++ rest) (hf : t'.fates = t.fates ++ ids.map (·, fate))

variable {t : Trail}

theorem jobs_after (t : Trail) (xs : List Dispatcher.Act) :
    (t.after xs).jobs = xs.foldl Dispatcher.act t.jobs := by
  induction xs generalizing t with
  | nil => rfl
  | cons x xs ih => exact ih (t.step x)

theorem after_append (t : Trail) (xs ys : List Dispatcher.Act) :
    t.after (xs ++ ys) = (t.after xs).after ys :=
  List.foldl_append

/-- The line falls into the numbers of the front and those of the stream. -/
theorem line_split (h : t.jobs.core.line.map some = t.line.map (t.emitted[·]?)) :
    ∃ front stream, t.line = front ++ stream ∧ front.length = t.jobs.core.front.length ∧
      t.jobs.core.front.map some = front.map (t.emitted[·]?) ∧
      t.jobs.core.feed.stream.map some = stream.map (t.emitted[·]?) := by
  rw [Core.line, List.map_append, eq_comm, List.map_eq_append_iff] at h
  obtain ⟨front, stream, hl, hf, hs⟩ := h
  refine ⟨front, stream, hl, ?_, hf.symm, hs.symm⟩
  simpa using congrArg List.length hf

/-- Numbers that were given out keep their signals. -/
theorem map_getElem?_append (emitted signals : List Signal) {l : List Nat} {f : List Signal}
    (h : f.map some = l.map (emitted[·]?)) :
    l.map ((emitted ++ signals)[·]?) = f.map some := by
  rw [h]
  refine List.map_congr_left fun i hi => ?_
  have hm : emitted[i]? ∈ f.map some := h ▸ List.mem_map_of_mem hi
  obtain ⟨signal, -, hs⟩ := List.mem_map.1 hm
  rw [List.getElem?_append_left (List.getElem?_eq_some_iff.1 hs.symm).1]

theorem map_getElem?_range' (emitted signals : List Signal) :
    (List.range' emitted.length signals.length).map ((emitted ++ signals)[·]?) =
      signals.map some := by
  refine List.ext_getElem? fun k => ?_
  rw [List.getElem?_map, List.getElem?_map]
  by_cases hk : k < signals.length
  · rw [List.getElem?_range' hk, Option.map_some, List.getElem?_append_right (by omega),
      List.getElem?_eq_getElem (by omega),
      Option.map_eq_some_iff.2 ⟨_, List.getElem?_eq_getElem hk, rfl⟩]
    simp
  · have hr : (List.range' emitted.length signals.length)[k]? = none :=
      List.getElem?_eq_none (by simpa using hk)
    rw [hr, List.getElem?_eq_none (by omega)]
    rfl

section

variable {x : Dispatcher.Act} {front stream : List Nat}

theorem emitted_step (t : Trail) (x : Dispatcher.Act) :
    (t.step x).emitted = t.emitted ++ t.jobs.core.fresh (t.jobs.act x).core := rfl

/-- A number that was given out keeps its signal. -/
theorem getElem?_emitted_step (t : Trail) (x : Dispatcher.Act) {i : Nat}
    (hi : i < t.emitted.length) : (t.step x).emitted[i]? = t.emitted[i]? := by
  rw [emitted_step, List.getElem?_append_left hi]

theorem line_step (hl : t.line = front ++ stream) (hlen : front.length = t.jobs.core.front.length) :
    (t.step x).line = front.drop (t.jobs.core.passed (t.jobs.act x).core) ++
      stream.drop (t.jobs.core.missed (t.jobs.act x).core) ++
      List.range' t.emitted.length (t.jobs.core.fresh (t.jobs.act x).core).length := by
  simp only [step, hl, List.take_left' hlen, List.drop_left' hlen]

theorem fates_step (hl : t.line = front ++ stream)
    (hlen : front.length = t.jobs.core.front.length) :
    (t.step x).fates = t.fates ++
      (front.take (t.jobs.core.passed (t.jobs.act x).core)).map (·, t.jobs.core.seenFate) ++
      (stream.take (t.jobs.core.missed (t.jobs.act x).core)).map (·, t.jobs.core.missedFate) := by
  simp only [step, hl, List.take_left' hlen, List.drop_left' hlen]

end

/-! The four things that an act can do to the numbers, from what it does to the signals. -/

section

variable {x : Dispatcher.Act}

/-- All signals stay on their way; the pump may have passed one on. -/
theorem step_keep (h : t.jobs.core.line.map some = t.line.map (t.emitted[·]?))
    (hfront : t.jobs.core.front.length ≤ (t.jobs.act x).core.front.length)
    (hsame : (t.jobs.act x).core.line = t.jobs.core.line) :
    (t.step x).emitted = t.emitted ∧ (t.step x).line = t.line ∧ (t.step x).fates = t.fates ∧
      (t.step x).jobs.core.line.map some = (t.step x).line.map ((t.step x).emitted[·]?) := by
  obtain ⟨front, stream, hl, hlen, -, -⟩ := line_split h
  have hline := line_step (x := x) hl hlen
  have hfates := fates_step (x := x) hl hlen
  have hp : t.jobs.core.passed (t.jobs.act x).core = 0 := Nat.sub_eq_zero_of_le hfront
  have hm : t.jobs.core.missed (t.jobs.act x).core = 0 := by
    rw [Core.missed, hsame, Nat.sub_self, Nat.zero_sub]
  have hn : t.jobs.core.fresh (t.jobs.act x).core = [] := by
    have hlength := congrArg List.length hsame
    simp only [Core.line, List.length_append] at hlength
    exact List.drop_eq_nil_of_le (by omega)
  have hemitted : (t.step x).emitted = t.emitted := by
    rw [emitted_step, hn, List.append_nil]
  simp only [hp, hm, hn, List.drop_zero, List.take_zero, List.map_nil, List.length_nil,
    List.range'_zero, List.append_nil] at hline hfates
  rw [← hl] at hline
  refine ⟨hemitted, hline, hfates, ?_⟩
  rw [hemitted, hline, ← h]
  exact congrArg (List.map some) hsame

/-- Signals enter the stream. -/
theorem step_emit (h : t.jobs.core.line.map some = t.line.map (t.emitted[·]?))
    {signals : List Signal} (hf' : (t.jobs.act x).core.front = t.jobs.core.front)
    (hs' : (t.jobs.act x).core.feed.stream = t.jobs.core.feed.stream ++ signals) :
    (t.step x).emitted = t.emitted ++ signals ∧
      (t.step x).line = t.line ++ List.range' t.emitted.length signals.length ∧
      (t.step x).fates = t.fates ∧
      (t.step x).jobs.core.line.map some = (t.step x).line.map ((t.step x).emitted[·]?) := by
  obtain ⟨front, stream, hl, hlen, -, -⟩ := line_split h
  have hline := line_step (x := x) hl hlen
  have hfates := fates_step (x := x) hl hlen
  have hp : t.jobs.core.passed (t.jobs.act x).core = 0 := by simp [Core.passed, hf']
  have hm : t.jobs.core.missed (t.jobs.act x).core = 0 := by simp [Core.missed, Core.line, hf', hs']
  have hn : t.jobs.core.fresh (t.jobs.act x).core = signals := by simp [Core.fresh, hs']
  have hemitted : (t.step x).emitted = t.emitted ++ signals := by
    rw [emitted_step, hn]
  simp only [hp, hm, hn, List.drop_zero, List.take_zero, List.map_nil, List.append_nil]
    at hline hfates
  rw [← hl] at hline
  refine ⟨hemitted, hline, hfates, ?_⟩
  have hold := map_getElem?_append t.emitted signals h
  have hnew := map_getElem?_range' t.emitted signals
  have hall : (t.step x).jobs.core.line = t.jobs.core.line ++ signals := by
    show (t.jobs.act x).core.front ++ (t.jobs.act x).core.feed.stream = _
    rw [hf', hs', Core.line, List.append_assoc]
  rw [hemitted, hline, List.map_append, hold, hnew, hall, List.map_append]

/-- The listener is done with a signal: that was the first one on its way. -/
theorem step_pass (h : t.jobs.core.line.map some = t.line.map (t.emitted[·]?)) {signal : Signal}
    (hf' : t.jobs.core.front = signal :: (t.jobs.act x).core.front)
    (hs' : (t.jobs.act x).core.feed.stream = t.jobs.core.feed.stream) :
    ∃ i, t.emitted[i]? = some signal ∧ (t.step x).emitted = t.emitted ∧
      t.line = i :: (t.step x).line ∧
      (t.step x).fates = t.fates ++ [(i, t.jobs.core.seenFate)] ∧
      (t.step x).jobs.core.line.map some = (t.step x).line.map ((t.step x).emitted[·]?) := by
  obtain ⟨front, stream, hl, hlen, hf, hs⟩ := line_split h
  have hline := line_step (x := x) hl hlen
  have hfates := fates_step (x := x) hl hlen
  have hp : t.jobs.core.passed (t.jobs.act x).core = 1 := by simp [Core.passed, hf']
  have hm : t.jobs.core.missed (t.jobs.act x).core = 0 := by
    simp only [Core.missed, Core.line, hp, hf', hs', List.length_append, List.length_cons]
    omega
  have hn : t.jobs.core.fresh (t.jobs.act x).core = [] := by simp [Core.fresh, hs']
  have hemitted : (t.step x).emitted = t.emitted := by
    rw [emitted_step, hn, List.append_nil]
  rw [hf', List.map_cons, eq_comm, List.map_eq_cons_iff] at hf
  obtain ⟨i, rest, rfl, hi, hf⟩ := hf
  simp only [hp, hm, hn, List.drop_zero, List.take_zero, List.map_nil, List.length_nil,
    List.range'_zero, List.append_nil, List.drop_succ_cons, List.take_succ_cons, List.map_cons]
    at hline hfates
  refine ⟨i, hi, hemitted, by rw [hl, hline]; rfl, hfates, ?_⟩
  show ((t.jobs.act x).core.front ++ (t.jobs.act x).core.feed.stream).map some = _
  rw [hemitted, hline, hs', List.map_append, List.map_append, ← hf, ← hs]

/-- Signals leave the stream and do not come to the listener. -/
theorem step_miss (h : t.jobs.core.line.map some = t.line.map (t.emitted[·]?))
    {signals : List Signal} (hf' : (t.jobs.act x).core.front = t.jobs.core.front)
    (hs' : t.jobs.core.feed.stream = signals ++ (t.jobs.act x).core.feed.stream) :
    ∃ front ids rest, t.line = front ++ ids ++ rest ∧ (t.step x).emitted = t.emitted ∧
      (t.step x).line = front ++ rest ∧
      (t.step x).fates = t.fates ++ ids.map (·, t.jobs.core.missedFate) ∧
      (t.step x).jobs.core.line.map some = (t.step x).line.map ((t.step x).emitted[·]?) := by
  obtain ⟨front, stream, hl, hlen, hf, hs⟩ := line_split h
  have hline := line_step (x := x) hl hlen
  have hfates := fates_step (x := x) hl hlen
  rw [hs', List.map_append, eq_comm, List.map_eq_append_iff] at hs
  obtain ⟨ids, rest, rfl, hids, hrest⟩ := hs
  have hlength : ids.length = signals.length := by simpa using congrArg List.length hids
  have hp : t.jobs.core.passed (t.jobs.act x).core = 0 := by simp [Core.passed, hf']
  have hm : t.jobs.core.missed (t.jobs.act x).core = ids.length := by
    simp only [Core.missed, Core.line, hp, hf', hs', List.length_append]
    omega
  have hn : t.jobs.core.fresh (t.jobs.act x).core = [] := by simp [Core.fresh, hs']
  have hemitted : (t.step x).emitted = t.emitted := by
    rw [emitted_step, hn, List.append_nil]
  simp only [hp, hm, hn, List.drop_zero, List.take_zero, List.map_nil, List.length_nil,
    List.range'_zero, List.append_nil, List.drop_left, List.take_left] at hline hfates
  refine ⟨front, ids, rest, by rw [hl, List.append_assoc], hemitted, hline, hfates, ?_⟩
  show ((t.jobs.act x).core.front ++ (t.jobs.act x).core.feed.stream).map some = _
  rw [hemitted, hline, hf', List.map_append, List.map_append, hf, ← hrest]

end

/-- An act is one of the advances, and the numbers stay those of the signals. -/
theorem step_advance (h : t.jobs.core.line.map some = t.line.map (t.emitted[·]?))
    (x : Dispatcher.Act) :
    Advance t (t.step x) ∧
      (t.step x).jobs.core.line.map some = (t.step x).line.map ((t.step x).emitted[·]?) := by
  cases (t.jobs.act_effect x).traffic with
  | stay hf hs =>
    obtain ⟨he, hl, hfates, hline⟩ :=
      step_keep h (Nat.le_of_eq (by rw [hf])) (by rw [Core.line, Core.line, hf, hs])
    exact ⟨.stay he hl hfates, hline⟩
  | emit signals hf hs =>
    obtain ⟨he, hl, hfates, hline⟩ := step_emit h hf hs
    exact ⟨.emit signals he hl hfates, hline⟩
  | forward signal hf hs =>
    have hsame : (t.jobs.act x).core.line = t.jobs.core.line := by
      rw [Core.line, Core.line, hf, hs, List.append_assoc, List.singleton_append]
    obtain ⟨he, hl, hfates, hline⟩ := step_keep h (by rw [hf]; simp) hsame
    exact ⟨.stay he hl hfates, hline⟩
  | lose signal hf hs _ hq =>
    have hone : t.jobs.core.feed.stream = [signal] ++ (t.jobs.act x).core.feed.stream := hs
    obtain ⟨front, ids, rest, hl, he, hl', hfates, hline⟩ := step_miss h hf hone
    exact ⟨.miss front ids rest _ (Core.isSeen_missedFate _) (fun _ => hq) he hl hl' hfates, hline⟩
  | dismiss hf hs hstopped =>
    have hlost : t.jobs.core.missedFate ≠ .lost := by simp [Core.missedFate, hstopped]
    obtain ⟨front, ids, rest, hl, he, hl', hfates, hline⟩ :=
      step_miss h hf (by rw [hs, List.append_nil])
    exact ⟨.miss front ids rest _ (Core.isSeen_missedFate _) (absurd · hlost) he hl hl' hfates,
      hline⟩
  | skip _ hf hs | classify _ hf hs =>
    obtain ⟨i, -, he, hl, hfates, hline⟩ := step_pass h hf hs
    exact ⟨.see i _ (Core.isSeen_seenFate _) he hl hfates, hline⟩

namespace Accounted

theorem start (capacity : Nat) : Accounted (Trail.start capacity) :=
  ⟨rfl, .refl _, .nil⟩

/-- Every number is a place among the emitted signals. -/
theorem lt_length (h : Accounted t) {i : Nat} (hi : i ∈ t.fates.map (·.1) ++ t.line) :
    i < t.emitted.length :=
  List.mem_range.1 (h.perm.mem_iff.1 hi)

theorem mem_of_mem_seen {i : Nat} (h : i ∈ t.seen) : i ∈ t.fates.map (·.1) := by
  obtain ⟨e, he, hi⟩ := List.mem_map.1 h
  exact List.mem_map.2 ⟨e, List.mem_of_mem_filter he, hi⟩

theorem step (h : Accounted t) (x : Dispatcher.Act) : Accounted (t.step x) := by
  obtain ⟨adv, hline⟩ := step_advance h.line_eq x
  refine ⟨hline, ?_, ?_⟩
  · cases adv with
    | stay he hl hf =>
      rw [he, hl, hf]
      exact h.perm
    | emit signals he hl hf =>
      rw [he, hl, hf, List.length_append, List.range_eq_range', ← List.range'_append_1,
        ← List.range_eq_range', ← List.append_assoc, Nat.zero_add]
      exact h.perm.append_right _
    | see i fate hs he hl hf =>
      have hp := h.perm
      rw [hl] at hp
      rw [he, hf]
      simpa using hp
    | miss front ids rest fate hs _ he hl hl' hf =>
      have hp := h.perm
      rw [hl] at hp
      rw [he, hl', hf]
      refine List.Perm.trans ?_ hp
      simp only [List.map_append, List.map_map, Function.comp_def, List.map_id', List.append_assoc]
      refine List.Perm.append_left _ ?_
      rw [← List.append_assoc, ← List.append_assoc]
      exact List.perm_append_comm.append_right _
  · cases adv with
    | stay he hl hf =>
      rw [seen, hl, hf]
      exact h.ascending
    | emit signals he hl hf =>
      rw [seen, hl, hf, ← List.append_assoc]
      refine List.pairwise_append.2 ⟨h.ascending, List.pairwise_lt_range', fun i hi k hk => ?_⟩
      have hlt := h.lt_length (i := i) (by
        rcases List.mem_append.1 hi with hi | hi
        · exact List.mem_append_left _ (mem_of_mem_seen hi)
        · exact List.mem_append_right _ hi)
      have hge := (List.mem_range'_1.1 hk).1
      omega
    | see i fate hs he hl hf =>
      have hp := h.ascending
      rw [hl] at hp
      simpa [seen, hf, hs] using hp
    | miss front ids rest fate hs _ he hl hl' hf =>
      have hp := h.ascending
      rw [hl] at hp
      have hseen : (t.step x).seen = t.seen := by
        simp [seen, hf, hs, List.filter_map, Function.comp_def]
      rw [hseen, hl']
      exact hp.sublist (by simp)

/-- No signal has two fates. -/
theorem nodup (h : Accounted t) : (t.fates.map (·.1)).Nodup :=
  (List.nodup_append.1 (h.perm.nodup_iff.2 List.nodup_range)).1

theorem fate_eq (h : Accounted t) {i : Nat} {f g : Fate} (hf : (i, f) ∈ t.fates)
    (hg : (i, g) ∈ t.fates) : f = g :=
  (Prod.mk.inj (List.inj_on_of_nodup_map h.nodup hf hg rfl)).2

end Accounted

/-! ## What the listener handled -/

theorem mem_classified {i : Nat} {ρ : Resolution} :
    (i, ρ) ∈ t.classified ↔ (i, .classified ρ) ∈ t.fates := by
  simp only [classified, List.mem_filterMap, Option.map_eq_some_iff, Prod.mk.injEq]
  constructor
  · rintro ⟨⟨k, fate⟩, hm, ρ', hr, rfl, rfl⟩
    cases fate <;> cases hr
    exact hm
  · exact fun hm => ⟨_, hm, ρ, rfl, rfl, rfl⟩

/-- The listener handles no signal twice. -/
theorem Accounted.nodup_classified (h : Accounted t) : (t.classified.map (·.1)).Nodup := by
  have hmap : t.classified.map (·.1) = (t.fates.filter (·.2.resolution?.isSome)).map (·.1) := by
    unfold classified
    induction t.fates with
    | nil => rfl
    | cons f fates ih =>
      cases hr : f.2.resolution? with
      | none => simpa [hr] using ih
      | some ρ => simpa [hr] using ih
  rw [hmap]
  exact h.nodup.sublist (List.filter_sublist.map _)

section

variable {x : Dispatcher.Act}

theorem classified_step_of_none
    (hn : t.jobs.core.classified? (t.jobs.act x).core = none) :
    (t.step x).classified = t.classified := by
  have hnone : ∀ {fate : Fate} (ids : List Nat), fate.resolution? = none →
      (ids.map (·, fate)).filterMap (fun f => f.2.resolution?.map (f.1, ·)) = [] := fun ids hf => by
    rw [List.filterMap_map]
    exact List.filterMap_eq_nil_iff.2 fun i _ => by simp [hf]
  unfold classified step
  rw [List.filterMap_append, List.filterMap_append, hnone _ t.jobs.core.resolution?_missedFate,
    List.append_nil]
  rcases Core.passed_eq_zero_or_of_classified? hn with hp | hs
  · rw [hp, List.take_zero, List.map_nil, List.filterMap_nil, List.append_nil]
  · rw [hnone _ hs, List.append_nil]

/-- An act in which the listener handles a signal. -/
theorem step_of_classified? (h : t.jobs.core.line.map some = t.line.map (t.emitted[·]?))
    {event : JobRemoved} (he : t.jobs.core.classified? (t.jobs.act x).core = some event) :
    ∃ i, t.emitted[i]? = some (.removed event) ∧ (t.step x).emitted = t.emitted ∧
      t.line = i :: (t.step x).line ∧
      (t.step x).classified =
        t.classified ++ [(i, (t.jobs.table.resolve event.jobPath event.result).1)] ∧
      (t.step x).journal = t.journal ++ [.signalled event.jobPath event.result] := by
  obtain ⟨hf, hs, -, hd⟩ := (t.jobs.act_effect x).classify he
  obtain ⟨i, hi, hemitted, hl, hfates, -⟩ := step_pass h hf hs
  refine ⟨i, hi, hemitted, hl, ?_, by rw [← hd]; rfl⟩
  have hseen : t.jobs.core.seenFate =
      .classified (t.jobs.table.resolve event.jobPath event.result).1 := by
    rw [Core.seenFate, hf]
    rfl
  rw [classified, hfates, List.filterMap_append, hseen]
  rfl

end

/-! ## What the table shows -/

/-- A trail whose signals are accounted for, and whose table shows its journal. -/
structure Sound (t : Trail) : Prop extends Accounted t where
  table : JobTable.Sound t.journal t.jobs.table
  holds : JobTable.Holds t.jobs.table t.jobs.core.tickets
  drained : t.jobs.feed.pumping = false → t.jobs.feed.stream = []

namespace Sound

theorem start (capacity : Nat) : Sound (Trail.start capacity) :=
  ⟨.start capacity, sound_nil, .nil, fun _ => rfl⟩

theorem step (h : Sound t) (x : Dispatcher.Act) : Sound (t.step x) := by
  have he := t.jobs.act_effect x
  obtain ⟨hh, hd⟩ := he.doesAll h.holds
  exact ⟨h.toAccounted.step x, h.table.doesAll hd, hh, he.drained h.drained⟩

theorem after (h : Sound t) (xs : List Dispatcher.Act) : Sound (t.after xs) := by
  induction xs generalizing t with
  | nil => exact h
  | cons x xs ih => exact ih (h.step x)

/-- A pump that has something to move is running. -/
theorem pumping (h : Sound t) (hs : t.jobs.feed.stream ≠ []) :
    t.jobs.feed.pumping = true := by
  by_contra hp
  exact hs (h.drained (Bool.eq_false_iff.2 hp))

end Sound

/-- A later state: every signal of which the journal has news since then is among those that the
listener has handled since then. -/
def Grows (t t' : Trail) : Prop :=
  ∃ deeds handled signals, t'.journal = t.journal ++ deeds ∧
    t'.classified = t.classified ++ handled ∧ t'.emitted = t.emitted ++ signals ∧
    ∀ path result, .signalled path result ∈ deeds →
      ∃ c ∈ handled, ∃ event, t'.emitted[c.1]? = some (.removed event) ∧ event.jobPath = path

namespace Grows

theorem refl (t : Trail) : Grows t t :=
  ⟨[], [], [], by simp⟩

theorem trans {t' t'' : Trail} (h : Grows t t') (h' : Grows t' t'') : Grows t t'' := by
  obtain ⟨ds, cs, es, hj, hc, he, hs⟩ := h
  obtain ⟨ds', cs', es', hj', hc', he', hs'⟩ := h'
  refine ⟨ds ++ ds', cs ++ cs', es ++ es', by rw [hj', hj, List.append_assoc],
    by rw [hc', hc, List.append_assoc], by rw [he', he, List.append_assoc],
    fun path result hm => ?_⟩
  rcases List.mem_append.1 hm with hm | hm
  · obtain ⟨c, hcm, event, hev, hp⟩ := hs path result hm
    refine ⟨c, List.mem_append_left _ hcm, event, ?_, hp⟩
    rw [he', List.getElem?_append_left (List.getElem?_eq_some_iff.1 hev).1, hev]
  · obtain ⟨c, hcm, hev⟩ := hs' path result hm
    exact ⟨c, List.mem_append_right _ hcm, hev⟩

theorem step (h : Sound t) (x : Dispatcher.Act) : Grows t (t.step x) := by
  cases he : t.jobs.core.classified? (t.jobs.act x).core with
  | none =>
    refine ⟨_, [], _, rfl, by rw [classified_step_of_none he, List.append_nil], rfl,
      fun path result hm => ?_⟩
    obtain ⟨event, hev, -⟩ := Core.signalled_mem_deeds.1 hm
    exact absurd (he.symm.trans hev) (by simp)
  | some event =>
    obtain ⟨i, hi, hemitted, -, hc, hj⟩ := step_of_classified? h.line_eq he
    refine ⟨_, _, _, hj, hc, rfl, fun path result hm => ?_⟩
    obtain ⟨rfl, -⟩ := Deed.signalled.inj (List.mem_singleton.1 hm)
    exact ⟨_, List.mem_singleton_self _, event, by rw [hemitted, hi], rfl⟩

theorem after (h : Sound t) (xs : List Dispatcher.Act) : Grows t (t.after xs) := by
  induction xs generalizing t with
  | nil => exact .refl t
  | cons x xs ih => exact (step h x).trans (ih (h.step x))

end Grows

end Trail

end SystemdControl
