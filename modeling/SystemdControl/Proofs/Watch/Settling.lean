import Mathlib.Algebra.GroupWithZero.Nat
import Mathlib.Algebra.Order.BigOperators.Group.List
import Mathlib.Algebra.Order.Group.Nat
import SystemdControl.Proofs.Agenda
import SystemdControl.Proofs.Watch.Changes

/-!
# Everyone comes to rest

While the clock stands still pollers and readers cannot go on for ever: a poller sets its alarm to a
later moment when it starts a fetch, a reader that gets something leaves the line, and whoever is
called is called for one of these. So an inventory comes to rest before time goes on.

* `Inventory.effort` bounds the steps that are left; `Inventory.effort_lt`: each step is one;
* `Inventory.next?_settle`: after settling nobody is on the agenda;
* `Inventory.goingOn` are the acts by which everything goes on, and `Inventory.settle_eq_goingOn`:
  settling is a run of acts like any other.
-/

namespace SystemdControl

namespace Subscription

variable {p p' : Subscription} {now : Nat}

/-- A bound on what a poller can do while the clock stands still: moves, and calls of a reader. A
poller whose alarm has gone off goes through a whole cycle more. -/
def toil (now : Nat) (p : Subscription) : Nat :=
  match p.phase with
  | .due => 5
  | .fetching _ => if p.alarm ≤ now then 9 else 4
  | .publishing .. => if p.alarm ≤ now then 8 else 3
  | .resting => if p.alarm ≤ now then 6 else 1
  | .ended => 0

theorem toil_le (now : Nat) (p : Subscription) : p.toil now ≤ 9 := by
  unfold toil
  split
  all_goals first | omega | (split <;> omega)

theorem toil_begin_lt (now : Nat) (hw : p.wantsFetch = true) (fetch : Fetch) :
    (p.begin now fetch).toil now < p.toil now := by
  have hp := phase_of_wantsFetch hw
  have halarm : ¬ now + p.interval ≤ now := by
    have := p.interval_pos
    omega
  simp [toil, begin, hp, halarm]

theorem toil_pos (hp : p.phase ≠ .ended) : 0 < p.toil now := by
  unfold toil
  split
  · omega
  · split <;> omega
  · split <;> omega
  · split <;> omega
  · rename_i h
    exact absurd h hp

/-- A move uses some of it up, and publishing leaves enough for a call. -/
theorem toil_move?_lt (h : p.move? now = some p') :
    p'.toil now < p.toil now ∧
      (p.changes.length < p'.changes.length → p'.toil now + 1 < p.toil now) := by
  have hquiet : p'.toil now < p.toil now → p'.changes = p.changes →
      p'.toil now < p.toil now ∧
        (p.changes.length < p'.changes.length → p'.toil now + 1 < p.toil now) := fun h hc =>
    ⟨h, fun hl => absurd hl (hc ▸ Nat.lt_irrefl _)⟩
  have hm := moves_of_move? h
  generalize p.received (.move now) = r, p.publishes (.move now) = o at hm
  cases hm with
  | stay hnone =>
    rw [hnone] at h
    cases h
  | @receive fetch hp =>
    refine hquiet ?_ (changes_receive _)
    cases fetch.result with
    | ok units =>
      show (if p.alarm ≤ now then 8 else 3) < p.toil now
      simp only [toil, hp]
      split <;> omega
    | error e =>
      show (if p.alarm ≤ now then 6 else 1) < p.toil now
      simp only [toil, hp]
      split <;> omega
  | publish hp =>
    simp only [toil, hp]
    split <;> omega
  | wake hp halarm => exact hquiet (by simp [toil, hp, halarm]) rfl
  | stop _ hp => exact hquiet (toil_pos hp) rfl

end Subscription

namespace Inventory

variable {s s' : Inventory} {k now : Nat} {p p' : Subscription}

/-! ## The measure -/

/-- What all pollers can do while the clock stands still. -/
def toil (now : Nat) (s : Inventory) : Nat :=
  (s.pollers.map fun e => e.2.toil now).sum

/-- A bound on what a reader of a subscription can do: to leave the line, with the calls that this
makes, and to answer to the end of its poller. -/
def wait (s : Inventory) (k : Nat) : Nat :=
  if (s.poller? k).any (!·.hasEnded) then 5 else 4

/-- What all readers in line can do. -/
def waits (s : Inventory) : Nat :=
  (s.line.map fun e => s.wait e.2).sum

/-- A bound on the steps that are possible while the clock stands still. -/
def effort (now : Nat) (s : Inventory) : Nat :=
  s.toil now + s.waits + s.agenda.size

/-- A poller that is found can be put in front. -/
theorem pollers_perm (h : s.keys.Nodup) (hp : s.poller? k = some p) :
    s.pollers.Perm ((k, p) :: s.pollers.filter (·.1 ≠ k)) := by
  simp only [keys, poller?] at h hp
  generalize s.pollers = l at h hp
  induction l with
  | nil => cases hp
  | cons e l ih =>
    rw [List.map_cons, List.nodup_cons] at h
    by_cases he : e.1 = k
    · have hrest : l.filter (·.1 ≠ k) = l := by
        refine List.filter_eq_self.2 fun e' he' => ?_
        have hne : e'.1 ≠ k := fun h' => h.1 (he ▸ h' ▸ List.mem_map_of_mem he')
        simpa using hne
      have hep : e = (k, p) := by
        simp only [List.find?_cons, he, decide_true, Option.map_some, Option.some.injEq] at hp
        rw [← hp, ← he]
      subst hep
      rw [List.filter_cons_of_neg (by simp), hrest]
    · rw [List.filter_cons_of_pos (by simpa using he)]
      refine ((ih h.2 ?_).cons e).trans (.swap ..)
      simpa [List.find?_cons, he] using hp

theorem toil_of_poller? (h : s.keys.Nodup) (hp : s.poller? k = some p) :
    s.toil now = p.toil now + ((s.pollers.filter (·.1 ≠ k)).map fun e => e.2.toil now).sum := by
  rw [toil, ((pollers_perm h hp).map _).sum_nat, List.map_cons, List.sum_cons]

theorem toil_putPoller (h : s.keys.Nodup) (hp : s.poller? k = some p) (p' : Subscription)
    (now : Nat) : (s.putPoller k p').toil now + p.toil now = s.toil now + p'.toil now := by
  have hothers : (s.putPoller k p').pollers.filter (·.1 ≠ k) = s.pollers.filter (·.1 ≠ k) := by
    simp only [putPoller]
    induction s.pollers with
    | nil => rfl
    | cons e l ih =>
      rw [List.map_cons]
      by_cases he : e.1 = k
      · rw [if_pos he, List.filter_cons_of_neg (by simp), List.filter_cons_of_neg (by simpa), ih]
      · rw [if_neg he, List.filter_cons_of_pos (by simpa), List.filter_cons_of_pos (by simpa), ih]
  rw [toil_of_poller? h hp, toil_of_poller? (by rwa [keys_putPoller])
    (poller?_putPoller_self p' hp), hothers]
  omega

theorem toil_pause (h : s.keys.Nodup) (watcher : Watcher) :
    (s.pause watcher).toil now = s.toil now := by
  have hp := s.pauses watcher
  generalize s.pause watcher = s' at hp
  cases hp with
  | @poller k p hp =>
    rw [toil_of_poller? h hp]
    simp [toil, requeuePoller, Nat.add_comm]
  | reader | gone => rfl

theorem wait_congr {j : Nat} (h : s'.poller? j = s.poller? j) : s'.wait j = s.wait j := by
  rw [wait, h, wait]

theorem wait_putPoller (hp : s.poller? k = some p) (he : p'.hasEnded = p.hasEnded) (j : Nat) :
    (s.putPoller k p').wait j = s.wait j := by
  rw [wait, wait, poller?_putPoller]
  split
  · rename_i hj
    rw [hj, hp, Option.map_some, Option.any_some, Option.any_some, he]
  · rfl

/-- The readers of a poller that ends have less to do: each of them can be called for it. -/
theorem waits_putPoller_of_end (hp : s.poller? k = some p) (he : p.hasEnded = false)
    (he' : p'.hasEnded = true) :
    (s.putPoller k p').waits + (s.readers.filter (·.subscription = k)).length = s.waits := by
  have hwait : ∀ j, (s.putPoller k p').wait j + (if j = k then 1 else 0) = s.wait j := fun j => by
    rw [wait, wait, poller?_putPoller]
    by_cases hj : j = k
    · simp [hj, hp, he, he']
    · simp [hj]
  show ((s.readers.map fun r => (r.number, r.subscription)).map _).sum + _ =
    ((s.readers.map fun r => (r.number, r.subscription)).map _).sum
  induction s.readers with
  | nil => rfl
  | cons r l ih =>
    have hr := hwait r.subscription
    by_cases h : r.subscription = k
    · rw [List.filter_cons_of_pos (by simpa), List.length_cons]
      rw [if_pos h] at hr
      simp only [List.map_cons, List.sum_cons]
      omega
    · rw [List.filter_cons_of_neg (by simpa)]
      rw [if_neg h] at hr
      simp only [List.map_cons, List.sum_cons]
      omega

theorem size_callReader_le (s : Inventory) (k : Nat) :
    (s.callReader k).agenda.size ≤ s.agenda.size + 1 := by
  unfold callReader
  split
  · exact Nat.le_succ _
  · exact Agenda.size_rouse_le _ _

theorem size_callReaders_le (s : Inventory) (k : Nat) :
    (s.callReaders k).agenda.size ≤
      s.agenda.size + (s.readers.filter (·.subscription = k)).length := by
  have h := s.agenda.size_rouseAll_le
    ((s.readers.filter (·.subscription = k)).map fun r => .reader r.number)
  rwa [List.length_map] at h

/-- Calls cost what they put on the agenda. -/
theorem effort_stir (h : Stirs s s') (now : Nat) :
    s'.effort now + s.agenda.size = s.effort now + s'.agenda.size := by
  have htoil : s'.toil now = s.toil now := by rw [toil, toil, h.pollers]
  have hwaits : s'.waits = s.waits := by
    rw [waits, waits, h.line]
    exact congrArg List.sum (List.map_congr_left fun e _ => wait_congr (h.poller?_eq e.2))
  rw [effort, effort, htoil, hwaits]
  omega

theorem effort_putPoller (h : s.keys.Nodup) (hp : s.poller? k = some p) (p' : Subscription)
    (he : p'.hasEnded = p.hasEnded) (now : Nat) :
    (s.putPoller k p').effort now + p.toil now = s.effort now + p'.toil now := by
  have htoil := toil_putPoller h hp p' now
  have hwaits : (s.putPoller k p').waits = s.waits :=
    congrArg List.sum (List.map_congr_left fun e _ => wait_putPoller hp he e.2)
  have hsize : (s.putPoller k p').agenda.size = s.agenda.size := rfl
  rw [effort, effort, hwaits, hsize]
  omega

theorem effort_cancel_le (h : s.keys.Nodup) (k now : Nat) :
    (s.cancel k).effort now ≤ s.effort now + 1 := by
  unfold cancel
  split
  · exact Nat.le_succ _
  · rename_i p hp
    have hput := effort_putPoller h hp p.cancel rfl now
    have hcancel : p.cancel.toil now = p.toil now := rfl
    have hstir := effort_stir (Stirs.rouse (s.putPoller k p.cancel) (.poller k)) now
    have hsize := Agenda.size_rouse_le (s.putPoller k p.cancel).agenda (Watcher.poller k)
    have hagenda : ((s.putPoller k p.cancel).rouse (.poller k)).agenda =
      (s.putPoller k p.cancel).agenda.rouse (.poller k) := rfl
    rw [hagenda] at hstir
    omega

theorem effort_cancelIfUnwanted_le (h : s.keys.Nodup) (k now : Nat) :
    (s.cancelIfUnwanted k).effort now ≤ s.effort now + 1 := by
  unfold cancelIfUnwanted
  split
  · exact Nat.le_succ _
  · exact effort_cancel_le h k now

/-- Leaving the line makes at most two calls, and pays for one more. -/
theorem effort_leaveLine (h : s.keys.Nodup) {reader : Reader} (hr : reader ∈ s.readers)
    (now : Nat) : (s.leaveLine reader).effort now + 2 ≤ s.effort now := by
  let s₁ : Inventory := { s with readers := s.readers.erase reader }
  let s₂ := if reader.called then s₁.callReader reader.subscription else s₁
  have hwait : 4 ≤ s.wait reader.subscription := by
    unfold wait
    split <;> omega
  have herase : s₁.effort now + 4 ≤ s.effort now := by
    have hperm := (((List.perm_cons_erase hr).map fun r : Reader =>
      (r.number, r.subscription)).map fun e => s.wait e.2).sum_nat
    have hwaits : s.waits = s.wait reader.subscription + s₁.waits := hperm
    have htoil : s₁.toil now = s.toil now := rfl
    have hsize : s₁.agenda.size = s.agenda.size := rfl
    rw [effort, effort, hwaits, htoil, hsize]
    omega
  have hcall : s₂.effort now ≤ s₁.effort now + 1 := by
    show (if reader.called then s₁.callReader reader.subscription else s₁).effort now ≤ _
    split
    · have hstir := effort_stir (Stirs.callReader s₁ reader.subscription) now
      have hsize := s₁.size_callReader_le reader.subscription
      omega
    · exact Nat.le_succ _
  have hkeys : s₂.keys.Nodup := by
    have hs₂ : s₂.pollers = s.pollers := by
      show (if reader.called then s₁.callReader reader.subscription else s₁).pollers = _
      split
      · exact pollers_callReader _
      · rfl
    rwa [keys, hs₂]
  have hcancel := effort_cancelIfUnwanted_le hkeys reader.subscription now
  have hleave : s.leaveLine reader = s₂.cancelIfUnwanted reader.subscription := rfl
  rw [hleave]
  omega

/-! ## Steps -/

theorem effort_pollerMoves_lt (h : s.keys.Nodup) (hm : s.PollerMoves now k s') :
    s'.effort now < s.effort now := by
  cases hm with
  | @begin p hp hw =>
    have hfetch := effort_stir (Stirs.fetch s now) now
    have hpollers : (s.fetch now).2.keys = s.keys := by rw [keys, pollers_fetch, keys]
    have hp' : (s.fetch now).2.poller? k = some p := (poller?_congr (pollers_fetch now) k).trans hp
    have he : (p.begin now (s.fetch now).1).hasEnded = p.hasEnded := by
      simp [Subscription.hasEnded, Subscription.begin, Subscription.phase_of_wantsFetch hw]
    have hput := effort_putPoller (hpollers ▸ h) hp' _ he now
    have hlt := Subscription.toil_begin_lt now hw (s.fetch now).1
    have hsize : (s.fetch now).2.agenda = s.agenda := by
      unfold fetch
      split <;> rfl
    rw [hsize] at hfetch
    omega
  | @move p p' hp hw hm =>
    obtain ⟨hend, -, hstop⟩ := Subscription.move?_cases hm
    obtain ⟨hlt, hcall⟩ := Subscription.toil_move?_lt hm
    unfold callFor
    cases he : p'.hasEnded with
    | true =>
      have htoil := toil_putPoller h hp p' now
      have hwaits := waits_putPoller_of_end hp hend he
      have hstir := effort_stir (Stirs.callReaders (s.putPoller k p') k) now
      have hsize := (s.putPoller k p').size_callReaders_le k
      have hagenda : (s.putPoller k p').agenda.size = s.agenda.size := rfl
      have hreaders : (s.putPoller k p').readers = s.readers := rfl
      have hlen : ¬ p.changes.length < p'.changes.length := by simp [hstop he]
      rw [if_neg hlen, if_pos rfl]
      rw [hreaders] at hsize
      simp only [effort] at hstir ⊢
      omega
    | false =>
      have hput := effort_putPoller h hp p' (he.trans hend.symm) now
      rw [if_neg Bool.false_ne_true]
      split
      · rename_i hl
        have hstir := effort_stir (Stirs.callReader (s.putPoller k p') k) now
        have hsize := (s.putPoller k p').size_callReader_le k
        have hcall := hcall hl
        omega
      · omega

theorem effort_reads_le (h : s.keys.Nodup) {item : StreamItem}
    (hm : s.Reads k .changes item s') (now : Nat) :
    s'.effort now ≤ s.effort now + 1 ∧ s'.readers = s.readers ∧ s'.keys = s.keys := by
  cases hm with
  | @change p delta rest hp hc =>
    let p' : Subscription := { p with changes := rest }
    have hput := effort_putPoller h hp p' rfl now
    have htoil : p'.toil now = p.toil now := rfl
    split
    · have hstir := effort_stir (Stirs.rouse (s.putPoller k p') (.poller k)) now
      have hsize := Agenda.size_rouse_le (s.putPoller k p').agenda (Watcher.poller k)
      have hagenda : ((s.putPoller k p').rouse (.poller k)).agenda =
        (s.putPoller k p').agenda.rouse (.poller k) := rfl
      rw [hagenda] at hstir
      refine ⟨?_, rfl, keys_putPoller ..⟩
      show ((s.putPoller k p').rouse (.poller k)).effort now ≤ _
      omega
    · refine ⟨?_, rfl, keys_putPoller ..⟩
      show (s.putPoller k p').effort now ≤ _
      omega
  | pending | ended => exact ⟨Nat.le_succ _, rfl, rfl⟩

theorem effort_move?_lt (h : s.keys.Nodup) {watcher : Watcher}
    (hm : s.move? now watcher = some s') : s'.effort now < s.effort now := by
  cases watcher with
  | poller k => exact effort_pollerMoves_lt h (pollerMoves hm)
  | reader number =>
    obtain ⟨reader, item, s₁, hr, hreads, -, rfl⟩ := moveReader?_eq_some hm
    obtain ⟨hread, hreaders, hkeys⟩ := effort_reads_le h hreads now
    have hmem : reader ∈ s₁.readers := hreaders ▸ List.mem_of_find?_eq_some hr
    have hleave := effort_leaveLine (hkeys ▸ h) hmem now
    have hnote : ((s₁.leaveLine reader).note reader.label (.received item)).effort now =
      (s₁.leaveLine reader).effort now := rfl
    rw [hnote]
    omega

theorem effort_pause_lt (h : s.keys.Nodup) {watcher : Watcher}
    (hnext : s.agenda.next? = some watcher) : (s.pause watcher).effort now < s.effort now := by
  have hwaits : (s.pause watcher).waits = s.waits := by
    rw [waits, waits, (((s.line_pause_perm watcher).map _).sum_nat)]
    refine congrArg List.sum (List.map_congr_left fun e _ => ?_)
    exact wait_congr (poller?_pause s watcher e.2)
  have hsize : 0 < s.agenda.size := by
    obtain ⟨rest, hrest⟩ := List.head?_eq_some_iff.1 hnext
    rw [Agenda.size, hrest]
    exact Nat.succ_pos _
  rw [effort, effort, toil_pause h, hwaits, agenda_pause, Agenda.size_dismiss]
  omega

/-- While the clock stands still each step is one of those that were left. -/
theorem effort_lt (h : s.keys.Nodup) (hs : s.step? now = some s') :
    s'.effort now < s.effort now := by
  obtain ⟨watcher, hnext, rfl⟩ := Option.map_eq_some_iff.1 hs
  cases hm : s.move? now watcher with
  | none => exact effort_pause_lt h hnext
  | some s' => exact effort_move?_lt h hm

/-- The acts by which everything goes on until it has to wait. -/
def goingOn (now : Nat) (s : Inventory) : List Act :=
  .alarm now :: List.replicate (s.alarm now).work (.turn now)

theorem steps_eq_turns (now n : Nat) (s : Inventory) :
    steps now n s = s.after (List.replicate n (.turn now)) := by
  induction n generalizing s with
  | zero => rfl
  | succ n ih =>
    rw [List.replicate_succ]
    show steps now (n + 1) s = (s.act (.turn now)).after _
    rw [← ih, steps, act]
    cases h : s.step? now with
    | some s' => rfl
    | none =>
      cases n with
      | zero => rfl
      | succ n => rw [Option.getD_none, steps, h]

theorem settle_eq_goingOn (now : Nat) (s : Inventory) :
    s.settle now = s.after (s.goingOn now) :=
  steps_eq_turns now _ _

theorem next?_steps (h : s.Numbered) {n : Nat} (hn : s.effort now < n) :
    (steps now n s).agenda.next? = none := by
  induction n generalizing s with
  | zero => exact absurd hn (Nat.not_lt_zero _)
  | succ n ih =>
    unfold steps
    split
    · rename_i hs
      exact Option.map_eq_none_iff.1 hs
    · rename_i s' hs
      have hact : s.act (.turn now) = s' := by rw [act, hs, Option.getD_some]
      refine ih (hact ▸ h.act _) ?_
      have hlt := effort_lt h.keys hs
      omega

/-- The bound on the steps of a settlement is enough. -/
theorem effort_lt_work (now : Nat) (s : Inventory) : s.effort now < s.work := by
  have htoil : s.toil now ≤ s.pollers.length * 9 := by
    rw [← List.length_map fun e : Nat × Subscription => e.2.toil now]
    refine List.sum_le_card_nsmul _ 9 fun n hn => ?_
    obtain ⟨e, -, rfl⟩ := List.mem_map.1 hn
    exact e.2.toil_le now
  have hwaits : s.waits ≤ s.line.length * 5 := by
    rw [← List.length_map fun e : Nat × Nat => s.wait e.2]
    refine List.sum_le_card_nsmul _ 5 fun n hn => ?_
    obtain ⟨e, -, rfl⟩ := List.mem_map.1 hn
    unfold wait
    split <;> omega
  have hline : s.line.length = s.readers.length := List.length_map _
  rw [effort, work]
  omega

/-- After settling nobody can go on before time does. -/
theorem next?_settle (h : s.Numbered) (now : Nat) : (s.settle now).agenda.next? = none :=
  next?_steps (h.stir (.alarm s now)) (effort_lt_work now _)

end Inventory

end SystemdControl
