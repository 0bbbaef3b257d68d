import Mathlib.Logic.Relation
import SystemdControl.Proofs.Text.Labelled
import SystemdControl.Proofs.Watch.Handing

/-!
# How an inventory changes

Every act of an inventory is a run of a few kinds of changes, or the end of a turn. Whoever wants to
know what all acts preserve looks at these.

* `Inventory.Change` is every way in which an inventory changes while someone goes on or calls, and
  `Inventory.act_changes`: an act is a run of such changes, or the end of a turn;
* `Inventory.Numbered`: pollers, holders and readers go by numbers that were given out once;
* `Inventory.exists_run_of_subscribe`: what follows a subscription is a run of it.
-/

namespace SystemdControl

namespace Subscription

variable {p p' : Subscription} {now : Nat}

theorem hasEnded_iff : p.hasEnded = true ↔ p.phase = .ended := by
  unfold hasEnded
  split
  · rename_i h
    exact ⟨fun _ => h, fun _ => rfl⟩
  · rename_i h
    exact ⟨fun h' => (by cases h'), fun h' => absurd h' h⟩

theorem hasEnded_receive (result : Except Error (List UnitStatus)) :
    (p.receive result).hasEnded = false := by
  cases result <;> rfl

/-- A poller that makes a move was not over yet. Either it goes on, or it ends as it is. -/
theorem move?_cases (h : p.move? now = some p') :
    p.hasEnded = false ∧ p'.cancelled = p.cancelled ∧
      (p'.hasEnded = true → p' = { p with phase := .ended }) := by
  have hm := moves_of_move? h
  generalize p.received (.move now) = r, p.publishes (.move now) = o at hm
  cases hm with
  | stay hnone =>
    rw [hnone] at h
    cases h
  | receive hp =>
    refine ⟨by simp [hasEnded, hp], cancelled_receive _, fun he => ?_⟩
    rw [hasEnded_receive] at he
    cases he
  | publish hp => exact ⟨by simp [hasEnded, hp], rfl, fun he => by cases he⟩
  | wake hp => exact ⟨by simp [hasEnded, hp], rfl, fun he => by cases he⟩
  | stop _ hp => exact ⟨Bool.eq_false_iff.2 (mt hasEnded_iff.1 hp), rfl, fun _ => rfl⟩

end Subscription

namespace Inventory

variable {s s' s₁ : Inventory} {key k : Nat} {p : Subscription} {label : String}

/-! ## Changes -/

/-- The readers in line, each by its number, with what they wait for. -/
def line (s : Inventory) : List (Nat × Nat) :=
  s.readers.map fun r => (r.number, r.subscription)

/-- The numbers of the pollers. -/
def keys (s : Inventory) : List Nat :=
  s.pollers.map (·.1)

/-- Some are called, or something is done that has to do with no subscription. -/
structure Stirs (s s' : Inventory) : Prop where
  pollers : s'.pollers = s.pollers
  opened : s'.opened = s.opened
  held : s'.held = s.held
  line : s'.line = s.line
  enrolled : s'.enrolled = s.enrolled
  agenda : ∀ w ∈ s.agenda.toList, w ∈ s'.agenda.toList

/-- How an inventory changes while someone goes on or calls. -/
inductive Change : Inventory → Inventory → Prop where
  | stir {s s' : Inventory} (h : Stirs s s') : Change s s'
  /-- A poller goes on, or something is read from it. -/
  | put {s : Inventory} {k : Nat} {p p' : Subscription} (hp : s.poller? k = some p)
      (hc : p'.cancelled = p.cancelled) (he : p'.hasEnded = p.hasEnded) :
      Change s (s.putPoller k p')
  /-- A poller ends, and all of its readers are called. -/
  | stop {s : Inventory} {k : Nat} {p p' : Subscription} (hp : s.poller? k = some p)
      (hc : p'.cancelled = p.cancelled) (he : p'.hasEnded = true) :
      Change s ((s.putPoller k p').callReaders k)
  | cancel (s : Inventory) (k : Nat) : Change s (s.cancel k)
  /-- A reader leaves the line. -/
  | leave {s s₁ : Inventory} {reader : Reader}
      (h : Stirs { s with readers := s.readers.erase reader } s₁) :
      Change s (s₁.cancelIfUnwanted reader.subscription)
  /-- A subscription is let go. -/
  | release {s : Inventory} {label : String} {k : Nat} (h : s.held.get? label = some k) :
      Change s (Inventory.cancelIfUnwanted { s with held := s.held.remove label } k)
  | subscribe {s : Inventory} {label : String} {o : SubscribeOptions} {p : Subscription}
      (h : Subscription.open? o = .ok p) : Change s (s.act (.subscribe label o))
  | await (s : Inventory) (label : String) (k : Nat) : Change s (s.await label k)

/-- Some changes, one after the other. -/
abbrev Changes : Inventory → Inventory → Prop :=
  Relation.ReflTransGen Change

namespace Stirs

@[refl] theorem refl (s : Inventory) : Stirs s s :=
  ⟨rfl, rfl, rfl, rfl, rfl, fun _ h => h⟩

theorem rouse (s : Inventory) (watcher : Watcher) : Stirs s (s.rouse watcher) :=
  ⟨rfl, rfl, rfl, rfl, rfl, fun _ hw => Agenda.mem_rouse.2 (.inl hw)⟩

theorem alarm (s : Inventory) (now : Nat) : Stirs s (s.alarm now) :=
  ⟨rfl, rfl, rfl, rfl, rfl, fun _ hw => Agenda.mem_rouseAll.2 (.inl hw)⟩

theorem fetch (s : Inventory) (now : Nat) : Stirs s (s.fetch now).2 := by
  unfold Inventory.fetch
  split <;> exact ⟨rfl, rfl, rfl, rfl, rfl, fun _ h => h⟩

theorem callReader (s : Inventory) (k : Nat) : Stirs s (s.callReader k) := by
  unfold Inventory.callReader
  split
  · exact .refl s
  · refine ⟨rfl, rfl, rfl, ?_, rfl, fun _ hw => Agenda.mem_rouse.2 (.inl hw)⟩
    simp only [Inventory.line, List.map_map]
    refine List.map_congr_left fun r _ => ?_
    rw [Function.comp_apply]
    split <;> rfl

theorem callReaders (s : Inventory) (k : Nat) : Stirs s (s.callReaders k) := by
  refine ⟨rfl, rfl, rfl, ?_, rfl, fun _ hw => Agenda.mem_rouseAll.2 (.inl hw)⟩
  simp only [Inventory.line, Inventory.callReaders, List.map_map]
  refine List.map_congr_left fun r _ => ?_
  rw [Function.comp_apply]
  split <;> rfl

theorem poller?_eq (h : Stirs s s') (key : Nat) : s'.poller? key = s.poller? key :=
  poller?_congr h.pollers key

end Stirs

theorem changes_leaveLine (s : Inventory) (reader : Reader) : Changes s (s.leaveLine reader) := by
  refine .single (.leave ?_)
  split
  · exact .callReader _ _
  · exact .refl _

theorem Reads.changes {kind : StreamKind} {item : StreamItem} (h : s.Reads k kind item s') :
    Changes s s' := by
  cases h with
  | change hp hc =>
    split
    · exact (Relation.ReflTransGen.single (.put hp rfl rfl)).tail (.stir (.rouse _ _))
    · exact .single (.put hp rfl rfl)
  | error hp he => exact .single (.put hp rfl rfl)
  | pending | ended => exact .refl

theorem PollerMoves.changes {now : Nat} (h : s.PollerMoves now k s') : Changes s s' := by
  cases h with
  | @begin p hp hw =>
    have hfetch : (s.fetch now).2.poller? k = some p := ((Stirs.fetch s now).poller?_eq k).trans hp
    have hend : p.hasEnded = false := by
      simp [Subscription.hasEnded, Subscription.phase_of_wantsFetch hw]
    exact (Relation.ReflTransGen.single (.stir (.fetch s now))).tail (.put hfetch rfl hend.symm)
  | @move p p' hp hw hm =>
    obtain ⟨hend, hc, hstop⟩ := Subscription.move?_cases hm
    unfold callFor
    cases he : p'.hasEnded with
    | true =>
      have hlen : ¬ p.changes.length < p'.changes.length := by simp [hstop he]
      rw [if_neg hlen, if_pos rfl]
      exact .single (.stop hp hc he)
    | false =>
      have hput : Change s (s.putPoller k p') := .put hp hc (he.trans hend.symm)
      rw [if_neg Bool.false_ne_true]
      split
      · exact (Relation.ReflTransGen.single hput).tail (.stir (.callReader _ _))
      · exact .single hput

theorem changes_move? {now : Nat} {watcher : Watcher} (h : s.move? now watcher = some s') :
    Changes s s' := by
  cases watcher with
  | poller k => exact (pollerMoves h).changes
  | reader number =>
    obtain ⟨reader, item, s₁, -, hreads, -, rfl⟩ := moveReader?_eq_some h
    exact (hreads.changes.trans (changes_leaveLine s₁ reader)).tail
      (.stir ⟨rfl, rfl, rfl, rfl, rfl, fun _ h => h⟩)

/-- Every act is some changes, or the end of a turn. -/
theorem act_changes (s : Inventory) (x : Act) :
    Changes s (s.act x) ∨ ∃ now watcher, s.agenda.next? = some watcher ∧
      s.move? now watcher = none ∧ s.act x = s.pause watcher := by
  have hstir : ∀ s', s'.pollers = s.pollers → s'.opened = s.opened → s'.held = s.held →
      s'.line = s.line → s'.enrolled = s.enrolled → s'.agenda = s.agenda → Changes s s' :=
    fun s' hp ho hh hl he ha => .single (.stir ⟨hp, ho, hh, hl, he, fun w hw => ha ▸ hw⟩)
  cases x with
  | turn now =>
    simp only [act, step?]
    cases hn : s.agenda.next? with
    | none => exact .inl .refl
    | some watcher =>
      simp only [Option.map_some, Option.getD_some]
      cases hm : s.move? now watcher with
      | none => exact .inr ⟨now, watcher, rfl, hm, rfl⟩
      | some s' => exact .inl (changes_move? hm)
  | move now watcher =>
    rw [act]
    cases hm : s.move? now watcher with
    | none => exact .inl .refl
    | some s' => exact .inl (changes_move? hm)
  | subscribe label o =>
    refine .inl ?_
    cases ho : Subscription.open? o with
    | error e =>
      rw [act_subscribe_of_error ho]
    | ok p => exact .single (.subscribe ho)
  | alarm now => exact .inl (.single (.stir (.alarm s now)))
  | list now label =>
    refine .inl (.tail (.single (.stir (.fetch s now))) (.stir ?_))
    exact ⟨rfl, rfl, rfl, rfl, rfl, fun _ h => h⟩
  | read k kind => exact .inl (s.reads k kind).changes
  | await label k => exact .inl (.single (.await s label k))
  | cancel k => exact .inl (.single (.cancel s k))
  | dropHeld label =>
    refine .inl ?_
    simp only [act, dropHeld]
    cases hg : s.held.get? label with
    | none => exact .refl
    | some k => exact .single (.release hg)
  | dropTask label =>
    refine .inl ?_
    simp only [act, dropTask?]
    split
    · exact hstir _ rfl rfl rfl rfl rfl rfl
    · cases s.readers.find? (·.label = label) with
      | none => exact .refl
      | some reader => exact changes_leaveLine s reader
  | addScript | openStream | clear => exact .inl (hstir _ rfl rfl rfl rfl rfl rfl)

/-! ## Numbers -/

/-- Pollers, holders and readers go by numbers that were given out once. -/
structure Numbered (s : Inventory) : Prop where
  keys : s.keys.Nodup
  opened : ∀ k, k ∈ s.keys ↔ k < s.opened
  held : ∀ e ∈ s.held, e.2 < s.opened
  numbers : (s.line.map (·.1)).Nodup
  enrolled : ∀ e ∈ s.line, e.1 < s.enrolled

@[simp] theorem keys_putPoller (s : Inventory) (k : Nat) (p : Subscription) :
    (s.putPoller k p).keys = s.keys := by
  simp only [keys, putPoller, List.map_map]
  refine List.map_congr_left fun e _ => ?_
  rw [Function.comp_apply]
  split
  · rename_i h
    exact h.symm
  · rfl

/-- Each poller is found by its number. -/
theorem poller?_of_mem (h : s.keys.Nodup) {e : Nat × Subscription} (he : e ∈ s.pollers) :
    s.poller? e.1 = some e.2 := by
  rw [poller?, find?_key_eq h he, Option.map_some]

theorem isSome_poller?_iff (s : Inventory) (k : Nat) :
    (s.poller? k).isSome = true ↔ k ∈ s.keys := by
  simp [poller?, keys]

theorem keys_requeuePoller (s : Inventory) (k : Nat) (p : Subscription) :
    (s.requeuePoller k p).keys = s.keys.filter (· ≠ k) ++ [k] := by
  simp [keys, requeuePoller, List.filter_map, Function.comp_def]

/-- A reader that goes to the end of the line does not leave it. -/
theorem line_requeue_perm {reader reader' : Reader} {l : List Reader} (h : reader ∈ l)
    (hn : reader'.number = reader.number) (hs : reader'.subscription = reader.subscription) :
    ((l.erase reader ++ [reader']).map fun r => (r.number, r.subscription)).Perm
      (l.map fun r => (r.number, r.subscription)) := by
  have hp := (List.perm_cons_erase h).map fun r : Reader => (r.number, r.subscription)
  rw [List.map_cons, ← hn, ← hs] at hp
  rw [List.map_append]
  exact List.perm_append_comm.trans hp.symm

/-- The end of a turn changes the order of the readers only. -/
theorem line_pause_perm (s : Inventory) (watcher : Watcher) :
    (s.pause watcher).line.Perm s.line := by
  have h := s.pauses watcher
  generalize s.pause watcher = s' at h ⊢
  cases h with
  | reader hr => exact line_requeue_perm (List.mem_of_find?_eq_some hr) rfl rfl
  | poller | gone => exact .refl _

theorem agenda_pause (s : Inventory) (watcher : Watcher) :
    (s.pause watcher).agenda = s.agenda.dismiss := by
  have h := s.pauses watcher
  generalize s.pause watcher = s' at h ⊢
  cases h <;> rfl

namespace Numbered

theorem empty : Numbered {} :=
  ⟨.nil, fun k => by simp [Inventory.keys], fun _ h => absurd h List.not_mem_nil, .nil,
    fun _ h => absurd h List.not_mem_nil⟩

theorem isSome_iff (h : s.Numbered) (k : Nat) : (s.poller? k).isSome = true ↔ k < s.opened :=
  (s.isSome_poller?_iff k).trans (h.opened k)

theorem find?_reader (h : s.Numbered) {reader : Reader} (hr : reader ∈ s.readers) :
    s.readers.find? (·.number = reader.number) = some reader := by
  have hnodup : (s.readers.map (·.number)).Nodup := by
    simpa [Inventory.line, Function.comp_def] using h.numbers
  exact find?_key_eq hnodup hr

/-- Where nobody comes the numbers stay as they are. -/
theorem congr (h : s.Numbered) (hk : s'.keys.Perm s.keys) (ho : s'.opened = s.opened)
    (hh : ∀ e ∈ s'.held, e ∈ s.held) (hl : s'.line.Subperm s.line)
    (he : s'.enrolled = s.enrolled) : s'.Numbered := by
  refine ⟨hk.nodup_iff.2 h.keys, fun k => ?_, fun e hm => ?_, ?_, fun e hm => ?_⟩
  · rw [hk.mem_iff, ho, h.opened]
  · exact ho ▸ h.held e (hh e hm)
  · obtain ⟨l, hp, hsub⟩ := hl
    exact (hp.map _).nodup_iff.1 (h.numbers.sublist (hsub.map _))
  · exact he ▸ h.enrolled e (hl.subset hm)

theorem stir (h : s.Numbered) (hs : Stirs s s') : s'.Numbered :=
  h.congr (by rw [Inventory.keys, Inventory.keys, hs.pollers]) hs.opened
    (fun e hm => hs.held ▸ hm) (by rw [hs.line]) hs.enrolled

theorem put (h : s.Numbered) (k : Nat) (p : Subscription) : (s.putPoller k p).Numbered :=
  h.congr (by rw [keys_putPoller]) rfl (fun _ hm => hm) (List.Subperm.refl _) rfl

theorem cancel (h : s.Numbered) (k : Nat) : (s.cancel k).Numbered := by
  unfold Inventory.cancel
  split
  · exact h
  · exact (h.put k _).stir (.rouse _ _)

theorem cancelIfUnwanted (h : s.Numbered) (k : Nat) : (s.cancelIfUnwanted k).Numbered := by
  unfold Inventory.cancelIfUnwanted
  split
  · exact h
  · exact h.cancel k

theorem enrol (h : s.Numbered) (label : String) (p : Subscription) :
    (s.enrol label p).Numbered := by
  have hnew : s.opened ∉ s.keys := fun hm => Nat.lt_irrefl _ ((h.opened _).1 hm)
  have hkeys : (s.enrol label p).keys = s.keys ++ [s.opened] := List.map_append
  refine ⟨?_, fun k => ?_, fun e hm => ?_, h.numbers, h.enrolled⟩
  · rw [hkeys, List.nodup_append]
    refine ⟨h.keys, by simp, fun a ha b hb => ?_⟩
    rw [List.mem_singleton.1 hb]
    exact fun e => hnew (e ▸ ha)
  · show _ ↔ k < s.opened + 1
    rw [hkeys, List.mem_append, List.mem_singleton, h.opened]
    omega
  · show e.2 < s.opened + 1
    rcases List.mem_cons.1 ((Labelled.set_perm s.held label s.opened).mem_iff.1 hm) with rfl | hm
    · exact Nat.lt_succ_self _
    · exact Nat.lt_succ_of_lt (h.held e (List.mem_of_mem_eraseP hm))

theorem change (h : s.Numbered) (hs : Change s s') : s'.Numbered := by
  cases hs with
  | stir hs => exact h.stir hs
  | put => exact h.put _ _
  | stop => exact (h.put _ _).stir (.callReaders _ _)
  | cancel k => exact h.cancel k
  | @leave s₁ reader hs =>
    have herase : Numbered { s with readers := s.readers.erase reader } :=
      h.congr (.refl _) rfl (fun _ hm => hm) (List.erase_sublist.map _).subperm rfl
    exact (herase.stir hs).cancelIfUnwanted _
  | @release label k hg =>
    have hremove : Numbered { s with held := s.held.remove label } :=
      h.congr (.refl _) rfl (fun _ hm => List.mem_of_mem_eraseP hm) (List.Subperm.refl _) rfl
    exact hremove.cancelIfUnwanted k
  | @subscribe label o p ho =>
    rw [act_subscribe ho]
    cases s.held.get? label with
    | none => exact h.enrol label p
    | some old => exact (h.enrol label p).cancelIfUnwanted old
  | await label k =>
    have hline : (s.await label k).line = s.line ++ [(s.enrolled, k)] := List.map_append
    refine ⟨h.keys, h.opened, h.held, ?_, fun e hm => ?_⟩
    · rw [hline, List.map_append, List.nodup_append]
      refine ⟨h.numbers, by simp, fun a ha b hb => ?_⟩
      obtain ⟨e, he, rfl⟩ := List.mem_map.1 ha
      rw [List.mem_singleton.1 hb]
      exact Nat.ne_of_lt (h.enrolled e he)
    · show e.1 < s.enrolled + 1
      rw [hline, List.mem_append, List.mem_singleton] at hm
      rcases hm with hm | rfl
      · exact Nat.lt_succ_of_lt (h.enrolled e hm)
      · exact Nat.lt_succ_self _

theorem changes (h : s.Numbered) (hs : Changes s s') : s'.Numbered := by
  induction hs with
  | refl => exact h
  | tail _ hs ih => exact ih.change hs

theorem pause (h : s.Numbered) (watcher : Watcher) : (s.pause watcher).Numbered := by
  have hp := s.pauses watcher
  have hline := (s.line_pause_perm watcher).subperm
  generalize s.pause watcher = s' at hp hline ⊢
  cases hp with
  | @poller k p hp =>
    refine h.congr ?_ rfl (fun _ hm => hm) hline rfl
    rw [keys_requeuePoller]
    have hk : k ∈ s.keys := (s.isSome_poller?_iff k).1 (by rw [hp]; rfl)
    have herase : s.keys.filter (· ≠ k) = s.keys.erase k := by
      rw [h.keys.erase_eq_filter]
      exact List.filter_congr fun e _ => by rw [Bool.eq_iff_iff]; simp
    show (s.keys.filter (· ≠ k) ++ [k]).Perm s.keys
    rw [herase]
    exact List.perm_append_comm.trans (List.perm_cons_erase hk).symm
  | reader | gone => exact h.congr (.refl _) rfl (fun _ hm => hm) hline rfl

theorem act (h : s.Numbered) (x : Act) : (s.act x).Numbered := by
  rcases s.act_changes x with hs | ⟨now, watcher, -, -, hs⟩
  · exact h.changes hs
  · exact hs ▸ h.pause watcher

theorem after (h : s.Numbered) (xs : List Act) : (s.after xs).Numbered := by
  induction xs generalizing s with
  | nil => exact h
  | cons x xs ih => exact ih (h.act x)

/-- A new subscription is there as it was opened. -/
theorem exists_opened (h : s.Numbered) (label : String) {o : SubscribeOptions}
    (ho : 0 < o.interval.toNanos) :
    ∃ p, Subscription.open? o = .ok p ∧
      (s.act (.subscribe label o)).poller? s.opened = some p := by
  obtain ⟨p, hp⟩ : ∃ p, Subscription.open? o = .ok p := by
    rw [Subscription.open?, dif_pos ho]
    exact ⟨_, rfl⟩
  have hnone : s.poller? s.opened = none := by
    rw [← Option.not_isSome_iff_eq_none, h.isSome_iff]
    exact Nat.lt_irrefl _
  have henrol : (s.enrol label p).poller? s.opened = some p := by
    rw [poller?_enrol, hnone, if_pos rfl, Option.none_or]
  refine ⟨p, hp, ?_⟩
  rw [act_subscribe hp]
  split
  · exact henrol
  · rename_i old hold
    have hlt : old < s.opened :=
      h.held _ ((Labelled.perm_of_get? hold).mem_iff.2 List.mem_cons_self)
    unfold Inventory.cancelIfUnwanted
    split
    · exact henrol
    · rw [poller?_cancel, if_neg (Nat.ne_of_gt hlt), henrol]

end Numbered

/-- From the moment of a subscription on, a run of the inventory is a run of the new poller. -/
theorem exists_run_of_subscribe (before later : List Act) (label : String) {o : SubscribeOptions}
    (h : 0 < o.interval.toNanos) :
    let key := (after {} before).opened
    let s := after {} (before ++ [.subscribe label o])
    ∃ p ys, Subscription.open? o = .ok p ∧ (s.after later).poller? key = some (p.after ys) ∧
      ∀ {β : Type} (out : Subscription → Subscription.Act → Option β),
        (∀ q, out q .cancel = none) → p.given out ys = s.given out key later := by
  intro key s
  obtain ⟨p, ho, hp⟩ := (Numbered.empty.after before).exists_opened label h
  have hs : s.poller? key = some p := by
    rw [show s = (after {} before).act (.subscribe label o) from after_append ..]
    exact hp
  obtain ⟨ys, hrun⟩ := exists_run hs later
  exact ⟨p, ys, ho, hrun⟩

end Inventory

end SystemdControl
