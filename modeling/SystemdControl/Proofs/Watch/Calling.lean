import SystemdControl.Proofs.Watch.Attended
import SystemdControl.Proofs.Watch.Alert

/-!
# No reader sleeps beside unread changes

A poller that publishes changes calls the first reader in line that was not called already, and a
called reader that leaves the line passes the call on. So as long as there are unread changes and
someone waits for them, one of those who wait was called and has a turn.

* `Inventory.Hears` says so of some subscriptions, and `Inventory.Prompt` of all;
* `Prompt.act`: every act keeps it, as it calls someone (`Inventory.Calls`) or reads something;
* `Still.move?_eq_none`: so when all have to wait nobody can go on, no reader either.
-/

namespace SystemdControl.Inventory

variable {s s' : Inventory} {k : Nat} {p p' : Subscription} {reader : Reader} {P : Nat → Prop}

/-! ## Who was called -/

/-- Someone waits for a subscription. -/
def Awaited (s : Inventory) (k : Nat) : Prop :=
  ∃ r ∈ s.readers, r.subscription = k

/-- Someone who waits for a subscription was called. -/
def Beckoned (s : Inventory) (k : Nat) : Prop :=
  ∃ r ∈ s.readers, r.subscription = k ∧ r.called = true

/-- A subscription goes on, or has gone on, and none of its changes is unread. -/
def Drained (s : Inventory) (k : Nat) : Prop :=
  ∃ p, s.poller? k = some p ∧ p.changes = []

/-- Whoever was called has a turn, and for each of some subscriptions that have something for those
who wait one of them was called. -/
structure Hears (s : Inventory) (P : Nat → Prop) : Prop where
  agenda : ∀ r ∈ s.readers, r.called = true → .reader r.number ∈ s.agenda.toList
  unread : ∀ k, P k → ¬ s.Drained k → s.Awaited k → s.Beckoned k

/-- Every subscription that has something for those who wait has called one of them. -/
def Prompt (s : Inventory) : Prop :=
  s.Hears fun _ => True

theorem awaited_iff (s : Inventory) (k : Nat) : s.Awaited k ↔ ∃ e ∈ s.line, e.2 = k := by
  simp [Awaited, line]

theorem drained_congr (h : s'.pollers = s.pollers) (k : Nat) : s'.Drained k ↔ s.Drained k := by
  rw [Drained, Drained, poller?_congr h]

/-- Some are called, and nothing is done with the subscriptions. -/
structure Calls (s s' : Inventory) : Prop where
  pollers : s'.pollers = s.pollers
  line : s'.line = s.line
  agenda : ∀ w ∈ s.agenda.toList, w ∈ s'.agenda.toList
  called : ∀ r ∈ s'.readers, r.called = true →
    .reader r.number ∈ s'.agenda.toList ∨ r ∈ s.readers
  beckoned : ∀ k, s.Beckoned k → s'.Beckoned k

namespace Calls

theorem of_readers (hp : s'.pollers = s.pollers) (hr : s'.readers = s.readers)
    (ha : ∀ w ∈ s.agenda.toList, w ∈ s'.agenda.toList) : Calls s s' where
  pollers := hp
  line := congrArg (List.map fun r : Reader => (r.number, r.subscription)) hr
  agenda := ha
  called _ hm _ := .inr (hr ▸ hm)
  beckoned _ hk := hk.imp fun _ hm => ⟨hr ▸ hm.1, hm.2⟩

theorem rouse (s : Inventory) (watcher : Watcher) : Calls s (s.rouse watcher) :=
  of_readers rfl rfl fun _ hw => Agenda.mem_rouse.2 (.inl hw)

theorem fetch (s : Inventory) (now : Nat) : Calls s (s.fetch now).2 := by
  unfold Inventory.fetch
  split <;> exact of_readers rfl rfl fun _ h => h

/-- The readers for whom something holds are called. -/
theorem map (s : Inventory) (c : Reader → Prop) [DecidablePred c] {agenda : Agenda Watcher}
    (ha : ∀ w ∈ s.agenda.toList, w ∈ agenda.toList)
    (hc : ∀ r ∈ s.readers, c r → .reader r.number ∈ agenda.toList) :
    Calls s { s with
      readers := s.readers.map fun r => if c r then { r with called := true } else r
      agenda } where
  pollers := rfl
  line := by
    simp only [Inventory.line, List.map_map]
    refine List.map_congr_left fun r _ => ?_
    rw [Function.comp_apply]
    split <;> rfl
  agenda := ha
  called r hr _ := by
    obtain ⟨r', hr', rfl⟩ := List.mem_map.1 hr
    split
    · rename_i hcr
      exact .inl (hc r' hr' hcr)
    · exact .inr hr'
  beckoned j := by
    rintro ⟨r, hr, hj, hcalled⟩
    refine ⟨_, List.mem_map_of_mem hr, ?_⟩
    split
    · exact ⟨hj, rfl⟩
    · exact ⟨hj, hcalled⟩

theorem callReader (s : Inventory) (k : Nat) : Calls s (s.callReader k) := by
  unfold Inventory.callReader
  split
  · exact of_readers rfl rfl fun _ h => h
  · rename_i reader _
    exact map s (· = reader) (fun _ hw => Agenda.mem_rouse.2 (.inl hw)) fun r _ hr =>
      Agenda.mem_rouse.2 (.inr (hr ▸ rfl))

theorem callReaders (s : Inventory) (k : Nat) : Calls s (s.callReaders k) :=
  map s (·.subscription = k) (fun _ hw => Agenda.mem_rouseAll.2 (.inl hw)) fun r hr hk =>
    Agenda.mem_rouseAll.2 (.inr (List.mem_map.2 ⟨r, List.mem_filter.2 ⟨hr, by simpa⟩, rfl⟩))

end Calls

/-- After a call there is someone who was called, if there is anyone. -/
theorem beckoned_callReader (h : s.Awaited k) : (s.callReader k).Beckoned k := by
  unfold callReader
  split
  · rename_i hnone
    obtain ⟨r, hr, hk⟩ := h
    have hcalled := List.find?_eq_none.1 hnone r hr
    exact ⟨r, hr, hk, by simpa [hk] using hcalled⟩
  · rename_i reader hsome
    have hr := List.mem_of_find?_eq_some hsome
    have hk : reader.subscription = k := by
      have := List.find?_some hsome
      simp only [Bool.and_eq_true, beq_iff_eq] at this
      exact this.1
    exact ⟨_, List.mem_map_of_mem hr, by simp [hk]⟩

/-! ## What keeps everybody prompt -/

namespace Hears

theorem calls (h : s.Hears P) (hc : Calls s s') : s'.Hears P where
  agenda r hr hcalled :=
    (hc.called r hr hcalled).elim id fun hm => hc.agenda _ (h.agenda r hm hcalled)
  unread k hP hd ha := by
    rw [drained_congr hc.pollers] at hd
    rw [awaited_iff, hc.line, ← awaited_iff] at ha
    exact hc.beckoned k (h.unread k hP hd ha)

/-- Another state of a poller that leaves nothing unread where nothing was. -/
theorem put (h : s.Hears P) (hp : s.poller? k = some p) (p' : Subscription)
    (hc : p.changes = [] → p'.changes = []) : (s.putPoller k p').Hears P where
  agenda := h.agenda
  unread j hP hd := h.unread j hP fun ⟨q, hq, he⟩ => hd (by
    by_cases hj : j = k
    · subst hj
      rw [hp, Option.some.injEq] at hq
      exact ⟨p', poller?_putPoller_self p' hp, hc (hq ▸ he)⟩
    · exact ⟨q, by rw [poller?_putPoller, if_neg hj, hq], he⟩)

/-- Another state of a poller matters to those only who wait for it. -/
theorem put_beside (h : s.Prompt) (k : Nat) (p' : Subscription) :
    (s.putPoller k p').Hears (· ≠ k) where
  agenda := h.agenda
  unread j hj hd := h.unread j trivial fun ⟨q, hq, he⟩ =>
    hd ⟨q, by rw [poller?_putPoller, if_neg hj, hq], he⟩

/-- Whoever is called makes up for what was published or for a reader that has left. -/
theorem callReader (h : s.Hears (· ≠ k)) : (s.callReader k).Prompt where
  agenda := (h.calls (.callReader s k)).agenda
  unread j _ hd ha := by
    by_cases hj : j = k
    · subst hj
      rw [awaited_iff, (Calls.callReader s j).line, ← awaited_iff] at ha
      exact beckoned_callReader ha
    · exact (h.calls (.callReader s k)).unread j hj hd ha

end Hears

namespace Prompt

theorem empty : Prompt {} :=
  ⟨nofun, fun _ _ _ ⟨_, hr, _⟩ => nomatch hr⟩

theorem cancel (h : s.Prompt) (k : Nat) : (s.cancel k).Prompt := by
  unfold Inventory.cancel
  split
  · exact h
  · rename_i p hp
    exact (Hears.put h hp p.cancel id).calls (.rouse _ _)

theorem cancelIfUnwanted (h : s.Prompt) (k : Nat) : (s.cancelIfUnwanted k).Prompt := by
  unfold Inventory.cancelIfUnwanted
  split
  · exact h
  · exact h.cancel k

/-- A reader leaves the line. If it was called those who wait for the same miss the call. -/
theorem erase (h : s.Prompt) (hP : ∀ j, P j → reader.called = true → j ≠ reader.subscription) :
    Hears { s with readers := s.readers.erase reader } P where
  agenda r hr := h.agenda r (List.mem_of_mem_erase hr)
  unread j hj hd := by
    rintro ⟨r, hr, hk⟩
    obtain ⟨r', hr', hk', hcalled⟩ := h.unread j trivial hd ⟨r, List.mem_of_mem_erase hr, hk⟩
    refine ⟨r', (List.mem_erase_of_ne ?_).2 hr', hk', hcalled⟩
    rintro rfl
    exact hP j hj hcalled hk'.symm

theorem leaveLine (h : s.Prompt) (reader : Reader) : (s.leaveLine reader).Prompt := by
  unfold Inventory.leaveLine
  refine cancelIfUnwanted ?_ _
  split
  · exact (h.erase fun j hj _ => hj).callReader
  · rename_i hc
    exact h.erase fun j _ hcalled => absurd hcalled hc

theorem reads (h : s.Prompt) {kind : StreamKind} {item : StreamItem} (hr : s.Reads k kind item s') :
    s'.Prompt := by
  cases hr with
  | @change p delta rest hp hc =>
    have hput : (s.putPoller k { p with changes := rest }).Prompt :=
      Hears.put h hp _ fun he => by rw [hc] at he; cases he
    split
    · exact hput.calls (.rouse _ _)
    · exact hput
  | @error p e rest hp he => exact Hears.put h hp { p with errors := rest } id
  | pending | ended => exact h

theorem callFor (h : s.Prompt) (k : Nat) (p p' : Subscription) (hp : s.poller? k = some p) :
    ((s.putPoller k p').callFor k p p').Prompt := by
  have hends : ∀ t : Inventory, t.Prompt → (if p'.hasEnded then t.callReaders k else t).Prompt :=
    fun t ht => by
      split
      · exact Hears.calls ht (.callReaders t k)
      · exact ht
  refine hends _ ?_
  split
  · exact (Hears.put_beside h k p').callReader
  · rename_i hlen
    exact Hears.put h hp _ fun he => by simpa [he] using hlen

theorem move? (h : s.Prompt) {now : Nat} {watcher : Watcher} (hm : s.move? now watcher = some s') :
    s'.Prompt := by
  cases watcher with
  | poller k =>
    cases pollerMoves hm with
    | @begin p hp hw =>
      have hfetch : (s.fetch now).2.poller? k = some p :=
        (poller?_congr (pollers_fetch now) k).trans hp
      exact Hears.put (Hears.calls h (.fetch s now)) hfetch (p.begin now (s.fetch now).1) id
    | move hp => exact h.callFor k _ _ hp
  | reader number =>
    obtain ⟨reader, item, s₁, -, hreads, -, rfl⟩ := moveReader?_eq_some hm
    exact Hears.calls ((h.reads hreads).leaveLine reader) (.of_readers rfl rfl fun _ hw => hw)

/-- A reader whose turn is over has found nothing. -/
theorem pause (h : s.Prompt) (hn : s.Numbered) {now : Nat} {watcher : Watcher}
    (hnext : s.agenda.next? = some watcher) (hm : s.move? now watcher = none) :
    (s.pause watcher).Prompt := by
  -- whoever was called is still on the agenda, unless its turn is the one that is over
  have hturn : ∀ r ∈ s.readers, r.called = true → .reader r.number ≠ watcher →
      .reader r.number ∈ s.agenda.dismiss.toList := fun r hr hcalled hne => by
    have hmem := h.agenda r hr hcalled
    rw [Agenda.toList_eq_cons hnext] at hmem
    exact (List.mem_cons.1 hmem).resolve_left hne
  have hdrained : ∀ j, ¬ (s.pause watcher).Drained j → ¬ s.Drained j := fun j hd ⟨q, hq, he⟩ =>
    hd ⟨q, (poller?_pause s watcher j).trans hq, he⟩
  have hunread : ∀ j, ¬ (s.pause watcher).Drained j → (s.pause watcher).Awaited j → s.Beckoned j :=
    fun j hd ha => h.unread j trivial (hdrained j hd) <| by
      rw [awaited_iff] at ha ⊢
      exact ha.imp fun e he => ⟨(s.line_pause_perm watcher).mem_iff.1 he.1, he.2⟩
  cases watcher with
  | poller k =>
    have hreaders : (s.pause (.poller k)).readers = s.readers := by
      rw [Inventory.pause]
      split <;> rfl
    refine ⟨fun r hr hcalled => ?_, fun j _ hd ha => ?_⟩
    · rw [agenda_pause]
      exact hturn r (hreaders ▸ hr) hcalled fun he => by cases he
    · obtain ⟨r, hr, hj⟩ := hunread j hd ha
      exact ⟨r, hreaders ▸ hr, hj⟩
  | reader number =>
    cases hfind : s.readers.find? (·.number = number) with
    | none =>
      have hreaders : (s.pause (.reader number)).readers = s.readers := by
        rw [Inventory.pause]
        dsimp only
        rw [hfind]
      refine ⟨fun r hr hcalled => ?_, fun j _ hd ha => ?_⟩
      · rw [hreaders] at hr
        rw [agenda_pause]
        refine hturn r hr hcalled fun he => ?_
        exact List.find?_eq_none.1 hfind r hr (by simpa using he)
      · obtain ⟨r, hr, hj⟩ := hunread j hd ha
        exact ⟨r, hreaders ▸ hr, hj⟩
    | some reader =>
      have hreader := List.mem_of_find?_eq_some hfind
      have hnumber : reader.number = number := by simpa using List.find?_some hfind
      have hreaders : (s.pause (.reader number)).readers =
          s.readers.erase reader ++ [{ reader with called := false }] := by
        rw [Inventory.pause]
        dsimp only
        rw [hfind]
      have hsame : ∀ r ∈ s.readers, r.number = number → r = reader := fun r hr he => by
        have hr' := hn.find?_reader hr
        rw [he, hfind, Option.some.injEq] at hr'
        exact hr'.symm
      have hnodup : s.readers.Nodup := by
        have hnumbers := hn.numbers
        rw [line, List.map_map] at hnumbers
        exact hnumbers.of_map _
      refine ⟨fun r hr hcalled => ?_, fun j _ hd ha => ?_⟩
      · rw [hreaders] at hr
        rw [agenda_pause]
        rcases List.mem_append.1 hr with hr | hr
        · refine hturn r (List.mem_of_mem_erase hr) hcalled fun he => ?_
          obtain rfl := hsame r (List.mem_of_mem_erase hr) (by simpa using he)
          exact hnodup.not_mem_erase hr
        · rw [List.mem_singleton.1 hr] at hcalled
          cases hcalled
      · obtain ⟨r, hr, hj, hcalled⟩ := hunread j hd ha
        refine ⟨r, ?_, hj, hcalled⟩
        rw [hreaders, List.mem_append, List.mem_erase_of_ne ?_]
        · exact .inl hr
        · -- it could not go on, so nothing is unread where it waits
          rintro rfl
          refine hdrained j hd ?_
          rw [Inventory.move?, moveReader?, hfind, Option.bind_some] at hm
          have hreads := s.reads r.subscription .changes
          generalize s.read r.subscription .changes = x at hm hreads
          obtain ⟨item, s₁⟩ := x
          cases hreads with
          | change | ended => cases hm
          | pending hp hc => exact ⟨_, hj ▸ hp, hc⟩

theorem enrol (h : s.Prompt) (label : String) (p : Subscription) : (s.enrol label p).Prompt where
  agenda r hr hcalled := Agenda.mem_rouse.2 (.inl (h.agenda r hr hcalled))
  unread j _ hd := h.unread j trivial fun ⟨q, hq, he⟩ =>
    hd ⟨q, by rw [poller?_enrol, hq, Option.some_or], he⟩

theorem await (h : s.Prompt) (label : String) (k : Nat) : (s.await label k).Prompt where
  agenda r hr hcalled := by
    rcases List.mem_append.1 hr with hr | hr
    · exact Agenda.mem_rouse.2 (.inl (h.agenda r hr hcalled))
    · rw [List.mem_singleton.1 hr]
      exact Agenda.mem_rouse.2 (.inr rfl)
  unread j _ hd := by
    rintro ⟨r, hr, hj⟩
    rcases List.mem_append.1 hr with hr | hr
    · obtain ⟨r', hr', hj'⟩ := h.unread j trivial hd ⟨r, hr, hj⟩
      exact ⟨r', List.mem_append_left _ hr', hj'⟩
    · refine ⟨r, List.mem_append_right _ hr, hj, ?_⟩
      rw [List.mem_singleton.1 hr]

theorem act (h : s.Prompt) (hn : s.Numbered) (x : Act) : (s.act x).Prompt := by
  have hframe : ∀ s' : Inventory, s'.pollers = s.pollers → s'.readers = s.readers →
      s'.agenda = s.agenda → s'.Prompt :=
    fun s' hp hr ha => Hears.calls h (.of_readers hp hr fun w hw => ha ▸ hw)
  cases x with
  | turn now =>
    simp only [Inventory.act, step?]
    cases hnext : s.agenda.next? with
    | none => exact h
    | some watcher =>
      simp only [Option.map_some, Option.getD_some]
      cases hm : s.move? now watcher with
      | none => exact h.pause hn hnext hm
      | some s' => exact h.move? hm
  | move now watcher =>
    rw [Inventory.act]
    cases hm : s.move? now watcher with
    | none => exact h
    | some s' => exact h.move? hm
  | alarm now =>
    exact Hears.calls h (.of_readers rfl rfl fun _ hw => Agenda.mem_rouseAll.2 (.inl hw))
  | list now label =>
    exact Hears.calls (Hears.calls h (.fetch s now)) (.of_readers rfl rfl fun _ hw => hw)
  | subscribe label o =>
    cases ho : Subscription.open? o with
    | error e => rwa [act_subscribe_of_error ho]
    | ok p =>
      rw [act_subscribe ho]
      cases s.held.get? label with
      | none => exact h.enrol label p
      | some old => exact (h.enrol label p).cancelIfUnwanted old
  | read k kind => exact h.reads (s.reads k kind)
  | await label k => exact h.await label k
  | cancel k => exact h.cancel k
  | dropHeld label =>
    simp only [Inventory.act, dropHeld]
    cases s.held.get? label with
    | none => exact h
    | some k =>
      have hremove : Prompt { s with held := s.held.remove label } := hframe _ rfl rfl rfl
      exact hremove.cancelIfUnwanted k
  | dropTask label =>
    simp only [Inventory.act, dropTask?]
    split
    · exact hframe _ rfl rfl rfl
    · cases s.readers.find? (·.label = label) with
      | none => exact h
      | some reader => exact h.leaveLine reader
  | addScript | openStream | clear => exact hframe _ rfl rfl rfl

theorem after (h : s.Prompt) (hn : s.Numbered) (xs : List Act) : (s.after xs).Prompt := by
  induction xs generalizing s with
  | nil => exact h
  | cons x xs ih => exact ih (h.act hn x) (hn.act x)

end Prompt

/-! ## When all have to wait -/

/-- A reader that waits while nobody has a turn can read nothing. -/
theorem moveReader?_eq_none (h : s.Prompt) (ha : s.Attended) (hidle : s.agenda.toList = [])
    (number : Nat) : s.moveReader? number = none := by
  cases hm : s.moveReader? number with
  | none => rfl
  | some s' =>
    obtain ⟨reader, item, s₁, hfind, hreads, hne, -⟩ := moveReader?_eq_some hm
    have hreader := List.mem_of_find?_eq_some hfind
    have hquiet : ∀ w, w ∉ s.agenda.toList := fun w hw => by
      rw [hidle] at hw
      cases hw
    have hnobody : ¬ s.Beckoned reader.subscription := fun ⟨r, hr, _, hcalled⟩ =>
      hquiet _ (h.agenda r hr hcalled)
    obtain ⟨p, hp, hc⟩ : s.Drained reader.subscription :=
      not_not.1 fun hd => hnobody (h.unread _ trivial hd ⟨reader, hreader, rfl⟩)
    cases hreads with
    | change hq hc' =>
      rw [hp, Option.some.injEq] at hq
      rw [← hq, hc] at hc'
      cases hc'
    | pending => exact absurd rfl hne
    | ended he =>
      refine absurd (ha (.reader reader.number) ⟨_, p, ?_, hp, (he p hp).2⟩) (hquiet _)
      exact List.mem_map_of_mem hreader

/-- When all have to wait nobody can go on. -/
theorem Still.move?_eq_none {now : Nat} (h : s.Still now) (hp : s.Prompt) (ha : s.Attended)
    (watcher : Watcher) : s.move? now watcher = none := by
  cases watcher with
  | poller k =>
    rw [move?, movePoller?]
    cases hq : s.poller? k with
    | none => rfl
    | some p =>
      have hm := h.canMove hq
      rw [Subscription.canMove, Bool.or_eq_false_iff, Option.isSome_eq_false_iff,
        Option.isNone_iff_eq_none] at hm
      simp [hm.1, hm.2]
  | reader number => exact moveReader?_eq_none hp ha h.idle number

end SystemdControl.Inventory
