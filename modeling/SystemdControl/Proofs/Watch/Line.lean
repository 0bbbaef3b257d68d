import SystemdControl.Proofs.Watch.Settling

/-!
# Those who wait in line

While everything goes on by itself, whoever waits for changes leaves the line only by being handed
something: unread changes as long as there are any, and the end after them.

* `Inventory.awaiting` are the labels of those who wait for a subscription;
* `Inventory.awaiting_perm`: who waited is still in line or was handed one thing;
* `Inventory.events_after`: what was handed has been reported;
* `Inventory.handed_eq`: it is changes first, and then the end again and again.
-/

namespace SystemdControl

/-- A poller that has ended stays as it is, apart from what is read. -/
theorem Subscription.over_act {p : Subscription} (hc : p.changes = []) (he : p.hasEnded = true)
    (x : Act) : (p.act x).changes = [] ∧ (p.act x).hasEnded = true := by
  have hp := hasEnded_iff.1 he
  cases x with
  | begin now fetch => simp [act, wantsFetch, hp, hc, he]
  | move now => simp [act, move?, hp, hc, he]
  | readChange => simp [act, readChange, hc, he]
  | readError =>
    simp only [act, readError]
    split <;> exact ⟨hc, he⟩
  | cancel => exact ⟨hc, he⟩

theorem Subscription.over_after {p : Subscription} (hc : p.changes = []) (he : p.hasEnded = true)
    (xs : List Act) : (p.after xs).changes = [] ∧ (p.after xs).hasEnded = true := by
  induction xs generalizing p with
  | nil => exact ⟨hc, he⟩
  | cons x xs ih =>
    obtain ⟨hc', he'⟩ := over_act hc he x
    exact ih hc' he'

theorem StreamItem.final?_eq_some {item item' : StreamItem} (h : item.final? = some item') :
    item = item' ∧ item ≠ .pending := by
  cases item with
  | pending => cases h
  | change | error | ended =>
    cases h
    exact ⟨rfl, nofun⟩

namespace Inventory

/-- Whether an act happens without anyone asking for it. -/
def Act.ofItself : Act → Bool
  | .alarm _ | .turn _ => true
  | _ => false

theorem ofItself_of_mem_goingOn {s : Inventory} {now : Nat} {x : Act} (h : x ∈ s.goingOn now) :
    x.ofItself = true := by
  rcases List.mem_cons.1 h with rfl | h
  · rfl
  · rw [(List.mem_replicate.1 h).2]
    rfl

/-- The labels of those who wait for the changes of a subscription, in line. -/
def awaiting (s : Inventory) (key : Nat) : List String :=
  (s.readers.filter (·.subscription = key)).map (·.label)

variable {s s' : Inventory} {key k now : Nat} {p : Subscription} {x : Act} {reader : Reader}

/-! ## Who is in line -/

theorem awaiting_congr (h : s'.readers = s.readers) (key : Nat) :
    s'.awaiting key = s.awaiting key := by
  rw [awaiting, h, awaiting]

/-- To be called is not to leave the line. -/
theorem awaiting_call (l : List Reader) (c : Reader → Prop) [DecidablePred c] (key : Nat) :
    ((l.map fun r => if c r then { r with called := true } else r).filter
      (·.subscription = key)).map (·.label) =
        (l.filter (·.subscription = key)).map (·.label) := by
  induction l with
  | nil => rfl
  | cons r l ih =>
    have hr : (if c r then { r with called := true } else r).subscription = r.subscription ∧
        (if c r then { r with called := true } else r).label = r.label := by
      split <;> exact ⟨rfl, rfl⟩
    simp only [List.map_cons, List.filter_cons, hr.1]
    split
    · rw [List.map_cons, List.map_cons, hr.2, ih]
    · exact ih

@[simp] theorem awaiting_callReader (s : Inventory) (k key : Nat) :
    (s.callReader k).awaiting key = s.awaiting key := by
  unfold callReader
  split
  · rfl
  · exact awaiting_call s.readers _ key

@[simp] theorem awaiting_callReaders (s : Inventory) (k key : Nat) :
    (s.callReaders k).awaiting key = s.awaiting key :=
  awaiting_call s.readers _ key

@[simp] theorem awaiting_callFor (s : Inventory) (k : Nat) (p p' : Subscription) (key : Nat) :
    (s.callFor k p p').awaiting key = s.awaiting key := by
  unfold callFor
  split <;> split <;> simp

@[simp] theorem readers_cancelIfUnwanted (s : Inventory) (k : Nat) :
    (s.cancelIfUnwanted k).readers = s.readers := by
  unfold cancelIfUnwanted cancel
  split
  · rfl
  · split <;> rfl

theorem awaiting_leaveLine (s : Inventory) (reader : Reader) (key : Nat) :
    (s.leaveLine reader).awaiting key =
      awaiting { s with readers := s.readers.erase reader } key := by
  unfold leaveLine
  rw [awaiting_congr (readers_cancelIfUnwanted _ _)]
  split
  · exact awaiting_callReader _ _ _
  · rfl

theorem awaiting_perm_erase (h : reader ∈ s.readers) (key : Nat) :
    (s.awaiting key).Perm ((if reader.subscription = key then [reader.label] else []) ++
      awaiting { s with readers := s.readers.erase reader } key) := by
  have hp := ((List.perm_cons_erase h).filter (·.subscription = key)).map (·.label)
  rw [List.filter_cons] at hp
  by_cases hk : reader.subscription = key
  · simpa [awaiting, hk] using hp
  · simpa [awaiting, hk] using hp

theorem awaiting_pause_perm (s : Inventory) (watcher : Watcher) (key : Nat) :
    (s.awaiting key).Perm ((s.pause watcher).awaiting key) := by
  have h := s.pauses watcher
  generalize s.pause watcher = s' at h ⊢
  cases h with
  | @reader number reader hr =>
    refine (awaiting_perm_erase (List.mem_of_find?_eq_some hr) key).trans ?_
    refine List.perm_append_comm.trans (.of_eq ?_)
    by_cases hk : reader.subscription = key <;> simp [awaiting, hk]
  | poller | gone => exact .refl _

theorem Reads.readers {kind : StreamKind} {item : StreamItem} (h : s.Reads k kind item s') :
    s'.readers = s.readers := by
  cases h with
  | change => split <;> rfl
  | error | pending | ended => rfl

theorem awaiting_pollerMoves (h : s.PollerMoves now k s') (key : Nat) :
    s'.awaiting key = s.awaiting key := by
  cases h with
  | begin =>
    refine awaiting_congr ?_ key
    show (s.fetch now).2.readers = s.readers
    unfold fetch
    split <;> rfl
  | move => exact awaiting_callFor _ k _ _ key

/-! ## Going on -/

theorem PollerMoves.events (h : s.PollerMoves now k s') : s'.events = s.events := by
  cases h with
  | begin =>
    show (s.fetch now).2.events = s.events
    unfold fetch
    split <;> rfl
  | move =>
    unfold callFor callReaders
    split <;> split <;> simp

/-- What happens of itself, with what is handed to those who wait for a subscription. -/
inductive GoesOn (s : Inventory) (key : Nat) : Option (String × StreamItem) → Inventory → Prop where
  | alarm (now : Nat) : GoesOn s key none (s.alarm now)
  | idle : GoesOn s key none s
  | pause (watcher : Watcher) : GoesOn s key none (s.pause watcher)
  | poller {now k : Nat} {s' : Inventory} (h : s.PollerMoves now k s') : GoesOn s key none s'
  | reader {reader : Reader} {item : StreamItem} {s₁ : Inventory} (hr : reader ∈ s.readers)
      (h : s.Reads reader.subscription .changes item s₁) (hne : item ≠ .pending) :
      GoesOn s key (if reader.subscription = key then some (reader.label, item) else none)
        ((s₁.leaveLine reader).note reader.label (.received item))

/-- A reader whose turn it is is handed something, or goes on waiting. -/
theorem GoesOn.moveReader (s : Inventory) (key now number : Nat)
    (hmover : s.mover? (.turn now) = some (now, .reader number)) :
    s.GoesOn key (s.handed? key (.turn now))
      ((s.moveReader? number).getD (s.pause (.reader number))) := by
  rw [moveReader?_eq]
  cases hr : s.readers.find? (·.number = number) with
  | none =>
    have hhanded : s.handed? key (.turn now) = none := by simp [handed?, readerOf?, hmover, hr]
    rw [hhanded, Option.bind_none, Option.getD_none]
    exact .pause _
  | some reader =>
    have hreads := s.reads reader.subscription .changes
    have hhanded : s.handed? key (.turn now) = if reader.subscription = key then
        (s.read reader.subscription .changes).1.final?.map (reader.label, ·) else none := by
      rw [handed?_eq hmover hr]
      split
      · rename_i hk
        rw [hk]
      · rfl
    rw [hhanded, Option.bind_some]
    generalize s.read reader.subscription .changes = r at hreads
    obtain ⟨item, s₁⟩ := r
    cases hf : item.final? with
    | none =>
      simp only [Option.map_none, Option.getD_none, ite_self]
      exact .pause _
    | some item' =>
      obtain ⟨rfl, hne⟩ := StreamItem.final?_eq_some hf
      exact .reader (List.mem_of_find?_eq_some hr) hreads hne

theorem GoesOn.turn (s : Inventory) (key now : Nat) :
    s.GoesOn key (s.handed? key (.turn now)) (s.act (.turn now)) := by
  have hnobody : (∀ number, s.agenda.next? ≠ some (.reader number)) →
      s.handed? key (.turn now) = none := fun h => by
    refine handed?_eq_none (fun t number hm => ?_) key
    obtain ⟨watcher, hw, he⟩ := Option.map_eq_some_iff.1 hm
    cases he
    exact h number hw
  rw [act, step?]
  cases hnext : s.agenda.next? with
  | none =>
    rw [hnobody (by simp [hnext])]
    exact .idle
  | some watcher =>
    have hmover : s.mover? (.turn now) = some (now, watcher) := by rw [mover?, hnext, Option.map_some]
    rw [Option.map_some, Option.getD_some]
    cases watcher with
    | poller k =>
      rw [hnobody (by simp [hnext])]
      cases hm : s.move? now (.poller k) with
      | none =>
        rw [Option.getD_none]
        exact .pause _
      | some s' => exact .poller (pollerMoves hm)
    | reader number => exact .moveReader s key now number hmover

theorem goesOn (s : Inventory) (key : Nat) (hx : x.ofItself = true) :
    s.GoesOn key (s.handed? key x) (s.act x) := by
  cases x with
  | alarm now =>
    rw [handed?_eq_none (fun _ _ h => by cases h) key]
    exact .alarm now
  | turn now => exact .turn s key now
  | move | addScript | list | subscribe | openStream | read | await | cancel | dropHeld | dropTask
  | clear => cases hx

/-! ## What those in line are handed -/

/-- Whoever leaves the line while everything goes on is handed something. -/
theorem awaiting_act_perm (s : Inventory) (key : Nat) (hx : x.ofItself = true) :
    (s.awaiting key).Perm ((s.handed? key x).toList.map (·.1) ++ (s.act x).awaiting key) := by
  have h := s.goesOn key hx
  generalize s.handed? key x = r, s.act x = s' at h ⊢
  cases h with
  | alarm | idle => exact .refl _
  | pause watcher => exact awaiting_pause_perm s watcher key
  | poller h => exact .of_eq (awaiting_pollerMoves h key).symm
  | @reader reader item s₁ hr hreads =>
    have hleave : ((s₁.leaveLine reader).note reader.label (.received item)).awaiting key =
        awaiting { s with readers := s.readers.erase reader } key := by
      refine (awaiting_leaveLine s₁ reader key).trans (awaiting_congr ?_ key)
      rw [hreads.readers]
    rw [hleave]
    refine (awaiting_perm_erase hr key).trans (.of_eq ?_)
    split <;> rfl

/-- What those in line are handed is reported, and nothing that was reported is forgotten. -/
theorem events_act (s : Inventory) (key : Nat) (hx : x.ofItself = true) :
    ∃ news, (s.act x).events = s.events ++ news ∧
      ((s.handed? key x).toList.map fun e => (e.1, WatchEvent.received e.2)).Sublist news := by
  have h := s.goesOn key hx
  generalize s.handed? key x = r, s.act x = s' at h ⊢
  cases h with
  | alarm => exact ⟨_, rfl, List.nil_sublist _⟩
  | idle => exact ⟨[], (List.append_nil _).symm, .refl _⟩
  | pause watcher =>
    exact ⟨[], (events_pause s watcher).trans (List.append_nil _).symm, .refl _⟩
  | poller h => exact ⟨[], h.events.trans (List.append_nil _).symm, .refl _⟩
  | @reader reader item s₁ hr hreads =>
    refine ⟨[(reader.label, .received item)], ?_, ?_⟩
    · rw [note, events_leaveLine, hreads.events]
    · split
      · exact .refl _
      · exact List.nil_sublist _

/-- Whoever has left the line by the end of a run was handed one thing in it. -/
theorem awaiting_perm (s : Inventory) (key : Nat) {xs : List Act}
    (hxs : ∀ x ∈ xs, x.ofItself = true) :
    (s.awaiting key).Perm ((s.handed key xs).map (·.1) ++ (s.after xs).awaiting key) := by
  induction xs generalizing s with
  | nil => exact .refl _
  | cons x xs ih =>
    have hx := awaiting_act_perm s key (hxs x List.mem_cons_self)
    have hrest := ih (s.act x) fun y hy => hxs y (List.mem_cons_of_mem _ hy)
    rw [handed, Run.outputs_cons, List.map_append, List.append_assoc]
    exact hx.trans (hrest.append_left _)

/-- What those in line are handed in a run has been reported in it. -/
theorem events_after (s : Inventory) (key : Nat) {xs : List Act}
    (hxs : ∀ x ∈ xs, x.ofItself = true) :
    ∃ news, (s.after xs).events = s.events ++ news ∧
      ((s.handed key xs).map fun e => (e.1, WatchEvent.received e.2)).Sublist news := by
  induction xs generalizing s with
  | nil => exact ⟨[], (List.append_nil _).symm, .refl _⟩
  | cons x xs ih =>
    obtain ⟨news, hevents, hsub⟩ := events_act s key (hxs x List.mem_cons_self)
    obtain ⟨more, hmore, hsub'⟩ := ih (s.act x) fun y hy => hxs y (List.mem_cons_of_mem _ hy)
    refine ⟨news ++ more, ?_, ?_⟩
    · rw [after, List.foldl_cons, ← after, hmore, hevents, List.append_assoc]
    · rw [handed, Run.outputs_cons, List.map_append]
      exact hsub.append hsub'

/-! ## Changes first, then the end -/

/-- A subscription has ended, and nothing of its changes is unread. -/
def Over (s : Inventory) (key : Nat) : Prop :=
  ∃ p, s.poller? key = some p ∧ p.changes = [] ∧ p.hasEnded = true

namespace Over

theorem act (h : s.Over key) (x : Act) : (s.act x).Over key := by
  obtain ⟨p, hp, hc, he⟩ := h
  obtain ⟨cs, -, hdoes⟩ := s.act_does key x
  exact ⟨_, hdoes p hp, Subscription.over_after hc he _⟩

theorem after (h : s.Over key) (xs : List Act) : (s.after xs).Over key := by
  induction xs generalizing s with
  | nil => exact h
  | cons x xs ih => exact ih (h.act x)

theorem gives_delivered (h : s.Over key) (x : Act) :
    s.gives Subscription.delivered key x = none := by
  obtain ⟨p, hp, hc, -⟩ := h
  rw [gives, hp, Option.bind_some, Option.bind_eq_none_iff]
  intro y _
  cases y with
  | readChange => exact @Subscription.Drained.delivered_reading _ .changes hc
  | begin | move | readError | cancel => rfl

theorem taken_eq_nil (h : s.Over key) (xs : List Act) : s.taken key xs = [] := by
  rw [taken_eq_given]
  induction xs generalizing s with
  | nil => rfl
  | cons x xs ih =>
    rw [given, Run.outputs_cons, h.gives_delivered, Option.toList_none, List.nil_append]
    exact ih (h.act x)

end Over

/-- Who is handed something in line is handed changes, or the end if there will be none. -/
theorem handed?_cases (hp : s.poller? key = some p) (hx : x.ofItself = true) :
    s.handed? key x = none ∨ (∃ label delta, s.handed? key x = some (label, .change delta)) ∨
      ∃ label, s.handed? key x = some (label, .ended) ∧ s.Over key := by
  have h := s.goesOn key hx
  generalize s.handed? key x = r, s.act x = s' at h ⊢
  cases h with
  | alarm | idle | pause | poller => exact .inl rfl
  | @reader reader item s₁ hr hreads hne =>
    by_cases hk : reader.subscription = key
    · rw [if_pos hk]
      rw [hk] at hreads
      cases hreads with
      | change => exact .inr (.inl ⟨_, _, rfl⟩)
      | pending => exact absurd rfl hne
      | ended hended => exact .inr (.inr ⟨_, rfl, p, hp, (hended p hp).1, (hended p hp).2⟩)
    · exact .inl (if_neg hk)

/-- Those in line are handed changes first, and after them the end, again and again. -/
theorem handed_eq (hp : s.poller? key = some p) {xs : List Act}
    (hxs : ∀ x ∈ xs, x.ofItself = true) :
    ∃ n, (s.handed key xs).map (·.2) =
        (s.taken key xs).map .change ++ List.replicate n .ended ∧
      (0 < n → (s.after xs).Over key) := by
  induction xs generalizing s p with
  | nil => exact ⟨0, rfl, fun h => absurd h (Nat.lt_irrefl 0)⟩
  | cons x xs ih =>
    have hx := hxs x List.mem_cons_self
    have hanswer : s.answer? key x = (s.handed? key x).map (·.2) := by
      cases x with
      | read => cases hx
      | _ => rfl
    obtain ⟨p', hp'⟩ : ∃ p', (s.act x).poller? key = some p' := by
      obtain ⟨cs, -, hdoes⟩ := s.act_does key x
      exact ⟨_, hdoes p hp⟩
    obtain ⟨n, hrest, hover⟩ := ih hp' fun y hy => hxs y (List.mem_cons_of_mem _ hy)
    rw [handed, Run.outputs_cons, List.map_append, taken, Run.outputs_cons, hanswer, ← handed,
      ← taken, hrest]
    rcases handed?_cases hp hx with hh | ⟨label, delta, hh⟩ | ⟨label, hh, hs⟩
    · rw [hh]
      exact ⟨n, rfl, hover⟩
    · rw [hh]
      exact ⟨n, rfl, hover⟩
    · rw [hh, (hs.act x).taken_eq_nil xs]
      exact ⟨n + 1, rfl, fun _ => (hs.act x).after xs⟩

/-- So they are handed what there is, as far as it goes, and those for whom there is nothing the
end. -/
theorem handed_eq_take (hp : s.poller? key = some p) {xs : List Act}
    (hxs : ∀ x ∈ xs, x.ofItself = true) {q : Subscription}
    (hq : (s.after xs).poller? key = some q) :
    let told := s.handed key xs
    let all := s.taken key xs ++ q.changes
    told.map (·.2) =
        (all.take told.length).map .change ++ List.replicate (told.length - all.length) .ended ∧
      q.changes = all.drop told.length := by
  intro told all
  obtain ⟨n, hitems, hover⟩ := handed_eq hp hxs
  have hlen : told.length = (s.taken key xs).length + n := by
    rw [← List.length_map (fun e : String × StreamItem => e.2), hitems, List.length_append,
      List.length_map, List.length_replicate]
  rw [hitems]
  cases n with
  | zero =>
    have hle : told.length - all.length = 0 := by
      rw [hlen, List.length_append]
      omega
    rw [hle, hlen, Nat.add_zero, List.take_left, List.drop_left]
    exact ⟨rfl, rfl⟩
  | succ n =>
    obtain ⟨p', hp', hc, -⟩ := hover (Nat.succ_pos n)
    have hq' : q.changes = [] := by
      rw [hq, Option.some.injEq] at hp'
      rw [hp', hc]
    have hall : all = s.taken key xs := by rw [← List.append_nil (s.taken key xs), ← hq']
    have hle : all.length ≤ told.length := by
      rw [hlen, hall]
      omega
    have hdiff : told.length - all.length = n + 1 := by
      rw [hlen, hall]
      omega
    rw [List.take_of_length_le hle, List.drop_of_length_le hle, hdiff, hall]
    exact ⟨rfl, hq'⟩

end Inventory

end SystemdControl
