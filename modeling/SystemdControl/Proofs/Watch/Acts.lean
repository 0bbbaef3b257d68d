import SystemdControl.Proofs.Watch.Streams
import SystemdControl.Watch.Inventory

/-!
# The acts of an inventory

Whatever happens on the side of the inventory is a run of acts: time goes on, someone moves, by turn
or out of turn, a caller subscribes, reads, waits, cancels, drops. For each subscription such a run
is a run of its own acts, with the same readings. So what holds after every run of a subscription
holds of every subscription at every moment, whoever else there is.

* `Inventory.act` and `Inventory.after`: an act, and a run of them;
* `Inventory.done?` is what an act does to the subscription of a number, and `Inventory.given` what
  a run gives there;
* `Inventory.exists_run`: a run of an inventory is a run of each of its subscriptions.
-/

namespace SystemdControl

/-- What reading a stream does to a subscription. -/
def StreamKind.reading : StreamKind → Subscription.Act
  | .changes => .readChange
  | .errors => .readError

/-- Nothing of a stream is unread. -/
def Subscription.Drained (p : Subscription) : StreamKind → Prop
  | .changes => p.changes = []
  | .errors => p.errors = []

theorem Subscription.Drained.act_reading {p : Subscription} {kind : StreamKind}
    (h : p.Drained kind) : p.act kind.reading = p := by
  cases kind with
  | changes =>
    have hc : p.changes = [] := h
    simp only [StreamKind.reading, act, readChange, hc]
  | errors =>
    have he : p.errors = [] := h
    simp only [StreamKind.reading, act, readError, he]

namespace Inventory

/-- Something that happens on the side of the inventory. -/
inductive Act where
  | alarm (now : Nat)
  /-- The one whose turn it is goes on, or its turn is over. -/
  | turn (now : Nat)
  /-- Someone goes on, whoever's turn it is. -/
  | move (now : Nat) (watcher : Watcher)
  | addScript (answers : List Scripted)
  | list (now : Nat) (label : String)
  | subscribe (label : String) (options : SubscribeOptions)
  | openStream (label : String) (key : Nat) (kind : StreamKind)
  | read (key : Nat) (kind : StreamKind)
  | await (label : String) (key : Nat)
  | cancel (key : Nat)
  | dropHeld (label : String)
  | dropTask (label : String)
  /-- What has ended is reported and forgotten. -/
  | clear

/-- An inventory after an act. What cannot be done changes nothing. -/
def act (s : Inventory) : Act → Inventory
  | .alarm now => s.alarm now
  | .turn now => (s.step? now).getD s
  | .move now watcher => (s.move? now watcher).getD s
  | .addScript answers => s.addScript answers
  | .list now label => s.list now label
  | .subscribe label options =>
    match s.subscribe label options with
    | .ok s' => s'
    | .error _ => s
  | .openStream label key kind => s.openStream label key kind
  | .read key kind => (s.read key kind).2
  | .await label key => s.await label key
  | .cancel key => s.cancel key
  | .dropHeld label => (s.dropHeld label).2
  | .dropTask label => (s.dropTask? label).getD s
  | .clear => { s with events := [] }

/-- An inventory after a run. -/
def after (s : Inventory) (xs : List Act) : Inventory :=
  xs.foldl act s

theorem after_append (s : Inventory) (xs ys : List Act) :
    s.after (xs ++ ys) = (s.after xs).after ys :=
  List.foldl_append

variable (s : Inventory)

/-- Who goes on in an act, and when. -/
def mover? : Act → Option (Nat × Watcher)
  | .turn now => s.agenda.next?.map (now, ·)
  | .move now watcher => some (now, watcher)
  | _ => none

/-- What a poller does when it goes on. -/
def turnOf (now : Nat) (p : Subscription) : Subscription.Act :=
  if p.wantsFetch then .begin now (s.fetch now).1 else .move now

/-- What it does to the subscription of a number when someone goes on. -/
def doneBy? (key now : Nat) : Watcher → Option Subscription.Act
  | .poller k => if k = key then (s.poller? key).map (s.turnOf now) else none
  | .reader number =>
    (s.readers.find? (·.number = number)).bind fun reader =>
      if reader.subscription = key then some .readChange else none

/-- What an act does to the subscription of a number, besides cancelling it. -/
def done? (key : Nat) : Act → Option Subscription.Act
  | .read k kind => if k = key then some kind.reading else none
  | x => (s.mover? x).bind fun (now, watcher) => s.doneBy? key now watcher

/-- What an act gives at the subscription of a number. -/
def gives {β : Type} (out : Subscription → Subscription.Act → Option β) (key : Nat) (x : Act) :
    Option β :=
  (s.poller? key).bind fun p => (s.done? key x).bind (out p)

/-- What a run gives at the subscription of a number. -/
def given {β : Type} (out : Subscription → Subscription.Act → Option β) (key : Nat)
    (xs : List Act) : List β :=
  Run.outputs act (fun s x => s.gives out key x) s xs

/-! ## Looking up pollers -/

variable {s} {s' : Inventory} {key k : Nat} {p : Subscription}

theorem poller?_congr (h : s'.pollers = s.pollers) (key : Nat) :
    s'.poller? key = s.poller? key := by
  rw [poller?, h, poller?]

theorem poller?_putPoller (s : Inventory) (key : Nat) (p : Subscription) (k : Nat) :
    (s.putPoller key p).poller? k =
      if k = key then (s.poller? key).map fun _ => p else s.poller? k := by
  simp only [poller?, putPoller]
  induction s.pollers with
  | nil => simp
  | cons e l ih =>
    by_cases hk : e.1 = key
    · by_cases h : k = key
      · simp [hk, h]
      · have hne : ¬ key = k := fun h' => h h'.symm
        simpa [hk, h, hne] using ih
    · by_cases h : e.1 = k
      · have hne : ¬ k = key := h ▸ hk
        simp [h, hne]
      · simpa [hk, h] using ih

theorem poller?_putPoller_self (p' : Subscription) (h : s.poller? key = some p) :
    (s.putPoller key p').poller? key = some p' := by
  rw [poller?_putPoller, if_pos rfl, h, Option.map_some]

theorem poller?_requeuePoller (s : Inventory) (key : Nat) (p : Subscription) (k : Nat) :
    (s.requeuePoller key p).poller? k = if k = key then some p else s.poller? k := by
  simp only [poller?, requeuePoller]
  induction s.pollers with
  | nil =>
    by_cases h : key = k
    · simp [h]
    · have hne : ¬ k = key := fun h' => h h'.symm
      simp [h, hne]
  | cons e l ih =>
    by_cases hk : e.1 = key
    · by_cases h : k = key
      · simpa [hk, h] using ih
      · have hne : ¬ key = k := fun h' => h h'.symm
        simpa [hk, h, hne] using ih
    · by_cases h : e.1 = k
      · have hne : ¬ k = key := h ▸ hk
        simp [h, hne]
      · simpa [hk, h] using ih

@[simp] theorem pollers_fetch (now : Nat) : (s.fetch now).2.pollers = s.pollers := by
  unfold fetch
  split <;> rfl

@[simp] theorem pollers_rouse (watcher : Watcher) : (s.rouse watcher).pollers = s.pollers := rfl

@[simp] theorem pollers_callReader (key : Nat) : (s.callReader key).pollers = s.pollers := by
  unfold callReader
  split <;> rfl

@[simp] theorem pollers_callReaders (key : Nat) : (s.callReaders key).pollers = s.pollers := rfl

theorem poller?_cancel (s : Inventory) (key k : Nat) :
    (s.cancel key).poller? k =
      if k = key then (s.poller? key).map (·.cancel) else s.poller? k := by
  unfold cancel
  split
  · rename_i h
    split
    · rename_i hk
      rw [hk, h, Option.map_none]
    · rfl
  · rename_i p h
    rw [poller?_congr (pollers_rouse _), poller?_putPoller, h, Option.map_some, Option.map_some]

/-! ## What an act does to a subscription -/

/-- The subscription of a number does some acts, and may be cancelled after them. -/
def Does (key : Nat) (ys : List Subscription.Act) (s s' : Inventory) : Prop :=
  ∃ cs : List Subscription.Act, (∀ y ∈ cs, y = .cancel) ∧
    ∀ p, s.poller? key = some p → s'.poller? key = some (p.after (ys ++ cs))

namespace Does

variable {s'' : Inventory} {ys : List Subscription.Act}

theorem of_poller? (h : s'.poller? key = s.poller? key) : Does key [] s s' :=
  ⟨[], by simp, fun p hp => h.trans hp⟩

theorem of_pollers (h : s'.pollers = s.pollers) : Does key [] s s' :=
  of_poller? (poller?_congr h key)

theorem trans (h : Does key ys s s') (h' : Does key [] s' s'') : Does key ys s s'' := by
  obtain ⟨cs, hcs, hp⟩ := h
  obtain ⟨cs', hcs', hp'⟩ := h'
  refine ⟨cs ++ cs', fun y hy => (List.mem_append.1 hy).elim (hcs y) (hcs' y), fun p h => ?_⟩
  rw [hp' _ (hp p h), Subscription.after, Subscription.after, Subscription.after,
    ← List.foldl_append, List.nil_append, List.append_assoc]

/-- What changes nothing at the subscription can be left out. -/
theorem stay {y : Subscription.Act} (h : Does key [] s s')
    (hy : ∀ p, s.poller? key = some p → p.act y = p) : Does key [y] s s' := by
  obtain ⟨cs, hcs, hp⟩ := h
  refine ⟨cs, hcs, fun p h => ?_⟩
  rw [hp p h, List.nil_append, List.singleton_append, Subscription.after, Subscription.after,
    List.foldl_cons, hy p h]

theorem unmoved (h : Does key ys s s') (h' : s'.poller? key = s.poller? key) : Does key ys s s := by
  obtain ⟨cs, hcs, hp⟩ := h
  exact ⟨cs, hcs, fun p hs => h'.symm.trans (hp p hs)⟩

theorem put {y : Subscription.Act} {p' : Subscription} (hs : s'.pollers = s.pollers)
    (hp : s.poller? k = some p) (hy : p.act y = p') :
    Does key (if k = key then [y] else []) s (s'.putPoller k p') := by
  refine ⟨[], by simp, fun q hq => ?_⟩
  rw [poller?_putPoller, poller?_congr hs, poller?_congr hs]
  by_cases h : k = key
  · subst h
    rw [hp] at hq
    rw [if_pos rfl, if_pos rfl, hp, ← hy, ← Option.some.inj hq]
    rfl
  · rw [if_neg h, if_neg fun h' => h h'.symm, hq]
    rfl

theorem cancel (s : Inventory) (k : Nat) : Does key [] s (s.cancel k) := by
  by_cases h : key = k
  · refine ⟨[.cancel], by simp, fun p hp => ?_⟩
    rw [poller?_cancel, if_pos h, ← h, hp]
    rfl
  · refine ⟨[], by simp, fun p hp => ?_⟩
    rw [poller?_cancel, if_neg h, hp]
    rfl

theorem cancelIfUnwanted (s : Inventory) (k : Nat) : Does key [] s (s.cancelIfUnwanted k) := by
  unfold Inventory.cancelIfUnwanted
  split
  · exact of_pollers rfl
  · exact cancel s k

theorem leaveLine (s : Inventory) (reader : Reader) : Does key [] s (s.leaveLine reader) := by
  unfold Inventory.leaveLine
  refine trans (of_pollers ?_) (cancelIfUnwanted _ _)
  split
  · exact pollers_callReader _
  · rfl

end Does

/-- What reading a stream gives and does. -/
inductive Reads (s : Inventory) (k : Nat) : StreamKind → StreamItem → Inventory → Prop where
  | change {p : Subscription} {delta : UnitDelta} {rest : List UnitDelta}
      (hp : s.poller? k = some p) (hc : p.changes = delta :: rest) :
      Reads s k .changes (.change delta)
        (if p.isPublishing then (s.putPoller k { p with changes := rest }).rouse (.poller k)
        else s.putPoller k { p with changes := rest })
  | error {p : Subscription} {e : Error} {rest : List Error}
      (hp : s.poller? k = some p) (he : p.errors = e :: rest) :
      Reads s k .errors (.error e) (s.putPoller k { p with errors := rest })
  | pending {p : Subscription} {kind : StreamKind} (hp : s.poller? k = some p)
      (hd : p.Drained kind) (he : p.hasEnded = false) : Reads s k kind .pending s
  | ended {kind : StreamKind}
      (h : ∀ p, s.poller? k = some p → p.Drained kind ∧ p.hasEnded = true) :
      Reads s k kind .ended s

theorem reads (s : Inventory) (k : Nat) (kind : StreamKind) :
    s.Reads k kind (s.read k kind).1 (s.read k kind).2 := by
  unfold read
  split
  · rename_i hp
    refine .ended fun p h => ?_
    rw [hp] at h
    cases h
  · rename_i p hp
    cases hc : p.changes with
    | cons delta rest =>
      have h := Reads.change hp hc
      simp only [Subscription.readChange, hc]
      exact h
    | nil =>
      cases he : p.hasEnded with
      | true =>
        simp only [Subscription.readChange, hc, he, if_true]
        refine .ended fun q hq => ?_
        rw [hp] at hq
        cases hq
        exact ⟨hc, he⟩
      | false =>
        simp only [Subscription.readChange, hc, he, Bool.false_eq_true, if_false]
        exact .pending hp hc he
  · rename_i p hp
    cases hc : p.errors with
    | cons e rest =>
      have h := Reads.error hp hc
      simp only [Subscription.readError, hc]
      exact h
    | nil =>
      cases he : p.hasEnded with
      | true =>
        simp only [Subscription.readError, hc, he, if_true]
        refine .ended fun q hq => ?_
        rw [hp] at hq
        cases hq
        exact ⟨hc, he⟩
      | false =>
        simp only [Subscription.readError, hc, he, Bool.false_eq_true, if_false]
        exact .pending hp hc he

theorem Reads.does {kind : StreamKind} {item : StreamItem} (h : s.Reads k kind item s')
    (key : Nat) : Does key (if k = key then [kind.reading] else []) s s' := by
  have hnothing : (∀ p, s.poller? k = some p → p.Drained kind) →
      Does key (if k = key then [kind.reading] else []) s s := fun hd => by
    by_cases hk : k = key
    · rw [if_pos hk]
      exact (Does.of_pollers rfl).stay fun p hp => (hd p (hk ▸ hp)).act_reading
    · rw [if_neg hk]
      exact .of_pollers rfl
  cases h with
  | @change p delta rest hp hc =>
    have hput : Does key (if k = key then [.readChange] else []) s
        (s.putPoller k { p with changes := rest }) :=
      .put rfl hp (by simp only [Subscription.act, Subscription.readChange, hc])
    exact hput.trans (.of_pollers (by split <;> rfl))
  | @error p e rest hp he =>
    exact .put rfl hp
      (by simp only [StreamKind.reading, Subscription.act, Subscription.readError, he])
  | pending hp hd => exact hnothing fun q hq => by rw [hp] at hq; cases hq; exact hd
  | ended h => exact hnothing fun p hp => (h p hp).1

/-! ## Moves -/

/-- Those are called who wait for what a poller has done. -/
def callFor (s : Inventory) (k : Nat) (p p' : Subscription) : Inventory :=
  let s' := if p.changes.length < p'.changes.length then s.callReader k else s
  if p'.hasEnded then s'.callReaders k else s'

theorem movePoller?_eq (hp : s.poller? k = some p) (now : Nat) :
    s.movePoller? now k =
      if p.wantsFetch then some ((s.fetch now).2.putPoller k (p.begin now (s.fetch now).1))
      else (p.move? now).map fun p' => (s.putPoller k p').callFor k p p' := by
  rw [movePoller?, hp, Option.bind_some]
  rfl

/-- What a move of a poller does. -/
inductive PollerMoves (s : Inventory) (now k : Nat) : Inventory → Prop where
  | begin {p : Subscription} (hp : s.poller? k = some p) (hw : p.wantsFetch = true) :
      PollerMoves s now k ((s.fetch now).2.putPoller k (p.begin now (s.fetch now).1))
  | move {p p' : Subscription} (hp : s.poller? k = some p) (hw : p.wantsFetch = false)
      (hm : p.move? now = some p') : PollerMoves s now k ((s.putPoller k p').callFor k p p')

theorem pollerMoves {now : Nat} (h : s.movePoller? now k = some s') : s.PollerMoves now k s' := by
  obtain ⟨p, hp, -⟩ := Option.bind_eq_some_iff.1 h
  rw [movePoller?_eq hp] at h
  cases hw : p.wantsFetch with
  | true =>
    rw [hw, if_pos rfl] at h
    cases h
    exact .begin hp hw
  | false =>
    rw [hw, if_neg Bool.false_ne_true] at h
    obtain ⟨p', hm, rfl⟩ := Option.map_eq_some_iff.1 h
    exact .move hp hw hm

/-- What a move of a reader does. -/
theorem moveReader?_eq_some {number : Nat} (h : s.moveReader? number = some s') :
    ∃ reader item s₁, s.readers.find? (·.number = number) = some reader ∧
      s.Reads reader.subscription .changes item s₁ ∧ item ≠ .pending ∧
        s' = (s₁.leaveLine reader).note reader.label (.received item) := by
  obtain ⟨reader, hr, h⟩ := Option.bind_eq_some_iff.1 h
  have hreads := s.reads reader.subscription .changes
  generalize s.read reader.subscription .changes = r at h hreads
  obtain ⟨item, s₁⟩ := r
  split at h
  · cases h
  · rename_i item' s₁' hne he
    cases he
    exact ⟨reader, item, s₁, hr, hreads, hne, (Option.some.inj h).symm⟩

@[simp] theorem pollers_callFor (s : Inventory) (k : Nat) (p p' : Subscription) :
    (s.callFor k p p').pollers = s.pollers := by
  unfold callFor
  split <;> split <;> simp

/-- What the end of a turn does. -/
inductive Pauses (s : Inventory) : Watcher → Inventory → Prop where
  | poller {k : Nat} {p : Subscription} (hp : s.poller? k = some p) :
      Pauses s (.poller k) (requeuePoller { s with agenda := s.agenda.dismiss } k p)
  | reader {number : Nat} {reader : Reader}
      (hr : s.readers.find? (·.number = number) = some reader) :
      Pauses s (.reader number)
        { s with
          agenda := s.agenda.dismiss
          readers := s.readers.erase reader ++ [{ reader with called := false }] }
  /-- Who is gone does not wait. -/
  | gone (watcher : Watcher) : Pauses s watcher { s with agenda := s.agenda.dismiss }

theorem pauses (s : Inventory) (watcher : Watcher) : s.Pauses watcher (s.pause watcher) := by
  cases watcher with
  | poller k =>
    have hd : poller? { s with agenda := s.agenda.dismiss } k = s.poller? k := rfl
    rw [pause, hd]
    cases hp : s.poller? k with
    | none => exact .gone _
    | some p => exact .poller hp
  | reader number =>
    rw [pause]
    cases hr : s.readers.find? (·.number = number) with
    | none => exact .gone _
    | some reader => exact .reader hr

theorem poller?_pause (s : Inventory) (watcher : Watcher) (key : Nat) :
    (s.pause watcher).poller? key = s.poller? key := by
  have h := s.pauses watcher
  generalize s.pause watcher = s' at h ⊢
  cases h with
  | @poller k p hp =>
    rw [poller?_requeuePoller]
    split
    · rename_i hk
      rw [hk, hp]
    · rfl
  | reader | gone => rfl

theorem doneBy?_poller (hp : s.poller? k = some p) (now : Nat) :
    s.doneBy? key now (.poller k) = if k = key then some (s.turnOf now p) else none := by
  by_cases h : k = key
  · rw [doneBy?, if_pos h, if_pos h, ← h, hp, Option.map_some]
  · rw [doneBy?, if_neg h, if_neg h]

/-- Whoever makes a move does to each subscription what its move is. -/
theorem Does.move {now : Nat} {watcher : Watcher} (h : s.move? now watcher = some s') :
    Does key (s.doneBy? key now watcher).toList s s' := by
  cases watcher with
  | poller k =>
    have hput : ∀ {s₁ s₂ : Inventory} {p p'}, s₁.pollers = s.pollers → s.poller? k = some p →
        p.act (s.turnOf now p) = p' → s₂.pollers = (s₁.putPoller k p').pollers →
        Does key (s.doneBy? key now (.poller k)).toList s s₂ := fun hs hp hy hs₂ => by
      rw [doneBy?_poller hp, apply_ite Option.toList]
      exact (Does.put hs hp hy).trans (of_pollers hs₂)
    cases pollerMoves h with
    | @begin p hp hw =>
      exact hput (pollers_fetch now) hp (by simp only [turnOf, Subscription.act, if_pos hw]) rfl
    | @move p p' hp hw hm =>
      exact hput rfl hp (by simp [turnOf, Subscription.act, hw, hm]) (pollers_callFor ..)
  | reader number =>
    obtain ⟨reader, item, s₁, hr, hreads, -, rfl⟩ := moveReader?_eq_some h
    have hread := (hreads.does key).trans (leaveLine s₁ reader)
    rw [doneBy?, hr, Option.bind_some, apply_ite Option.toList]
    exact hread.trans (of_pollers rfl)

/-- Who cannot go on would change nothing. -/
theorem act_eq_of_doneBy? {now : Nat} {watcher : Watcher} {y : Subscription.Act}
    (h : s.move? now watcher = none) (hy : s.doneBy? key now watcher = some y)
    (hp : s.poller? key = some p) : p.act y = p := by
  cases watcher with
  | poller k =>
    rw [doneBy?] at hy
    split at hy
    · rename_i hk
      subst hk
      rw [hp, Option.map_some, Option.some.injEq] at hy
      rw [Inventory.move?, movePoller?_eq hp] at h
      cases hw : p.wantsFetch with
      | true => simp [hw] at h
      | false =>
        rw [hw, if_neg Bool.false_ne_true, Option.map_eq_none_iff] at h
        rw [turnOf, hw, if_neg Bool.false_ne_true] at hy
        rw [← hy, Subscription.act, h, Option.getD_none]
    · cases hy
  | reader number =>
    obtain ⟨reader, hr, hy⟩ := Option.bind_eq_some_iff.1 hy
    split at hy
    · rename_i hk
      cases hy
      rw [Inventory.move?, moveReader?, hr, Option.bind_some] at h
      have hreads := s.reads reader.subscription .changes
      generalize s.read reader.subscription .changes = r at h hreads
      obtain ⟨item, s₁⟩ := r
      split at h
      · rename_i he
        cases he
        cases hreads with
        | pending hp' hd =>
          rw [hk, hp] at hp'
          cases hp'
          exact hd.act_reading
      · cases h
    · cases hy

theorem Does.pause {now : Nat} {watcher : Watcher} (h : s.move? now watcher = none) :
    Does key (s.doneBy? key now watcher).toList s (s.pause watcher) := by
  have hpause : Does key [] s (s.pause watcher) := of_poller? (poller?_pause s watcher key)
  cases hy : s.doneBy? key now watcher with
  | none => exact hpause
  | some y => exact hpause.stay fun p hp => act_eq_of_doneBy? h hy hp

/-! ## New subscriptions -/

/-- A new subscription is held under a label. -/
def enrol (s : Inventory) (label : String) (p : Subscription) : Inventory :=
  { s with
    pollers := s.pollers ++ [(s.opened, p)]
    held := s.held.set label s.opened
    opened := s.opened + 1 }.rouse (.poller s.opened)

theorem act_subscribe {label : String} {o : SubscribeOptions} (h : Subscription.open? o = .ok p) :
    s.act (.subscribe label o) =
      match s.held.get? label with
      | none => s.enrol label p
      | some old => (s.enrol label p).cancelIfUnwanted old := by
  simp only [act, subscribe, h, bind, Except.bind]
  cases s.held.get? label <;> rfl

theorem act_subscribe_of_error {label : String} {o : SubscribeOptions} {e : Error}
    (h : Subscription.open? o = .error e) : s.act (.subscribe label o) = s := by
  simp only [act, subscribe, h, bind, Except.bind]

theorem poller?_enrol (s : Inventory) (label : String) (p : Subscription) (key : Nat) :
    (s.enrol label p).poller? key =
      (s.poller? key).or (if s.opened = key then some p else none) := by
  simp only [poller?, enrol, rouse, List.find?_append]
  cases s.pollers.find? (·.1 = key) with
  | some e => rfl
  | none => by_cases h : s.opened = key <;> simp [h]

theorem Does.enrol (s : Inventory) (label : String) (p : Subscription) (key : Nat) :
    Does key [] s (s.enrol label p) :=
  ⟨[], by simp, fun q hq => by rw [poller?_enrol, hq]; rfl⟩

/-! ## Runs -/

theorem act_does (s : Inventory) (key : Nat) (x : Act) :
    Does key (s.done? key x).toList s (s.act x) := by
  cases x with
  | turn now =>
    simp only [act, done?, mover?, step?]
    cases s.agenda.next? with
    | none => exact .of_pollers rfl
    | some watcher =>
      simp only [Option.map_some, Option.bind_some, Option.getD_some]
      cases hm : s.move? now watcher with
      | none => exact .pause hm
      | some s' => exact .move hm
  | move now watcher =>
    simp only [act, done?, mover?, Option.bind_some]
    cases hm : s.move? now watcher with
    | none => exact (Does.pause hm).unmoved (poller?_pause s watcher key)
    | some s' => exact .move hm
  | list now label => exact .of_pollers (pollers_fetch now)
  | subscribe label o =>
    cases ho : Subscription.open? o with
    | error e =>
      rw [act_subscribe_of_error ho]
      exact .of_pollers rfl
    | ok p =>
      rw [act_subscribe ho]
      cases s.held.get? label with
      | none => exact .enrol s label p key
      | some old => exact (Does.enrol s label p key).trans (.cancelIfUnwanted _ old)
  | read k kind =>
    have h := (s.reads k kind).does key
    rwa [← Option.toList_some, ← Option.toList_none, ← apply_ite Option.toList] at h
  | cancel k => exact .cancel s k
  | dropHeld label =>
    simp only [act, dropHeld]
    cases s.held.get? label with
    | none => exact .of_pollers rfl
    | some k =>
      have hheld : Does key [] s { s with held := s.held.remove label } := .of_pollers rfl
      exact hheld.trans (.cancelIfUnwanted _ k)
  | dropTask label =>
    simp only [act, dropTask?]
    split
    · exact .of_pollers rfl
    · cases s.readers.find? (·.label = label) with
      | none => exact .of_pollers rfl
      | some reader => exact .leaveLine s reader
  | alarm | addScript | openStream | await | clear => exact .of_pollers rfl

/-- What is known of every run of a subscription is known of each subscription of an inventory. -/
theorem exists_run (h : s.poller? key = some p) (xs : List Act) :
    ∃ ys, (s.after xs).poller? key = some (p.after ys) ∧
      ∀ {β : Type} (out : Subscription → Subscription.Act → Option β),
        (∀ q, out q .cancel = none) → p.given out ys = s.given out key xs := by
  induction xs generalizing s p with
  | nil => exact ⟨[], h, fun _ _ => rfl⟩
  | cons x xs ih =>
    obtain ⟨cs, hcs, hx⟩ := s.act_does key x
    obtain ⟨ys, hys, hout⟩ := ih (hx p h)
    refine ⟨(s.done? key x).toList ++ cs ++ ys, ?_, fun out hc => ?_⟩
    · rw [after, List.foldl_cons, ← after, hys, Subscription.after, Subscription.after,
        Subscription.after, ← List.foldl_append]
    · have hgives : Run.outputs Subscription.act out p (s.done? key x).toList =
          (s.gives out key x).toList := by
        rw [gives, h, Option.bind_some]
        cases s.done? key x <;> simp
      have hcancels : ∀ q, Run.outputs Subscription.act out q cs = [] :=
        Run.outputs_eq_nil fun y hy q => hcs y hy ▸ hc q
      rw [Subscription.given, Run.outputs_append, Run.outputs_append, hgives, hcancels,
        List.append_nil]
      exact congrArg _ (hout out hc)

end Inventory

end SystemdControl
