import SystemdControl.Proofs.Watch.Acts

/-!
# What readers are handed

A caller that reads a stream has its item at once. One that waits in line is told later: the act in
which it goes on reports its item, under its label. Both are what the subscription gives.

* `Inventory.reported` is what an act reports, and `Inventory.handed?` the item among it that a
  reader of a subscription has waited for;
* `Inventory.taken` and `Inventory.heard` are all changes and all errors that the readers of a
  subscription get in a run;
* `Inventory.taken_eq_given`, `Inventory.heard_eq_given`: they are what the subscription gives, no
  more and no less.
-/

namespace SystemdControl

theorem Subscription.Drained.delivered_reading {p : Subscription} {kind : StreamKind}
    (h : p.Drained kind) : p.delivered kind.reading = none := by
  cases kind with
  | changes =>
    have hc : p.changes = [] := h
    cases he : p.hasEnded <;> simp [StreamKind.reading, delivered, readChange, hc, he]
  | errors => rfl

theorem Subscription.Drained.tells_reading {p : Subscription} {kind : StreamKind}
    (h : p.Drained kind) : p.tells kind.reading = none := by
  cases kind with
  | changes => rfl
  | errors =>
    have hc : p.errors = [] := h
    cases he : p.hasEnded <;> simp [StreamKind.reading, tells, readError, hc, he]

/-- The changes that were read. -/
def StreamItem.change? : StreamItem → Option UnitDelta
  | .change delta => some delta
  | _ => none

/-- The error that was read. -/
def StreamItem.error? : StreamItem → Option Error
  | .error e => some e
  | _ => none

/-- What ends a wait. -/
def StreamItem.final? : StreamItem → Option StreamItem
  | .pending => none
  | item => some item

namespace Inventory

/-! ## Reports -/

/-- What an act adds to what has been reported. -/
def reported (s : Inventory) (x : Act) : Labelled WatchEvent :=
  (s.act x).events.drop s.events.length

/-- The reader that goes on in an act. -/
def readerOf? (s : Inventory) (x : Act) : Option Reader :=
  (s.mover? x).bind fun
    | (_, .poller _) => none
    | (_, .reader number) => s.readers.find? (·.number = number)

/-- What a reader that waited for the changes of a subscription is handed in an act, with its label:
the item that the act reports under it. -/
def handed? (s : Inventory) (key : Nat) (x : Act) : Option (String × StreamItem) :=
  (s.readerOf? x).bind fun reader =>
    if reader.subscription = key then
      match s.reported x with
      | [(label, .received item)] => if label = reader.label then some (label, item) else none
      | _ => none
    else none

/-- What someone gets from the subscription of a number in an act. A call that reads has it at
once. -/
def answer? (s : Inventory) (key : Nat) : Act → Option StreamItem
  | .read k kind => if k = key then some (s.read k kind).1 else none
  | x => (s.handed? key x).map (·.2)

/-- What the readers that wait for a subscription are handed in a run, in order. -/
def handed (s : Inventory) (key : Nat) (xs : List Act) : Labelled StreamItem :=
  Run.outputs act (fun s x => s.handed? key x) s xs

/-- The changes that all readers of a subscription together get in a run, in order. -/
def taken (s : Inventory) (key : Nat) (xs : List Act) : List UnitDelta :=
  Run.outputs act (fun s x => (s.answer? key x).bind (·.change?)) s xs

/-- The errors that all readers of a subscription together get in a run, in order. -/
def heard (s : Inventory) (key : Nat) (xs : List Act) : List Error :=
  Run.outputs act (fun s x => (s.answer? key x).bind (·.error?)) s xs

/-! ## What is reported to readers -/

variable {s s' : Inventory} {key k now : Nat} {p : Subscription} {x : Act} {watcher : Watcher}

@[simp] theorem events_rouse (s : Inventory) (watcher : Watcher) :
    (s.rouse watcher).events = s.events := rfl

@[simp] theorem events_putPoller (s : Inventory) (k : Nat) (p : Subscription) :
    (s.putPoller k p).events = s.events := rfl

@[simp] theorem events_callReader (s : Inventory) (k : Nat) :
    (s.callReader k).events = s.events := by
  unfold callReader
  split <;> rfl

@[simp] theorem events_cancelIfUnwanted (s : Inventory) (k : Nat) :
    (s.cancelIfUnwanted k).events = s.events := by
  unfold cancelIfUnwanted cancel
  split
  · rfl
  · split <;> rfl

@[simp] theorem events_leaveLine (s : Inventory) (reader : Reader) :
    (s.leaveLine reader).events = s.events := by
  simp only [leaveLine, events_cancelIfUnwanted]
  split <;> simp

theorem Reads.events {kind : StreamKind} {item : StreamItem} (h : s.Reads k kind item s') :
    s'.events = s.events := by
  cases h with
  | change => split <;> rfl
  | error | pending | ended => rfl

theorem events_pause (s : Inventory) (watcher : Watcher) :
    (s.pause watcher).events = s.events := by
  have h := s.pauses watcher
  generalize s.pause watcher = s' at h ⊢
  cases h <;> rfl

theorem moveReader?_eq (s : Inventory) (number : Nat) :
    s.moveReader? number = (s.readers.find? (·.number = number)).bind fun reader =>
      (s.read reader.subscription .changes).1.final?.map fun item =>
        ((s.read reader.subscription .changes).2.leaveLine reader).note reader.label
          (.received item) := by
  rw [moveReader?]
  congr 1
  funext reader
  generalize s.read reader.subscription .changes = r
  obtain ⟨item, s₁⟩ := r
  cases item <;> rfl

/-- Whoever goes on makes a move, or leaves what was reported as it is. -/
theorem act_of_mover? (h : s.mover? x = some (now, watcher)) :
    ∃ s₀ : Inventory, s₀.events = s.events ∧ s.act x = (s.move? now watcher).getD s₀ := by
  cases x with
  | turn t =>
    obtain ⟨w, hw, he⟩ := Option.map_eq_some_iff.1 h
    cases he
    refine ⟨s.pause watcher, events_pause s watcher, ?_⟩
    rw [act, step?, hw, Option.map_some, Option.getD_some]
  | move t w =>
    cases h
    exact ⟨s, rfl, rfl⟩
  | _ => cases h

/-- A reader that goes on is handed what it finds, unless it finds nothing. -/
theorem handed?_eq {number : Nat} {reader : Reader} (h : s.mover? x = some (now, .reader number))
    (hr : s.readers.find? (·.number = number) = some reader) :
    s.handed? key x = if reader.subscription = key then
      (s.read key .changes).1.final?.map (reader.label, ·) else none := by
  have hreader : s.readerOf? x = some reader := by
    rw [readerOf?, h]
    exact hr
  rw [handed?, hreader, Option.bind_some]
  split
  · rename_i hk
    obtain ⟨s₀, hs₀, hact⟩ := act_of_mover? h
    have hreported : s.reported x = ((s.read key .changes).1.final?.map fun item =>
        (reader.label, WatchEvent.received item)).toList := by
      rw [reported, hact, Inventory.move?, moveReader?_eq, hr, Option.bind_some, hk]
      have hread := (s.reads key .changes).events
      cases (s.read key .changes).1.final? with
      | none => simp [hs₀]
      | some item => simp [note, hread]
    rw [hreported]
    cases (s.read key .changes).1.final? with
    | none => rfl
    | some item => simp
  · rfl

theorem handed?_eq_none (h : ∀ now number, s.mover? x ≠ some (now, .reader number)) (key : Nat) :
    s.handed? key x = none := by
  have hreader : s.readerOf? x = none := by
    rw [readerOf?]
    cases hm : s.mover? x with
    | none => rfl
    | some m =>
      obtain ⟨now, _ | number⟩ := m
      · rfl
      · exact absurd hm (h now number)
  rw [handed?, hreader, Option.bind_none]

/-! ## What a subscription gives is what its readers get -/

/-- A reader finds in what it reads what the subscription gives, and only reading gives anything. -/
structure Tells {β : Type} (told : StreamItem → Option β)
    (out : Subscription → Subscription.Act → Option β) : Prop where
  begin : ∀ p now fetch, out p (.begin now fetch) = none
  move : ∀ p now, out p (.move now) = none
  ended : told .ended = none
  pending : told .pending = none
  read : ∀ {s s' : Inventory} {k : Nat} {kind : StreamKind} {item : StreamItem} {p : Subscription},
    Reads s k kind item s' → s.poller? k = some p → told item = out p kind.reading

/-- What is read is what the subscription gives. -/
theorem Reads.told {kind : StreamKind} {item : StreamItem} (h : s.Reads k kind item s')
    (hp : s.poller? k = some p) :
    item.change? = p.delivered kind.reading ∧ item.error? = p.tells kind.reading := by
  have hnothing : p.Drained kind →
      none = p.delivered kind.reading ∧ none = p.tells kind.reading := fun hd =>
    ⟨hd.delivered_reading.symm, hd.tells_reading.symm⟩
  cases h with
  | @change q delta rest hq hc =>
    rw [hp] at hq
    cases hq
    simp [StreamItem.change?, StreamItem.error?, StreamKind.reading, Subscription.delivered,
      Subscription.tells, Subscription.readChange, hc]
  | @error q e rest hq he =>
    rw [hp] at hq
    cases hq
    simp [StreamItem.change?, StreamItem.error?, StreamKind.reading, Subscription.delivered,
      Subscription.tells, Subscription.readError, he]
  | pending hq hd =>
    rw [hp] at hq
    cases hq
    exact hnothing hd
  | ended hended => exact hnothing (hended p hp).1

theorem tells_changes : Tells StreamItem.change? Subscription.delivered :=
  ⟨fun _ _ _ => rfl, fun _ _ => rfl, rfl, rfl, fun h hp => (h.told hp).1⟩

theorem tells_errors : Tells StreamItem.error? Subscription.tells :=
  ⟨fun _ _ _ => rfl, fun _ _ => rfl, rfl, rfl, fun h hp => (h.told hp).2⟩

namespace Tells

variable {β : Type} {told : StreamItem → Option β}
  {out : Subscription → Subscription.Act → Option β}

theorem read_eq (h : Tells told out) (s : Inventory) (key : Nat) (kind : StreamKind) :
    told (s.read key kind).1 = (s.poller? key).bind fun p => out p kind.reading := by
  cases hp : s.poller? key with
  | none =>
    simp only [Inventory.read, hp]
    exact h.ended
  | some p => exact h.read (s.reads key kind) hp

/-- What is handed to a reader is what it has read: who finds nothing is told nothing. -/
theorem final?_bind (h : Tells told out) (item : StreamItem) :
    item.final?.bind told = told item := by
  cases item with
  | pending => exact h.pending.symm
  | change | error | ended => rfl

/-- Of those who go on only readers are handed anything. -/
theorem handed?_bind (h : Tells told out) {now : Nat} {watcher : Watcher} {x : Act}
    (hx : s.mover? x = some (now, watcher)) (key : Nat) :
    ((s.handed? key x).map (·.2)).bind told =
      (s.poller? key).bind fun p => (s.doneBy? key now watcher).bind (out p) := by
  cases watcher with
  | poller k =>
    have hturn : ∀ p, out p (s.turnOf now p) = none := fun p => by
      unfold turnOf
      split
      · exact h.begin p now _
      · exact h.move p now
    rw [handed?_eq_none (fun now number => by rw [hx]; nofun), Option.map_none, Option.bind_none]
    cases hp : s.poller? key with
    | none => rfl
    | some p =>
      rw [Option.bind_some, doneBy?]
      split
      · rw [hp, Option.map_some, Option.bind_some, hturn]
      · rfl
  | reader number =>
    rw [doneBy?]
    cases hr : s.readers.find? (·.number = number) with
    | none => simp [handed?, readerOf?, hx, hr]
    | some reader =>
      rw [handed?_eq hx hr, Option.bind_some]
      split
      · rw [Option.map_map, Function.comp_def, Option.map_id', h.final?_bind]
        exact h.read_eq s key .changes
      · simp

theorem answer?_bind (h : Tells told out) (s : Inventory) (key : Nat) (x : Act) :
    (s.answer? key x).bind told = s.gives out key x := by
  cases x with
  | read k kind =>
    rw [answer?, gives, done?]
    split
    · rename_i hk
      subst hk
      exact h.read_eq s k kind
    · simp
  | turn now =>
    simp only [answer?, gives, done?]
    cases hx : s.mover? (.turn now) with
    | none => simp [handed?, readerOf?, hx]
    | some m => exact h.handed?_bind hx key
  | move now watcher => exact h.handed?_bind rfl key
  | _ => simp [answer?, handed?, readerOf?, gives, done?, mover?]

theorem outputs_eq_given (h : Tells told out) (s : Inventory) (key : Nat) (xs : List Act) :
    Run.outputs act (fun s x => (s.answer? key x).bind told) s xs = s.given out key xs :=
  congrArg (Run.outputs act · s xs) (funext fun s => funext fun x => h.answer?_bind s key x)

end Tells

theorem taken_eq_given (s : Inventory) (key : Nat) (xs : List Act) :
    s.taken key xs = s.given Subscription.delivered key xs :=
  tells_changes.outputs_eq_given s key xs

theorem heard_eq_given (s : Inventory) (key : Nat) (xs : List Act) :
    s.heard key xs = s.given Subscription.tells key xs :=
  tells_errors.outputs_eq_given s key xs

end Inventory

end SystemdControl
