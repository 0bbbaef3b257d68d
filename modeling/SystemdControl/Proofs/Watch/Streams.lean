import SystemdControl.Proofs.Run
import SystemdControl.Proofs.Watch.Replay

/-!
# The two streams of a subscription

What goes into the streams of a subscription, what comes out of them and what is in them, over any
run of acts.

* `Subscription.given` is what the acts of a run give: the fetches that start, the changes that are
  computed, published and read, the failures that are kept and read;
* `Subscription.Moves` is what a move of the poller can do;
* `Subscription.changes_append_given` and `Subscription.errors_append_given`: each stream hands out
  what goes in, in order, and `Subscription.Fits`: never is more unread than there is room for.
-/

namespace SystemdControl.Subscription

variable {p p' : Subscription} {now : Nat}

/-! ## What an act gives -/

/-- The fetch that starts in an act. -/
def starts (p : Subscription) : Act → Option Fetch
  | .begin _ fetch => if p.wantsFetch then some fetch else none
  | _ => none

/-- The changes that the poller computes in an act: from what it published last to the list that it
takes up. -/
def computes (p : Subscription) (x : Act) : Option UnitDelta :=
  (p.listed x).map fun units => .between p.equal p.baseline (.ofUnits units)

/-- The changes that enter the stream in an act. -/
def publishes (p : Subscription) : Act → Option UnitDelta
  | .move _ =>
    match p.phase with
    | .publishing delta _ => if p.changes.length < p.size then some delta else none
    | _ => none
  | _ => none

/-- The failure of a fetch that the poller takes up in an act. -/
def fails (p : Subscription) (x : Act) : Option Error :=
  (p.received x).bind fun
    | .ok _ => none
    | .error e => some e

/-- The failure that enters the stream of errors in an act: what there is then behind the errors that
were unread. -/
def keeps (p : Subscription) (x : Act) : Option Error :=
  ((p.act x).errors.drop p.errors.length).head?

/-- The error that a reader gets in an act. -/
def tells (p : Subscription) : Act → Option Error
  | .readError =>
    match p.readError.1 with
    | .item e => some e
    | _ => none
  | _ => none

/-- What the acts of a run give. -/
def given {β : Type} (out : Subscription → Act → Option β) (p : Subscription) (xs : List Act) :
    List β :=
  Run.outputs act out p xs

@[simp] theorem after_nil (p : Subscription) : p.after [] = p := rfl

@[simp] theorem after_cons (p : Subscription) (x : Act) (xs : List Act) :
    p.after (x :: xs) = (p.act x).after xs := rfl

@[simp] theorem given_nil {β : Type} (out : Subscription → Act → Option β) (p : Subscription) :
    p.given out [] = [] := rfl

@[simp] theorem given_cons {β : Type} (out : Subscription → Act → Option β) (p : Subscription)
    (x : Act) (xs : List Act) :
    p.given out (x :: xs) = (out p x).toList ++ (p.act x).given out xs := rfl

/-- The changes that the poller has computed and could not publish yet. -/
def unpublished (p : Subscription) : List UnitDelta :=
  match p.phase with
  | .publishing delta _ => [delta]
  | _ => []

/-! ## Moves -/

/-- What a move of the poller can do, with the answer that it takes up and the changes that it
publishes. -/
inductive Moves (p : Subscription) (now : Nat) :
    Option (Except Error (List UnitStatus)) → Option UnitDelta → Subscription → Prop where
  | stay (hm : p.move? now = none) : Moves p now none none p
  | receive {fetch : Fetch} (hp : p.phase = .fetching fetch) (hready : fetch.ready ≤ now) :
      Moves p now (some fetch.result) none (p.receive fetch.result)
  | publish {delta : UnitDelta} {current : Snapshot} (hp : p.phase = .publishing delta current)
      (hroom : p.changes.length < p.size) :
      Moves p now none (some delta)
        { p with phase := .resting, changes := p.changes ++ [delta], baseline := current }
  | wake (hp : p.phase = .resting) (halarm : p.alarm ≤ now) :
      Moves p now none none { p with phase := .due }
  | stop (hc : p.cancelled = true) (hp : p.phase ≠ .ended) :
      Moves p now none none { p with phase := .ended }

theorem moves (p : Subscription) (now : Nat) :
    p.Moves now (p.received (.move now)) (p.publishes (.move now)) (p.act (.move now)) := by
  have hwait : p.phase ≠ .ended → p.move? now = p.endIfCancelled →
      p.Moves now none none (p.act (.move now)) := fun hp hm => by
    unfold endIfCancelled at hm
    rw [act, hm]
    split at hm
    · rename_i hc
      rw [if_pos hc]
      exact .stop hc hp
    · rename_i hc
      rw [if_neg hc]
      exact .stay hm
  cases hp : p.phase with
  | due =>
    simp only [received, publishes, hp]
    exact hwait (by simp [hp]) (by simp only [move?, hp])
  | fetching fetch =>
    simp only [received, publishes, hp]
    split
    · rename_i hready
      simp only [act, move?, hp, if_pos hready]
      exact .receive hp hready
    · rename_i hready
      exact hwait (by simp [hp]) (by simp only [move?, hp, if_neg hready])
  | publishing delta current =>
    simp only [received, publishes, hp]
    split
    · rename_i hroom
      simp only [act, move?, hp, if_pos hroom]
      exact .publish hp hroom
    · rename_i hroom
      exact hwait (by simp [hp]) (by simp only [move?, hp, if_neg hroom])
  | resting =>
    simp only [received, publishes, hp]
    by_cases halarm : p.alarm ≤ now
    · simp only [act, move?, hp, if_pos halarm]
      exact .wake hp halarm
    · exact hwait (by simp [hp]) (by simp only [move?, hp, if_neg halarm])
  | ended =>
    simp only [act, move?, received, publishes, hp]
    exact .stay (by simp only [move?, hp])

theorem moves_of_move? (h : p.move? now = some p') :
    p.Moves now (p.received (.move now)) (p.publishes (.move now)) p' := by
  have hm := p.moves now
  rwa [act, h, Option.getD_some] at hm

theorem phase_of_wantsFetch (hw : p.wantsFetch = true) : p.phase = .due := by
  unfold wantsFetch at hw
  split at hw
  · assumption
  · cases hw

/-- A cancelled poller can go on until it has ended. -/
theorem isSome_move?_of_cancelled (hc : p.cancelled = true) (hp : p.phase ≠ .ended) (now : Nat) :
    (p.move? now).isSome = true := by
  have hend : p.endIfCancelled.isSome = true := by rw [endIfCancelled, if_pos hc]; rfl
  unfold move?
  split
  · exact hend
  · split
    · rfl
    · exact hend
  · split
    · rfl
    · exact hend
  · split
    · rfl
    · exact hend
  · rename_i h
    exact absurd h hp

/-! ## What no act changes -/

/-- A new subscription has done nothing yet. -/
theorem eq_of_open? {o : SubscribeOptions} (h : open? o = .ok p) :
    ∃ hpos : 0 < o.interval.toNanos, p =
      { interval := o.interval.toNanos, interval_pos := hpos, buffer := o.buffer,
        equal := o.equal } := by
  unfold open? at h
  split at h
  · rename_i hpos
    cases h
    exact ⟨hpos, rfl⟩
  · cases h

@[simp] theorem changes_receive (result : Except Error (List UnitStatus)) :
    (p.receive result).changes = p.changes := by
  cases result <;> rfl

@[simp] theorem cancelled_receive (result : Except Error (List UnitStatus)) :
    (p.receive result).cancelled = p.cancelled := by
  cases result <;> rfl

@[simp] theorem buffer_receive (result : Except Error (List UnitStatus)) :
    (p.receive result).buffer = p.buffer := by
  cases result <;> rfl

theorem phase_readChange (p : Subscription) : p.readChange.2.phase = p.phase := by
  unfold readChange
  split <;> rfl

theorem cancelled_readChange (p : Subscription) : p.readChange.2.cancelled = p.cancelled := by
  unfold readChange
  split <;> rfl

theorem phase_readError (p : Subscription) : p.readError.2.phase = p.phase := by
  unfold readError
  split <;> rfl

theorem cancelled_readError (p : Subscription) : p.readError.2.cancelled = p.cancelled := by
  unfold readError
  split <;> rfl

@[simp] theorem buffer_act (p : Subscription) (x : Act) : (p.act x).buffer = p.buffer := by
  cases x with
  | begin now fetch =>
    rw [act]
    split <;> rfl
  | move now =>
    have h := p.moves now
    generalize p.received (.move now) = r, p.publishes (.move now) = o,
      p.act (.move now) = p' at h ⊢
    cases h with
    | receive => exact buffer_receive _
    | stay | publish | wake | stop => rfl
  | readChange =>
    simp only [act, readChange]
    split <;> rfl
  | readError =>
    simp only [act, readError]
    split <;> rfl
  | cancel => rfl

@[simp] theorem size_act (p : Subscription) (x : Act) : (p.act x).size = p.size := by
  rw [size, size, buffer_act]

theorem buffer_after (p : Subscription) (xs : List Act) : (p.after xs).buffer = p.buffer := by
  induction xs generalizing p with
  | nil => rfl
  | cons x xs ih => exact (ih _).trans (p.buffer_act x)

/-! ## What goes in and what comes out -/

theorem changes_append_publishes (p : Subscription) (x : Act) :
    p.changes ++ (p.publishes x).toList = (p.delivered x).toList ++ (p.act x).changes := by
  cases x with
  | begin now fetch =>
    simp only [publishes, delivered, act]
    split <;> simp [begin]
  | move now =>
    have h := p.moves now
    simp only [delivered, Option.toList_none, List.nil_append]
    generalize p.received (.move now) = r, p.publishes (.move now) = o,
      p.act (.move now) = p' at h ⊢
    cases h <;> simp
  | readChange =>
    cases hc : p.changes with
    | nil => cases he : p.hasEnded <;> simp [publishes, delivered, act, readChange, hc, he]
    | cons delta rest => simp [publishes, delivered, act, readChange, hc]
  | readError =>
    simp only [publishes, delivered, act, readError]
    split <;> simp
  | cancel => simp [publishes, delivered, act, cancel]

/-- A failure enters the stream if there is room for it, and nothing else does. -/
theorem keeps_eq (p : Subscription) (x : Act) :
    p.keeps x = (p.fails x).filter fun _ => p.errors.length < p.size := by
  have hnothing : (p.act x).errors.length ≤ p.errors.length → p.keeps x = none := fun h => by
    rw [keeps, List.drop_of_length_le h, List.head?_nil]
  cases x with
  | begin now fetch =>
    refine hnothing (Nat.le_of_eq ?_)
    rw [act]
    split <;> rfl
  | move now =>
    have h := p.moves now
    simp only [keeps, fails]
    generalize p.received (.move now) = r, p.publishes (.move now) = o,
      p.act (.move now) = p' at h ⊢
    cases h with
    | @receive fetch hp =>
      cases fetch.result with
      | ok units => simp [receive]
      | error e =>
        simp only [receive, Option.bind_some, Option.filter_some, decide_eq_true_eq]
        split <;> simp
    | stay | publish | wake | stop => simp
  | readChange =>
    refine hnothing (Nat.le_of_eq ?_)
    simp only [act, readChange]
    split <;> rfl
  | readError =>
    refine hnothing ?_
    simp only [act, readError]
    split <;> simp [*]
  | cancel => exact hnothing (Nat.le_refl _)

theorem keeps_cancel (p : Subscription) : p.keeps .cancel = none := by
  simp only [keeps_eq, fails, received, Option.bind_none, Option.filter_none]

theorem errors_append_keeps (p : Subscription) (x : Act) :
    p.errors ++ (p.keeps x).toList = (p.tells x).toList ++ (p.act x).errors := by
  cases x with
  | begin now fetch =>
    simp only [keeps_eq, fails, received, tells, act]
    split <;> simp [begin]
  | move now =>
    have h := p.moves now
    simp only [keeps_eq, fails, tells, Option.toList_none, List.nil_append]
    generalize p.received (.move now) = r, p.publishes (.move now) = o,
      p.act (.move now) = p' at h ⊢
    cases h with
    | @receive fetch hp =>
      cases fetch.result with
      | ok units => simp [receive]
      | error e =>
        simp only [receive, Option.bind_some, Option.filter_some, decide_eq_true_eq]
        split <;> simp
    | stay | publish | wake | stop => simp
  | readChange =>
    simp only [keeps_eq, fails, received, tells, act, readChange]
    split <;> simp
  | readError =>
    cases he : p.errors with
    | nil => cases hp : p.hasEnded <;> simp [keeps_eq, fails, received, tells, act, readError, he, hp]
    | cons e rest => simp [keeps_eq, fails, received, tells, act, readError, he]
  | cancel => simp [keeps_eq, fails, received, tells, act, cancel]

/-- What readers get of the changes, with what is unread, is what was unread and is published. -/
theorem changes_append_given (p : Subscription) (xs : List Act) :
    p.changes ++ p.given publishes xs = p.given delivered xs ++ (p.after xs).changes :=
  Run.stock_append_outputs changes_append_publishes p xs

/-- What readers get of the errors, with what is unread, is what was unread and is kept. -/
theorem errors_append_given (p : Subscription) (xs : List Act) :
    p.errors ++ p.given keeps xs = p.given tells xs ++ (p.after xs).errors :=
  Run.stock_append_outputs errors_append_keeps p xs

/-- The failures that enter the stream are some of all failures, in order. -/
theorem given_keeps_sublist (p : Subscription) (xs : List Act) :
    (p.given keeps xs).Sublist (p.given fails xs) := by
  refine Run.outputs_sublist (fun p x => ?_) p xs
  rw [keeps_eq]
  cases p.fails x with
  | none => exact .slnil
  | some e =>
    rw [Option.filter_some]
    split
    · exact .refl _
    · exact List.nil_sublist _

/-! ## Room -/

/-- No more is unread than there is room for. -/
structure Fits (p : Subscription) : Prop where
  changes : p.changes.length ≤ p.size
  errors : p.errors.length ≤ p.size

namespace Fits

theorem act (h : p.Fits) (x : Act) : (p.act x).Fits := by
  obtain ⟨hchanges, herrors⟩ := h
  have hc := congrArg List.length (p.changes_append_publishes x)
  have he := congrArg List.length (p.errors_append_keeps x)
  simp only [List.length_append] at hc he
  refine ⟨?_, ?_⟩
  · rw [size_act]
    cases ho : p.publishes x with
    | none =>
      rw [ho, Option.toList_none, List.length_nil] at hc
      omega
    | some delta =>
      have hroom : p.changes.length < p.size := by
        unfold publishes at ho
        split at ho
        · split at ho
          · split at ho
            · assumption
            · cases ho
          · cases ho
        · cases ho
      rw [ho, Option.toList_some, List.length_singleton] at hc
      omega
  · rw [size_act]
    cases ho : p.keeps x with
    | none =>
      rw [ho, Option.toList_none, List.length_nil] at he
      omega
    | some e =>
      have hroom : p.errors.length < p.size := by
        have hfilter := ho
        rw [keeps_eq] at hfilter
        simpa using (Option.filter_eq_some_iff.1 hfilter).2
      rw [ho, Option.toList_some, List.length_singleton] at he
      omega

theorem after (h : p.Fits) (xs : List Act) : (p.after xs).Fits := by
  induction xs generalizing p with
  | nil => exact h
  | cons x xs ih => exact ih (h.act x)

theorem of_open? {o : SubscribeOptions} (h : open? o = .ok p) : p.Fits := by
  obtain ⟨-, rfl⟩ := eq_of_open? h
  exact ⟨Nat.zero_le _, Nat.zero_le _⟩

end Fits

end SystemdControl.Subscription
