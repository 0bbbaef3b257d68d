import SystemdControl.Proofs.Watch.Listing
import SystemdControl.Proofs.Watch.Settling

/-!
# Pollers do not oversleep

A poller that can go on is on the agenda: it was roused by whatever made it able to, a reader that
made room, a cancellation, or the alarm. So when all have to wait, no poller can go on before time
does.

* `Subscription.canMove_later`: what time alone can do is announced by `Subscription.alarm?`;
* `Inventory.Rouses` is what a change does to those who can go on, and `Inventory.Alert` says that
  nobody of them is missing from the agenda;
* `Inventory.Still` is an inventory in which all have to wait; to settle it once more changes
  nothing (`Inventory.Still.settle`).
-/

namespace SystemdControl

/-! ## Who can go on -/

namespace Subscription

variable {p p' : Subscription} {now later : Nat}

/-- A poller waits for the clock, for room or for nothing, and does not wait if it is cancelled. -/
theorem canMove_eq (p : Subscription) (now : Nat) : p.canMove now =
    match p.phase with
    | .due => true
    | .fetching fetch => decide (fetch.ready ≤ now) || p.cancelled
    | .publishing .. => decide (p.changes.length < p.size) || p.cancelled
    | .resting => decide (p.alarm ≤ now) || p.cancelled
    | .ended => false := by
  have hend : p.endIfCancelled.isSome = p.cancelled := by
    unfold endIfCancelled
    cases p.cancelled <;> rfl
  unfold canMove wantsFetch move?
  cases p.phase with
  | due =>
    show (!p.cancelled || p.endIfCancelled.isSome) = true
    rw [hend, Bool.not_or_self]
  | fetching | publishing | resting =>
    simp only [Bool.false_or]
    split <;> simp [*]
  | ended => rfl

/-- Only who waits for room minds how much is unread. -/
theorem canMove_congr (hphase : p'.phase = p.phase) (hc : p'.cancelled = p.cancelled)
    (halarm : p'.alarm = p.alarm)
    (hroom : p.isPublishing = true → p'.changes.length = p.changes.length ∧ p'.size = p.size) :
    p'.canMove now = p.canMove now := by
  rw [canMove_eq, canMove_eq, hphase, hc, halarm]
  cases hp : p.phase with
  | publishing delta current =>
    obtain ⟨hlen, hsize⟩ := hroom (by rw [isPublishing, hp])
    simp only [hlen, hsize]
  | _ => rfl

/-- Only what a poller waits for by the clock makes it able to go on as time goes on. -/
theorem canMove_later (h : p.canMove later = true) :
    p.canMove now = true ∨ p.alarm?.any (· ≤ later) = true := by
  rw [canMove_eq] at h ⊢
  unfold alarm?
  cases hp : p.phase with
  | fetching | resting =>
    simp only [hp, Bool.or_eq_true, decide_eq_true_eq, Option.any_some] at h ⊢
    exact h.symm.imp_left .inr
  | due | publishing | ended =>
    rw [hp] at h
    exact .inl h

/-- Whoever's alarm has gone off can go on. -/
theorem canMove_of_alarm? (h : p.alarm?.any (· ≤ now) = true) : p.canMove now = true := by
  rw [canMove_eq]
  unfold alarm? at h
  cases hp : p.phase <;> simp_all

end Subscription

namespace Inventory

variable {s s' : Inventory} {k now later : Nat} {p : Subscription}

/-- Whoever can go on now and could not before is on the agenda, and nobody has left it. -/
structure Rouses (now : Nat) (s s' : Inventory) : Prop where
  agenda : ∀ w ∈ s.agenda.toList, w ∈ s'.agenda.toList
  pollers : ∀ k p', s'.poller? k = some p' → p'.canMove now = true →
    .poller k ∈ s'.agenda.toList ∨ ∃ p, s.poller? k = some p ∧ p.canMove now = true

namespace Rouses

@[refl] theorem refl (s : Inventory) : Rouses now s s :=
  ⟨fun _ h => h, fun _ p' hp hm => .inr ⟨p', hp, hm⟩⟩

theorem trans {s'' : Inventory} (h : Rouses now s s') (h' : Rouses now s' s'') :
    Rouses now s s'' := by
  refine ⟨fun w hw => h'.agenda w (h.agenda w hw), fun k p'' hp hm => ?_⟩
  obtain hk | ⟨p', hp', hm'⟩ := h'.pollers k p'' hp hm
  · exact .inl hk
  · exact (h.pollers k p' hp' hm').imp_left (h'.agenda _)

/-- It is enough that the pollers are the same. -/
theorem of_pollers (hp : s'.pollers = s.pollers)
    (ha : ∀ w ∈ s.agenda.toList, w ∈ s'.agenda.toList) : Rouses now s s' :=
  ⟨ha, fun k p' hp' hm => .inr ⟨p', (poller?_congr hp k).symm.trans hp', hm⟩⟩

theorem stir (h : Stirs s s') : Rouses now s s' :=
  of_pollers h.pollers h.agenda

/-- A poller changes, and is roused if it can go on now and could not before. -/
theorem put {p' : Subscription} (hp : s.poller? k = some p) (h : Stirs (s.putPoller k p') s')
    (hm : p'.canMove now = true → .poller k ∈ s'.agenda.toList ∨ p.canMove now = true) :
    Rouses now s s' := by
  refine ⟨fun w hw => h.agenda w hw, fun j q hq hmove => ?_⟩
  rw [h.poller?_eq, poller?_putPoller] at hq
  split at hq
  · rename_i hj
    rw [hp, Option.map_some, Option.some.injEq] at hq
    subst hq hj
    exact (hm hmove).imp_right fun hm => ⟨p, hp, hm⟩
  · exact .inr ⟨q, hq, hmove⟩

theorem cancel (s : Inventory) (k : Nat) : Rouses now s (s.cancel k) := by
  unfold Inventory.cancel
  split
  · exact .refl s
  · rename_i p hp
    exact put hp (.rouse _ _) fun _ => .inl (Agenda.mem_rouse.2 (.inr rfl))

theorem cancelIfUnwanted (s : Inventory) (k : Nat) : Rouses now s (s.cancelIfUnwanted k) := by
  unfold Inventory.cancelIfUnwanted
  split
  · exact .refl s
  · exact cancel s k

theorem leaveLine (s : Inventory) (reader : Reader) : Rouses now s (s.leaveLine reader) := by
  have herase : Rouses now s { s with readers := s.readers.erase reader } :=
    of_pollers rfl fun _ hw => hw
  refine .trans ?_ (cancelIfUnwanted _ _)
  split
  · exact herase.trans (stir (.callReader _ _))
  · exact herase

/-- Whoever takes changes rouses the poller that waits for room. -/
theorem reads {kind : StreamKind} {item : StreamItem} (h : s.Reads k kind item s') :
    Rouses now s s' := by
  cases h with
  | @change p delta rest hp hc =>
    cases hroom : p.isPublishing with
    | true =>
      rw [if_pos rfl]
      exact put hp (.rouse _ _) fun _ => .inl (Agenda.mem_rouse.2 (.inr rfl))
    | false =>
      rw [if_neg Bool.false_ne_true]
      have hsame : ({ p with changes := rest } : Subscription).canMove now = p.canMove now :=
        Subscription.canMove_congr rfl rfl rfl fun h => absurd h (by simp [hroom])
      exact put hp (.refl _) fun hm => .inr (hsame.symm.trans hm)
  | @error p e rest hp he =>
    have hsame : ({ p with errors := rest } : Subscription).canMove now = p.canMove now :=
      Subscription.canMove_congr rfl rfl rfl fun _ => ⟨rfl, rfl⟩
    exact put hp (.refl _) fun hm => .inr (hsame.symm.trans hm)
  | pending | ended => exact .refl s

theorem enrol (s : Inventory) (label : String) (p : Subscription) :
    Rouses now s (s.enrol label p) := by
  refine ⟨fun w hw => Agenda.mem_rouse.2 (.inl hw), fun j q hq hm => ?_⟩
  rw [poller?_enrol, Option.or_eq_some_iff] at hq
  rcases hq with hq | ⟨-, hq⟩
  · exact .inr ⟨q, hq, hm⟩
  · split at hq
    · rename_i hj
      exact .inl (Agenda.mem_rouse.2 (.inr (congrArg Watcher.poller hj.symm)))
    · cases hq

/-- Whoever moves while it is on the agenda stays there. -/
theorem move? {watcher : Watcher} (hw : watcher ∈ s.agenda.toList)
    (hm : s.move? now watcher = some s') : Rouses now s s' := by
  cases watcher with
  | poller k =>
    cases pollerMoves hm with
    | begin hp hwants =>
      have hfetch : Stirs s (s.fetch now).2 := .fetch s now
      refine (stir hfetch).trans (put ((hfetch.poller?_eq k).trans hp) (.refl _) fun _ => .inl ?_)
      exact hfetch.agenda _ hw
    | @move p p' hp hwants hmove =>
      have hput : Rouses now s (s.putPoller k p') := put hp (.refl _) fun _ => .inl hw
      have hends : ∀ t : Inventory, Rouses now t (if p'.hasEnded then t.callReaders k else t) :=
        fun t => by
          split
          · exact stir (.callReaders _ _)
          · exact .refl _
      refine hput.trans (.trans ?_ (hends _))
      split
      · exact stir (.callReader _ _)
      · exact .refl _
  | reader number =>
    obtain ⟨reader, item, s₁, -, hreads, -, rfl⟩ := moveReader?_eq_some hm
    exact ((reads hreads).trans (leaveLine s₁ reader)).trans (of_pollers rfl fun _ h => h)

end Rouses

/-! ## Nobody oversleeps -/

/-- Every poller that can go on is on the agenda. -/
def Alert (now : Nat) (s : Inventory) : Prop :=
  ∀ k p, s.poller? k = some p → p.canMove now = true → .poller k ∈ s.agenda.toList

/-- Whether an act is a call, or a report. -/
def Act.isCall : Act → Bool
  | .alarm _ | .turn _ | .move .. => false
  | _ => true

/-- Callers rouse those who can go on by what they do. -/
theorem rouses_act {x : Act} (hx : x.isCall = true) (now : Nat) (s : Inventory) :
    Rouses now s (s.act x) := by
  cases x with
  | addScript | openStream | clear => exact .of_pollers rfl fun _ hw => hw
  | list moment label =>
    exact (Rouses.stir (.fetch s moment)).trans (.of_pollers rfl fun _ hw => hw)
  | subscribe label o =>
    cases ho : Subscription.open? o with
    | error e => rw [act_subscribe_of_error ho]
    | ok p =>
      rw [act_subscribe ho]
      cases s.held.get? label with
      | none => exact .enrol s label p
      | some old => exact (Rouses.enrol s label p).trans (.cancelIfUnwanted _ _)
  | read key kind => exact .reads (s.reads key kind)
  | await label key => exact .of_pollers rfl fun _ hw => Agenda.mem_rouse.2 (.inl hw)
  | cancel key => exact .cancel s key
  | dropHeld label =>
    show Rouses now s (s.dropHeld label).2
    unfold dropHeld
    split
    · exact .refl s
    · have hremove : Rouses now s { s with held := s.held.remove label } :=
        .of_pollers rfl fun _ hw => hw
      exact hremove.trans (.cancelIfUnwanted _ _)
  | dropTask label =>
    show Rouses now s ((s.dropTask? label).getD s)
    unfold dropTask?
    split
    · exact .of_pollers rfl fun _ hw => hw
    · cases s.readers.find? (·.label = label) with
      | none => exact .refl s
      | some reader => exact .leaveLine s reader
  | alarm | turn | move => cases hx

namespace Alert

theorem empty (now : Nat) : Alert now {} := fun k p hp => by cases hp

theorem rouses (h : s.Alert now) (hs : Rouses now s s') : s'.Alert now := fun k p hp hm =>
  (hs.pollers k p hp hm).elim id fun ⟨q, hq, hmq⟩ => hs.agenda _ (h k q hq hmq)

/-- The alarm rouses those whose time has come. -/
theorem alarm (h : s.Alert now) (later : Nat) : (s.alarm later).Alert later := by
  intro k p hp hm
  rw [(Stirs.alarm s later).poller?_eq] at hp
  refine Agenda.mem_rouseAll.2 ((Subscription.canMove_later hm).imp (h k p hp) fun hring => ?_)
  obtain ⟨e, he, rfl⟩ := Option.map_eq_some_iff.1 hp
  have hk : e.1 = k := by simpa using List.find?_some he
  refine List.mem_map.2 ⟨e, List.mem_filter.2 ⟨List.mem_of_find?_eq_some he, hring⟩, ?_⟩
  rw [hk]

/-- Whoever's turn is over cannot go on. -/
theorem pause (h : s.Alert now) {watcher : Watcher} (hnext : s.agenda.next? = some watcher)
    (hm : s.move? now watcher = none) : (s.pause watcher).Alert now := by
  intro k p hp hmove
  rw [poller?_pause] at hp
  have hmem := h k p hp hmove
  rw [Agenda.toList_eq_cons hnext, List.mem_cons] at hmem
  rw [agenda_pause]
  refine hmem.resolve_left fun he => ?_
  subst he
  rw [move?, movePoller?_eq hp] at hm
  split at hm
  · cases hm
  · rename_i hw
    rw [Option.map_eq_none_iff] at hm
    simp [Subscription.canMove, hw, hm] at hmove

theorem turn (h : s.Alert now) : (s.act (.turn now)).Alert now := by
  rw [act, step?]
  cases hnext : s.agenda.next? with
  | none => exact h
  | some watcher =>
    rw [Option.map_some, Option.getD_some]
    cases hm : s.move? now watcher with
    | none => exact h.pause hnext hm
    | some s' =>
      refine h.rouses (.move? ?_ hm)
      rw [Agenda.toList_eq_cons hnext]
      exact List.mem_cons_self

theorem turns (h : s.Alert now) (n : Nat) :
    (s.after (List.replicate n (.turn now))).Alert now := by
  induction n generalizing s with
  | zero => exact h
  | succ n ih => exact ih h.turn

theorem settle (h : s.Alert now) (later : Nat) : (s.settle later).Alert later := by
  rw [settle_eq_goingOn]
  exact (h.alarm later).turns _

end Alert

/-! ## When all have to wait -/

/-- An inventory in which all have to wait until time goes on, or a caller does something. -/
structure Still (now : Nat) (s : Inventory) : Prop where
  numbered : s.Numbered
  alert : s.Alert now
  idle : s.agenda.toList = []
  listing : ∀ e ∈ s.listing, now < e.2.ready

theorem settle_still (hn : s.Numbered) (h : s.Alert now) (later : Nat) :
    (s.settle later).Still later where
  numbered := settle_eq_goingOn later s ▸ hn.after _
  alert := h.settle later
  idle := (Agenda.next?_eq_none_iff _).1 (next?_settle hn later)
  listing e he := by
    rw [listing_settle, List.mem_filter] at he
    simpa using he.2

namespace Still

theorem canMove (h : s.Still now) (hp : s.poller? k = some p) : p.canMove now = false := by
  by_contra hm
  have hmem := h.alert k p hp (by simpa using hm)
  rw [h.idle] at hmem
  exact List.not_mem_nil hmem

theorem alarm (h : s.Still now) : s.alarm now = s := by
  have hring : s.pollers.filter (fun e => e.2.alarm?.any (· ≤ now)) = [] := by
    refine List.filter_eq_nil_iff.2 fun e he hring => ?_
    have hmove := Subscription.canMove_of_alarm? hring
    rw [h.canMove (poller?_of_mem h.numbered.keys he)] at hmove
    cases hmove
  have hwait : s.listing.filter (fun e => e.2.ready ≤ now) = [] :=
    List.filter_eq_nil_iff.2 fun e he hready =>
      absurd (h.listing e he) (Nat.not_lt.2 (by simpa using hready))
  have hleft : s.listing.filter (fun e => !decide (e.2.ready ≤ now)) = s.listing :=
    List.filter_eq_self.2 fun e he => by simpa using h.listing e he
  unfold Inventory.alarm
  rw [List.partition_eq_filter_filter]
  simp only [Function.comp_def, hring, hwait, hleft, List.map_nil, List.append_nil]
  rfl

theorem step? (h : s.Still now) (later : Nat) : s.step? later = none := by
  rw [Inventory.step?, (Agenda.next?_eq_none_iff _).2 h.idle, Option.map_none]

/-- To settle once more at the same moment changes nothing. -/
theorem settle (h : s.Still now) : s.settle now = s := by
  have hsteps : ∀ n, steps now n s = s := fun n => by
    cases n with
    | zero => rfl
    | succ n => rw [steps, h.step?]
  rw [Inventory.settle, h.alarm, hsteps]

end Still

end Inventory

end SystemdControl
