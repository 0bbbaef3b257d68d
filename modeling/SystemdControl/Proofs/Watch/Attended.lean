import SystemdControl.Proofs.Watch.Changes

/-!
# Nobody is forgotten

Whoever can go on whatever the time is has its turn, and whatever nobody wants any more is
cancelled. Both hold at every moment, since every change of an inventory preserves them.

* `Inventory.Attended`: a cancelled poller that has not ended, and a reader of a poller that has,
  are on the agenda; so nobody of them is left when all have to wait;
* `Inventory.Adrift`: no subscription goes on that nobody holds and nobody waits for.
-/

namespace SystemdControl.Inventory

variable {s s' : Inventory} {k : Nat} {p : Subscription} {label : String}

/-! ## The agenda -/

/-- Someone can go on whatever the time is: a cancelled poller that has not ended, or a reader of
one that has. -/
def Needs (s : Inventory) : Watcher → Prop
  | .poller k => ∃ p, s.poller? k = some p ∧ p.cancelled = true ∧ p.hasEnded = false
  | .reader number => ∃ k p, (number, k) ∈ s.line ∧ s.poller? k = some p ∧ p.hasEnded = true

/-- Whoever can go on whatever the time is stands on the agenda. -/
def Attended (s : Inventory) : Prop :=
  ∀ w, s.Needs w → w ∈ s.agenda.toList

/-- Whoever can go on now and could not before is on the agenda, and nobody has left it. -/
structure Wakes (s s' : Inventory) : Prop where
  agenda : ∀ w ∈ s.agenda.toList, w ∈ s'.agenda.toList
  needs : ∀ w, s'.Needs w → w ∈ s'.agenda.toList ∨ s.Needs w

namespace Wakes

@[refl] theorem refl (s : Inventory) : Wakes s s :=
  ⟨fun _ h => h, fun _ h => .inr h⟩

theorem trans {s'' : Inventory} (h : Wakes s s') (h' : Wakes s' s'') : Wakes s s'' :=
  ⟨fun w hw => h'.agenda w (h.agenda w hw), fun w hw => (h'.needs w hw).elim .inl fun hw =>
    (h.needs w hw).imp_left (h'.agenda w)⟩

/-- It is enough that nobody new can go on. -/
theorem of_needs (ha : ∀ w ∈ s.agenda.toList, w ∈ s'.agenda.toList)
    (hn : ∀ w, s'.Needs w → s.Needs w) : Wakes s s' :=
  ⟨ha, fun w hw => .inr (hn w hw)⟩

theorem stir (h : Stirs s s') : Wakes s s' := by
  refine of_needs h.agenda fun w hw => ?_
  cases w with
  | poller k => exact hw.imp fun p hp => ⟨(h.poller?_eq k).symm.trans hp.1, hp.2⟩
  | reader number =>
    obtain ⟨k, p, hm, hp, he⟩ := hw
    exact ⟨k, p, h.line ▸ hm, (h.poller?_eq k).symm.trans hp, he⟩

/-- A poller changes, and whoever can go on now is on the agenda. -/
theorem put {p' : Subscription} (hp : s.poller? k = some p) (h : Stirs (s.putPoller k p') s')
    (hpoller : p'.cancelled = true → p'.hasEnded = false →
      .poller k ∈ s'.agenda.toList ∨ p.cancelled = true ∧ p.hasEnded = false)
    (hreader : p'.hasEnded = true → p.hasEnded = true ∨
      ∀ number, (number, k) ∈ s.line → .reader number ∈ s'.agenda.toList) : Wakes s s' := by
  have hlook : ∀ j q, s'.poller? j = some q → (j = k ∧ q = p') ∨ s.poller? j = some q :=
    fun j q hq => by
      rw [h.poller?_eq, poller?_putPoller] at hq
      split at hq
      · rename_i hj
        rw [hp, Option.map_some, Option.some.injEq] at hq
        exact .inl ⟨hj, hq.symm⟩
      · exact .inr hq
  refine ⟨fun w hw => h.agenda w hw, fun w hw => ?_⟩
  cases w with
  | poller j =>
    obtain ⟨q, hq, hc, he⟩ := hw
    rcases hlook j q hq with ⟨rfl, rfl⟩ | hq
    · exact (hpoller hc he).imp_right fun hp' => ⟨p, hp, hp'⟩
    · exact .inr ⟨q, hq, hc, he⟩
  | reader number =>
    obtain ⟨j, q, hm, hq, he⟩ := hw
    replace hm : (number, j) ∈ s.line := h.line ▸ hm
    rcases hlook j q hq with ⟨rfl, rfl⟩ | hq
    · exact (hreader he).elim (fun hp' => .inr ⟨j, p, hm, hp, hp'⟩) fun hall => .inl (hall _ hm)
    · exact .inr ⟨j, q, hm, hq, he⟩

theorem cancel (s : Inventory) (k : Nat) : Wakes s (s.cancel k) := by
  unfold Inventory.cancel
  split
  · exact .refl s
  · rename_i p hp
    exact put hp (.rouse _ _) (fun _ _ => .inl (Agenda.mem_rouse.2 (.inr rfl))) .inl

theorem cancelIfUnwanted (s : Inventory) (k : Nat) : Wakes s (s.cancelIfUnwanted k) := by
  unfold Inventory.cancelIfUnwanted
  split
  · exact .refl s
  · exact cancel s k

theorem enrol {o : SubscribeOptions} (ho : Subscription.open? o = .ok p) (s : Inventory)
    (label : String) : Wakes s (s.enrol label p) := by
  have hnew : p.cancelled = false ∧ p.hasEnded = false := by
    obtain ⟨-, rfl⟩ := Subscription.eq_of_open? ho
    exact ⟨rfl, rfl⟩
  have hlook : ∀ j q, (s.enrol label p).poller? j = some q → s.poller? j = some q ∨ q = p :=
    fun j q hq => by
      rw [poller?_enrol, Option.or_eq_some_iff] at hq
      refine hq.imp_right fun hq => ?_
      split at hq
      · exact (Option.some.inj hq.2).symm
      · cases hq.2
  refine of_needs (fun w hw => Agenda.mem_rouse.2 (.inl hw)) fun w hw => ?_
  cases w with
  | poller j =>
    obtain ⟨q, hq, hc, he⟩ := hw
    rcases hlook j q hq with hq | rfl
    · exact ⟨q, hq, hc, he⟩
    · rw [hnew.1] at hc
      cases hc
  | reader number =>
    obtain ⟨j, q, hm, hq, he⟩ := hw
    rcases hlook j q hq with hq | rfl
    · exact ⟨j, q, hm, hq, he⟩
    · rw [hnew.2] at he
      cases he

theorem change (h : Change s s') : Wakes s s' := by
  cases h with
  | stir h => exact .stir h
  | put hp hc he =>
    exact put hp (.refl _) (fun hc' he' => .inr ⟨hc ▸ hc', he ▸ he'⟩) fun he' => .inl (he ▸ he')
  | @stop k p p' hp hc he =>
    refine put hp (.callReaders _ _) (fun _ he' => by rw [he] at he'; cases he') fun _ => .inr ?_
    intro number hm
    obtain ⟨r, hr, he⟩ := List.mem_map.1 hm
    cases he
    refine Agenda.mem_rouseAll.2 (.inr (List.mem_map.2 ⟨r, ?_, rfl⟩))
    exact List.mem_filter.2 ⟨hr, by simp⟩
  | cancel k => exact cancel s k
  | @leave s₁ reader h =>
    have herase : Wakes s { s with readers := s.readers.erase reader } := by
      refine of_needs (fun _ hw => hw) fun w hw => ?_
      cases w with
      | poller k => exact hw
      | reader number =>
        obtain ⟨k, p, hm, hp, he⟩ := hw
        exact ⟨k, p, (List.erase_sublist.map _).subset hm, hp, he⟩
    exact (herase.trans (stir h)).trans (cancelIfUnwanted _ _)
  | @release label k h =>
    have hremove : Wakes s { s with held := s.held.remove label } :=
      of_needs (fun _ hw => hw) fun w hw => by cases w <;> exact hw
    exact hremove.trans (cancelIfUnwanted _ _)
  | @subscribe label o p ho =>
    rw [act_subscribe ho]
    cases s.held.get? label with
    | none => exact enrol ho s label
    | some old => exact (enrol ho s label).trans (cancelIfUnwanted _ _)
  | await label k =>
    refine ⟨fun w hw => Agenda.mem_rouse.2 (.inl hw), fun w hw => ?_⟩
    cases w with
    | poller j => exact .inr hw
    | reader number =>
      obtain ⟨j, p, hm, hp, he⟩ := hw
      have hline : (s.await label k).line = s.line ++ [(s.enrolled, k)] := List.map_append
      rw [hline, List.mem_append, List.mem_singleton] at hm
      refine hm.elim (fun hm => .inr ⟨j, p, hm, hp, he⟩) fun h => .inl ?_
      cases h
      exact Agenda.mem_rouse.2 (.inr rfl)

theorem changes (h : Changes s s') : Wakes s s' := by
  induction h with
  | refl => exact .refl s
  | tail _ h ih => exact ih.trans (change h)

end Wakes

/-- Whoever can go on whatever the time is makes a move when it is its turn. -/
theorem isSome_move?_of_needs (hn : s.Numbered) (now : Nat) {w : Watcher} (h : s.Needs w) :
    (s.move? now w).isSome = true := by
  cases w with
  | poller k =>
    obtain ⟨p, hp, hc, he⟩ := h
    have hw : p.wantsFetch = false := by
      unfold Subscription.wantsFetch
      split
      · simp [hc]
      · rfl
    have hm : (p.move? now).isSome = true :=
      Subscription.isSome_move?_of_cancelled hc
        (fun h => by rw [Subscription.hasEnded_iff.2 h] at he; cases he) now
    rw [move?, movePoller?_eq hp, hw, if_neg Bool.false_ne_true, Option.isSome_map]
    exact hm
  | reader number =>
    obtain ⟨k, p, hm, hp, he⟩ := h
    obtain ⟨r, hr, hrk⟩ := List.mem_map.1 hm
    cases hrk
    rw [move?, moveReader?, hn.find?_reader hr, Option.bind_some]
    have hreads := s.reads r.subscription .changes
    generalize s.read r.subscription .changes = x at hreads
    obtain ⟨item, s₁⟩ := x
    cases hreads with
    | change | ended => rfl
    | pending hq _ he' =>
      rw [hp] at hq
      cases hq
      rw [he] at he'
      cases he'

namespace Attended

theorem empty : Attended {} := fun w h => by
  cases w with
  | poller k => obtain ⟨p, hp, -⟩ := h; cases hp
  | reader number => obtain ⟨k, p, hm, -⟩ := h; cases hm

theorem wakes (h : s.Attended) (hs : Wakes s s') : s'.Attended := fun w hw =>
  (hs.needs w hw).elim id fun hw => hs.agenda w (h w hw)

theorem act (h : s.Attended) (hn : s.Numbered) (x : Act) : (s.act x).Attended := by
  rcases s.act_changes x with hs | ⟨now, watcher, hnext, hm, hs⟩
  · exact h.wakes (.changes hs)
  · intro w hw
    rw [hs] at hw ⊢
    have hw' : s.Needs w := by
      cases w with
      | poller k => exact hw.imp fun p hp => ⟨(poller?_pause s watcher k).symm.trans hp.1, hp.2⟩
      | reader number =>
        obtain ⟨k, p, hl, hp, he⟩ := hw
        exact ⟨k, p, (s.line_pause_perm watcher).mem_iff.1 hl,
          (poller?_pause s watcher k).symm.trans hp, he⟩
    have hne : w ≠ watcher := fun e => by
      have hsome := isSome_move?_of_needs hn now (e ▸ hw')
      rw [hm] at hsome
      cases hsome
    have hmem := h w hw'
    rw [Agenda.next?] at hnext
    rw [agenda_pause, Agenda.toList_dismiss]
    obtain ⟨rest, hrest⟩ := List.head?_eq_some_iff.1 hnext
    rw [hrest] at hmem ⊢
    exact (List.mem_cons.1 hmem).resolve_left hne

theorem after (h : s.Attended) (hn : s.Numbered) (xs : List Act) : (s.after xs).Attended := by
  induction xs generalizing s with
  | nil => exact h
  | cons x xs ih => exact ih (h.act hn x) (hn.act x)

end Attended

/-! ## Subscriptions that nobody wants -/

/-- A subscription goes on that nobody holds and nobody waits for. -/
def Adrift (s : Inventory) (k : Nat) : Prop :=
  (∃ p, s.poller? k = some p ∧ p.cancelled = false) ∧ s.isWanted k = false

theorem isWanted_iff (s : Inventory) (k : Nat) :
    s.isWanted k = true ↔ (∃ e ∈ s.held, e.2 = k) ∨ ∃ e ∈ s.line, e.2 = k := by
  simp [isWanted, line]

theorem Adrift.of_cancel {j : Nat} (h : (s.cancel k).Adrift j) : s.Adrift j ∧ j ≠ k := by
  obtain ⟨⟨p, hp, hc⟩, hw⟩ := h
  rw [poller?_cancel] at hp
  have hwanted : (s.cancel k).isWanted j = s.isWanted j := by
    unfold cancel
    split <;> rfl
  split at hp
  · obtain ⟨q, -, rfl⟩ := Option.map_eq_some_iff.1 hp
    cases hc
  · rename_i hj
    exact ⟨⟨⟨p, hp, hc⟩, hwanted ▸ hw⟩, hj⟩

/-- A subscription that nobody wants is not left alone. -/
theorem Adrift.of_cancelIfUnwanted {j : Nat} (h : (s.cancelIfUnwanted k).Adrift j) :
    s.Adrift j ∧ j ≠ k := by
  unfold cancelIfUnwanted at h
  split at h
  · rename_i hw
    exact ⟨h, fun e => by rw [e, Adrift, hw] at h; cases h.2⟩
  · exact h.of_cancel

/-- Whoever holds a subscription or waits for it keeps it from going adrift. -/
theorem Adrift.mono {j : Nat} (h : s'.Adrift j)
    (hp : ∀ p', s'.poller? j = some p' → p'.cancelled = false →
      ∃ p, s.poller? j = some p ∧ p.cancelled = false)
    (hh : ∀ e ∈ s.held, e.2 = j → e ∈ s'.held) (hl : ∀ e ∈ s.line, e.2 = j → e ∈ s'.line) :
    s.Adrift j := by
  obtain ⟨⟨p', hp', hc⟩, hw⟩ := h
  refine ⟨hp p' hp' hc, ?_⟩
  rw [← Bool.not_eq_true, isWanted_iff] at hw ⊢
  refine fun hj => hw (hj.imp ?_ ?_)
  · exact fun ⟨e, he, hej⟩ => ⟨e, hh e he hej, hej⟩
  · exact fun ⟨e, he, hej⟩ => ⟨e, hl e he hej, hej⟩

theorem Adrift.of_stir {j : Nat} (hs : Stirs s s') (h : s'.Adrift j) : s.Adrift j :=
  h.mono (fun p hp hc => ⟨p, (hs.poller?_eq j).symm.trans hp, hc⟩) (fun _ he _ => hs.held ▸ he)
    fun _ he _ => hs.line ▸ he

theorem Adrift.of_put {j : Nat} {p' : Subscription} (hp : s.poller? k = some p)
    (hc : p'.cancelled = p.cancelled) (h : (s.putPoller k p').Adrift j) : s.Adrift j := by
  refine h.mono (fun q hq hcq => ?_) (fun _ he _ => he) fun _ he _ => he
  rw [poller?_putPoller] at hq
  split at hq
  · rename_i hj
    rw [hp, Option.map_some, Option.some.injEq] at hq
    exact ⟨p, hj ▸ hp, by rw [← hc, hq, hcq]⟩
  · exact ⟨q, hq, hcq⟩

theorem Adrift.of_enrol {j : Nat} (h : (s.enrol label p).Adrift j)
    (hlabel : ∀ old, s.held.get? label = some old → j ≠ old) : s.Adrift j := by
  have hset : ∀ e, e ∈ (s.enrol label p).held ↔ e ∈ (label, s.opened) :: s.held.remove label :=
    fun e => (Labelled.set_perm s.held label s.opened).mem_iff
  have hj : s.opened ≠ j := fun e => by
    have hw : (s.enrol label p).isWanted j = true :=
      (isWanted_iff _ j).2 (.inl ⟨(label, s.opened), (hset _).2 List.mem_cons_self, e⟩)
    have hnot := h.2
    rw [hw] at hnot
    cases hnot
  refine h.mono (fun q hq hc => ?_) (fun e he hej => ?_) fun _ he _ => he
  · rw [poller?_enrol, if_neg hj, Option.or_none] at hq
    exact ⟨q, hq, hc⟩
  · refine (hset e).2 (List.mem_cons_of_mem _ ?_)
    cases hg : s.held.get? label with
    | none => rwa [Labelled.remove_of_get?_eq_none hg]
    | some old =>
      refine (List.mem_cons.1 ((Labelled.perm_of_get? hg).mem_iff.1 he)).resolve_left fun h' => ?_
      exact hlabel old hg (hej ▸ congrArg Prod.snd h')

/-- No change leaves a subscription alone that was not left alone before. -/
theorem Adrift.of_change {j : Nat} (hs : Change s s') (h : s'.Adrift j) : s.Adrift j := by
  cases hs with
  | stir hs => exact h.of_stir hs
  | put hp hc => exact h.of_put hp hc
  | stop hp hc => exact (h.of_stir (.callReaders _ _)).of_put hp hc
  | cancel k => exact h.of_cancel.1
  | @leave s₁ reader hs =>
    obtain ⟨h, hj⟩ := h.of_cancelIfUnwanted
    refine (h.of_stir hs).mono (fun p hp hc => ⟨p, hp, hc⟩) (fun _ he _ => he) fun e he hej => ?_
    obtain ⟨r, hr, rfl⟩ := List.mem_map.1 he
    have hne : r ≠ reader := fun h' => hj (h' ▸ hej.symm)
    exact List.mem_map_of_mem ((List.mem_erase_of_ne hne).2 hr)
  | @release label k hg =>
    obtain ⟨h, hj⟩ := h.of_cancelIfUnwanted
    refine h.mono (fun p hp hc => ⟨p, hp, hc⟩) (fun e he hej => ?_) fun _ he _ => he
    refine (List.mem_cons.1 ((Labelled.perm_of_get? hg).mem_iff.1 he)).resolve_left fun h' => ?_
    exact hj (hej ▸ congrArg Prod.snd h')
  | @subscribe label o p ho =>
    rw [act_subscribe ho] at h
    split at h
    · rename_i hg
      exact h.of_enrol fun old ho' => by rw [hg] at ho'; cases ho'
    · rename_i old hg
      obtain ⟨h, hj⟩ := h.of_cancelIfUnwanted
      exact h.of_enrol fun old' ho' => by rw [hg] at ho'; cases ho'; exact hj
  | await label k =>
    exact h.mono (fun p hp hc => ⟨p, hp, hc⟩) (fun _ he _ => he)
      fun e he _ => List.mem_map.2 <| (List.mem_map.1 he).imp fun r hr =>
        ⟨List.mem_append_left _ hr.1, hr.2⟩

theorem Adrift.of_changes {j : Nat} (hs : Changes s s') (h : s'.Adrift j) : s.Adrift j := by
  induction hs with
  | refl => exact h
  | tail _ hs ih => exact ih (h.of_change hs)

theorem Adrift.of_act {j : Nat} {x : Act} (h : (s.act x).Adrift j) : s.Adrift j := by
  rcases s.act_changes x with hs | ⟨now, watcher, -, -, hs⟩
  · exact h.of_changes hs
  · rw [hs] at h
    refine h.mono (fun p hp hc => ⟨p, (poller?_pause s watcher j).symm.trans hp, hc⟩) ?_
      fun e he _ => (s.line_pause_perm watcher).mem_iff.2 he
    have hp := s.pauses watcher
    generalize s.pause watcher = s' at hp
    cases hp <;> exact fun _ he _ => he

/-- From a state on in which none is, no subscription is ever left alone. -/
theorem not_adrift_after {j : Nat} (h : ¬ s.Adrift j) (xs : List Act) :
    ¬ (s.after xs).Adrift j := by
  induction xs generalizing s with
  | nil => exact h
  | cons x xs ih => exact ih fun ha => h ha.of_act

end SystemdControl.Inventory
