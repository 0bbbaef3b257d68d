import SystemdControl.Proofs.Unit.Delta
import SystemdControl.Watch.Subscription

/-!
# Replaying a subscription

A run of a subscription is any list of acts: fetches with whatever answers, moves of the poller at
whatever times, reads and the cancellation.

* `Subscription.lists` are the successful answers that the poller takes up in a run,
  `Subscription.got` the changes that the subscriber reads;
* `Subscription.Faithful` ties the two together at every moment: what was read and what is still
  unread are the differences between one successful answer and the next;
* so whoever replays the changes from the start has, after each of them, the inventory that the
  manager gave (`Reconstructs`).
-/

namespace SystemdControl

namespace UnitDelta

/-- The differences along a list of inventories. -/
def along (equal : Equality) : Snapshot → List Snapshot → List UnitDelta
  | _, [] => []
  | previous, current :: rest => between equal previous current :: along equal current rest

/-- The inventory after changes, one after the other. -/
def replay (deltas : List UnitDelta) (m : Snapshot) : Snapshot :=
  deltas.foldl (fun m delta => delta.applyTo m) m

variable {equal : Equality} {m previous : Snapshot} {l : List Snapshot}

theorem along_concat (equal : Equality) (previous : Snapshot) (l : List Snapshot) (c : Snapshot) :
    along equal previous (l ++ [c]) =
      along equal previous l ++ [between equal (l.getLastD previous) c] := by
  induction l generalizing previous with
  | nil => rfl
  | cons s l ih =>
    rw [List.cons_append, along, along, ih, List.getLastD_cons, List.cons_append]

@[simp] theorem length_along (equal : Equality) (previous : Snapshot) (l : List Snapshot) :
    (along equal previous l).length = l.length := by
  induction l generalizing previous with
  | nil => rfl
  | cons s l ih => rw [along, List.length_cons, ih, List.length_cons]

/-- Changes in the middle lie between two inventories that follow each other. -/
theorem along_eq_append_cons {before rest : List UnitDelta} {delta : UnitDelta}
    (h : along equal previous l = before ++ delta :: rest) :
    ∃ l₁ c l₂, l = l₁ ++ c :: l₂ ∧ before = along equal previous l₁ ∧
      delta = between equal (l₁.getLastD previous) c := by
  induction before generalizing previous l with
  | nil =>
    cases l with
    | nil => cases h
    | cons s l =>
      rw [along, List.nil_append, List.cons.injEq] at h
      exact ⟨[], s, l, rfl, rfl, h.1.symm⟩
  | cons d before ih =>
    cases l with
    | nil => cases h
    | cons s l =>
      rw [along, List.cons_append, List.cons.injEq] at h
      obtain ⟨l₁, c, l₂, rfl, rfl, rfl⟩ := ih h.2
      exact ⟨s :: l₁, c, l₂, rfl, by rw [along, h.1], by rw [List.getLastD_cons]⟩

/-! ## What replay keeps -/

theorem sameNames_replay_along (h : SameNames m previous) (l : List Snapshot) :
    SameNames (replay (along equal previous l) m) (l.getLastD previous) := by
  induction l generalizing m previous with
  | nil => exact h
  | cons s l ih =>
    rw [List.getLastD_cons]
    exact ih h.applyTo

theorem agrees_replay_along (hr : ∀ u, equal u u = true)
    (ht : ∀ u v w, equal u v = true → equal v w = true → equal u w = true)
    (h : Agrees equal m previous) (l : List Snapshot) :
    Agrees equal (replay (along equal previous l) m) (l.getLastD previous) := by
  induction l generalizing m previous with
  | nil => exact h
  | cons s l ih =>
    rw [List.getLastD_cons]
    exact ih (h.applyTo hr ht)

/-- What the changes from one inventory to the next do for an inventory `m` that was replayed so
far: they fit it, and lead it to the next one as far as the notion of equal records can tell. -/
structure Reconstructs (equal : Equality) (m previous current : Snapshot) (delta : UnitDelta) :
    Prop where
  eq_between : delta = between equal previous current
  added_iff : ∀ name c, delta.get? name = some c →
    ((∃ status, c = .added status) ↔ m.contains name = false)
  names : SameNames (delta.applyTo m) current
  agrees : (∀ u, equal u u = true) →
    (∀ u v w, equal u v = true → equal v w = true → equal u w = true) →
      Agrees equal (delta.applyTo m) current
  exact : equal = structurally → delta.applyTo m = current

theorem structurally_refl (u : UnitStatus) : structurally u u = true :=
  beq_self_eq_true u

theorem structurally_trans (u v w : UnitStatus) (huv : structurally u v = true)
    (hvw : structurally v w = true) : structurally u w = true := by
  rw [eq_of_beq huv]
  exact hvw

/-- Each of the differences along a list of inventories reconstructs the next one. -/
theorem reconstructs_of_along {before rest : List UnitDelta} {delta : UnitDelta}
    (h : along equal .empty l = before ++ delta :: rest) :
    ∃ l₁ c l₂, l = l₁ ++ c :: l₂ ∧ l₁.length = before.length ∧
      Reconstructs equal (replay before .empty) (l₁.getLastD .empty) c delta := by
  obtain ⟨l₁, c, l₂, hl, rfl, rfl⟩ := along_eq_append_cons h
  have hn : SameNames (replay (along equal .empty l₁) .empty) (l₁.getLastD .empty) :=
    sameNames_replay_along (fun _ => rfl) l₁
  have hempty : Agrees equal .empty .empty := fun _ _ _ hb _ => by cases hb
  have ha : ∀ hr ht, Agrees equal ((between equal (l₁.getLastD .empty) c).applyTo _) c :=
    fun hr ht => (agrees_replay_along hr ht hempty l₁).applyTo hr ht
  refine ⟨l₁, c, l₂, hl, (length_along ..).symm, rfl, fun name c hc => hn.change_iff hc, hn.applyTo,
    ha, ?_⟩
  rintro rfl
  exact hn.applyTo.eq_of_agrees (ha structurally_refl structurally_trans)

end UnitDelta

namespace Subscription

/-- Something that happens to a subscription: a move of its poller, or of whoever has it. -/
inductive Act where
  | begin (now : Nat) (fetch : Fetch)
  | move (now : Nat)
  | readChange
  | readError
  | cancel

/-- A subscription after an act. A move that the poller cannot make changes nothing. -/
def act (p : Subscription) : Act → Subscription
  | .begin now fetch => if p.wantsFetch then p.begin now fetch else p
  | .move now => (p.move? now).getD p
  | .readChange => p.readChange.2
  | .readError => p.readError.2
  | .cancel => p.cancel

/-- The answer to a fetch that the poller takes up in an act. -/
def received (p : Subscription) : Act → Option (Except Error (List UnitStatus))
  | .move now =>
    match p.phase with
    | .fetching fetch => if fetch.ready ≤ now then some fetch.result else none
    | _ => none
  | _ => none

/-- The list that the poller takes up in an act. -/
def listed (p : Subscription) (x : Act) : Option (List UnitStatus) :=
  (p.received x).bind Except.toOption

/-- The changes that the subscriber gets in an act. -/
def delivered (p : Subscription) : Act → Option UnitDelta
  | .readChange =>
    match p.readChange.1 with
    | .item delta => some delta
    | _ => none
  | _ => none

/-- A subscription after a run. -/
def after (p : Subscription) (xs : List Act) : Subscription :=
  xs.foldl act p

/-- The lists that the poller takes up in a run. -/
def lists (p : Subscription) : List Act → List (List UnitStatus)
  | [] => []
  | x :: xs => (p.listed x).toList ++ lists (p.act x) xs

/-- The changes that the subscriber gets in a run. -/
def got (p : Subscription) : List Act → List UnitDelta
  | [] => []
  | x :: xs => (p.delivered x).toList ++ got (p.act x) xs

/-- The inventories that the poller has taken up and not published. -/
def Owes (p : Subscription) (pending : List Snapshot) : Prop :=
  match p.phase with
  | .publishing delta current =>
    pending = [current] ∧ delta = .between p.equal p.baseline current
  | .ended => pending.length ≤ 1
  | _ => pending = []

/-- What a subscription has published, read or not, are the differences between the inventories
that its poller has published. -/
structure Faithful (equal : Equality) (p : Subscription) (read : List UnitDelta)
    (published pending : List Snapshot) : Prop where
  equal_eq : p.equal = equal
  changes : read ++ p.changes = UnitDelta.along equal .empty published
  baseline : p.baseline = published.getLastD .empty
  pending : p.Owes pending

variable {p : Subscription} {equal : Equality} {read : List UnitDelta}
  {published pending : List Snapshot}

theorem Owes.length_le (h : p.Owes pending) : pending.length ≤ 1 := by
  unfold Owes at h
  split at h
  · rw [h.1]
    exact Nat.le_refl 1
  · exact h
  · rw [h]
    exact Nat.zero_le 1

theorem Owes.eq_nil (h : p.Owes pending) (hw : p.wantsFetch = true) : pending = [] := by
  unfold wantsFetch at hw
  split at hw
  · rename_i hp
    rwa [Owes, hp] at h
  · cases hw

namespace Faithful

theorem endIfCancelled (h : Faithful equal p read published pending) :
    Faithful equal (p.endIfCancelled.getD p) read published pending := by
  unfold Subscription.endIfCancelled
  split
  · exact ⟨h.equal_eq, h.changes, h.baseline, h.pending.length_le⟩
  · exact h

theorem receive (h : Faithful equal p read published []) (result : Except Error (List UnitStatus)) :
    Faithful equal (p.receive result) read published
      (result.toOption.map Snapshot.ofUnits).toList := by
  cases result with
  | error e => exact ⟨h.equal_eq, h.changes, h.baseline, rfl⟩
  | ok units => exact ⟨h.equal_eq, h.changes, h.baseline, rfl, rfl⟩

/-- The poller publishes what it owes. -/
theorem publish {delta : UnitDelta} {current : Snapshot}
    (h : Faithful equal p read published pending) (hp : p.phase = .publishing delta current) :
    Faithful equal
      { p with phase := .resting, changes := p.changes ++ [delta], baseline := current } read
      (published ++ pending) [] := by
  have howes := h.pending
  rw [Owes, hp] at howes
  obtain ⟨rfl, rfl⟩ := howes
  refine ⟨h.equal_eq, ?_, by simp, rfl⟩
  show read ++ (p.changes ++ _) = _
  rw [← List.append_assoc, h.changes, h.baseline, h.equal_eq, UnitDelta.along_concat]

theorem move (h : Faithful equal p read published pending) (now : Nat) :
    ∃ published' pending', published' ++ pending' =
        published ++ pending ++ ((p.listed (.move now)).map Snapshot.ofUnits).toList ∧
      Faithful equal (p.act (.move now)) read published' pending' := by
  have howes := h.pending
  cases hp : p.phase with
  | due =>
    simp only [Subscription.act, move?, listed, received, hp]
    exact ⟨published, pending, by simp, h.endIfCancelled⟩
  | fetching fetch =>
    rw [Owes, hp] at howes
    subst howes
    simp only [Subscription.act, move?, listed, received, hp]
    split
    · exact ⟨published, _, by simp, h.receive fetch.result⟩
    · exact ⟨published, [], by simp, h.endIfCancelled⟩
  | publishing delta current =>
    simp only [Subscription.act, move?, listed, received, hp]
    split
    · exact ⟨published ++ pending, [], by simp, h.publish hp⟩
    · exact ⟨published, pending, by simp, h.endIfCancelled⟩
  | resting =>
    rw [Owes, hp] at howes
    simp only [Subscription.act, move?, listed, received, hp]
    split
    · exact ⟨published, pending, by simp, h.equal_eq, h.changes, h.baseline, howes⟩
    · exact ⟨published, pending, by simp, h.endIfCancelled⟩
  | ended =>
    simp only [Subscription.act, move?, listed, received, hp]
    exact ⟨published, pending, by simp, h⟩

theorem readChange (h : Faithful equal p read published pending) :
    Faithful equal p.readChange.2 (read ++ (p.delivered .readChange).toList) published pending := by
  have hc := h.changes
  simp only [delivered, Subscription.readChange]
  split
  · rename_i delta rest he
    rw [he] at hc
    exact ⟨h.equal_eq, by simpa using hc, h.baseline, h.pending⟩
  · cases p.hasEnded <;> exact ⟨h.equal_eq, by simpa using hc, h.baseline, h.pending⟩

theorem readError (h : Faithful equal p read published pending) :
    Faithful equal p.readError.2 read published pending := by
  simp only [Subscription.readError]
  split
  · exact ⟨h.equal_eq, h.changes, h.baseline, h.pending⟩
  · exact h

/-- Every act keeps a subscription faithful, and adds to what its poller has taken up. -/
theorem act (h : Faithful equal p read published pending) (x : Act) :
    ∃ published' pending', published' ++ pending' =
        published ++ pending ++ ((p.listed x).map Snapshot.ofUnits).toList ∧
      Faithful equal (p.act x) (read ++ (p.delivered x).toList) published' pending' := by
  cases x with
  | begin now fetch =>
    simp only [Subscription.act, delivered, listed, received, Option.toList_none, List.append_nil]
    split
    · rename_i hw
      refine ⟨published, [], ?_, h.equal_eq, h.changes, h.baseline, rfl⟩
      rw [h.pending.eq_nil hw]
      simp
    · exact ⟨published, pending, by simp, h⟩
  | move now =>
    simp only [delivered, Option.toList_none, List.append_nil]
    exact h.move now
  | readChange => exact ⟨published, pending, by simp [listed, received], h.readChange⟩
  | readError =>
    simp only [delivered, Option.toList_none, List.append_nil]
    exact ⟨published, pending, by simp [listed, received], h.readError⟩
  | cancel =>
    simp only [delivered, Option.toList_none, List.append_nil]
    exact ⟨published, pending, by simp [listed, received], h.equal_eq, h.changes, h.baseline,
      h.pending⟩

/-- So does every run. -/
theorem after (h : Faithful equal p read published pending) (xs : List Act) :
    ∃ published' pending', published' ++ pending' =
        published ++ pending ++ (p.lists xs).map Snapshot.ofUnits ∧
      Faithful equal (p.after xs) (read ++ p.got xs) published' pending' := by
  induction xs generalizing p read published pending with
  | nil =>
    rw [lists, got, List.append_nil]
    exact ⟨published, pending, by simp, h⟩
  | cons x xs ih =>
    obtain ⟨published₁, pending₁, he₁, h₁⟩ := h.act x
    obtain ⟨published₂, pending₂, he₂, h₂⟩ := ih h₁
    refine ⟨published₂, pending₂, ?_, ?_⟩
    · rw [he₂, he₁, lists, List.map_append, List.append_assoc, Option.toList_map]
    · rw [got, ← List.append_assoc]
      exact h₂

end Faithful

/-- A subscription is faithful when it is opened. -/
theorem faithful_of_open? {o : SubscribeOptions} (h : open? o = .ok p) :
    Faithful o.equal p [] [] [] := by
  unfold open? at h
  split at h
  · cases h
    exact ⟨rfl, rfl, rfl, rfl⟩
  · cases h

/-- A failed fetch publishes nothing and leaves alone what the next changes start from. -/
theorem act_of_received_error {x : Act} {e : Error} (h : p.received x = some (.error e)) :
    (p.act x).changes = p.changes ∧ (p.act x).baseline = p.baseline ∧ (p.act x).Owes [] := by
  cases x with
  | move now =>
    cases hp : p.phase with
    | fetching fetch =>
      simp only [received, hp] at h
      split at h
      · rename_i hr
        simp only [act, move?, hp, if_pos hr, Option.getD_some, Option.some.inj h]
        exact ⟨rfl, rfl, rfl⟩
      · cases h
    | _ => simp [received, hp] at h
  | _ => cases h

/-- Along any run, whoever replays what a subscription has published has the units of the
successful fetches one after the other, up to what counts as equal; a last one may not be published
yet. -/
theorem replay_reconstructs {o : SubscribeOptions} {p : Subscription} (h : open? o = .ok p)
    (xs : List Act) :
    let deltas := p.got xs ++ (p.after xs).changes
    (deltas.length ≤ (p.lists xs).length ∧ (p.lists xs).length ≤ deltas.length + 1) ∧
    (∀ x e, (p.after xs).received x = some (.error e) →
      ((p.after xs).act x).changes = (p.after xs).changes ∧
        ((p.after xs).act x).baseline = (p.after xs).baseline ∧ ((p.after xs).act x).Owes []) ∧
    ∀ before delta rest, deltas = before ++ delta :: rest →
      ∃ earlier units later, p.lists xs = earlier ++ units :: later ∧
        earlier.length = before.length ∧
        UnitDelta.Reconstructs o.equal (UnitDelta.replay before .empty)
          ((earlier.map Snapshot.ofUnits).getLastD .empty) (Snapshot.ofUnits units) delta := by
  intro deltas
  obtain ⟨published, pending, hlists, hf⟩ := (faithful_of_open? h).after xs
  have hdeltas : deltas = UnitDelta.along o.equal .empty published := hf.changes
  have hlen : (p.lists xs).length = published.length + pending.length := by
    have := congrArg List.length hlists
    simpa using this.symm
  refine ⟨?_, fun x e hx => act_of_received_error hx, fun before delta rest hd => ?_⟩
  · rw [hdeltas, UnitDelta.length_along, hlen]
    have := hf.pending.length_le
    omega
  · rw [hdeltas] at hd
    obtain ⟨l₁, c, l₂, rfl, hl, hr⟩ := UnitDelta.reconstructs_of_along hd
    rw [List.append_assoc, List.cons_append] at hlists
    replace hlists := hlists.symm
    rw [List.nil_append, List.nil_append, List.map_eq_append_iff] at hlists
    obtain ⟨earlier, rest', he, rfl, hrest⟩ := hlists
    obtain ⟨units, later, rfl, rfl, -⟩ := List.map_eq_cons_iff.1 hrest
    exact ⟨earlier, units, later, he, by rwa [List.length_map] at hl, hr⟩

/-- Two lists with a failure between them, the first with two records of one unit. -/
theorem replay_reconstructs_after_failure :
    let o : SubscribeOptions := { interval := ⟨0, 1, by decide⟩ }
    let run : List UnitStatus → List UnitStatus → List Act := fun l₀ l₁ =>
      [.begin 0 ⟨.ok l₀, 0⟩, .move 0, .move 0, .readChange, .move 1, .begin 1 ⟨.error (.io "x"), 1⟩,
        .move 1, .move 2, .begin 2 ⟨.ok l₁, 2⟩, .move 2, .move 2]
    let l₀ : List UnitStatus := [.named "a" "loaded" "active", .named "b" "loaded" "active",
      .named "a" "loaded" "failed"]
    let l₁ : List UnitStatus := [.named "a" "loaded" "active"]
    ∃ p before delta, open? o = .ok p ∧
      p.got (run l₀ l₁) ++ (p.after (run l₀ l₁)).changes = before ++ [delta] ∧
      delta.applyTo (UnitDelta.replay before .empty) = Snapshot.ofUnits l₁ := by
  intro o run l₀ l₁
  let p : Subscription :=
    { interval := 1, interval_pos := Nat.one_pos, buffer := 1, equal := structurally }
  have hp : open? o = .ok p := by
    have hint : o.interval.toNanos = 1 := by decide
    simp [open?, hint, p, o]
  have hlists : ∀ l₀ l₁, p.lists (run l₀ l₁) = [l₀, l₁] := by
    simp [run, p, lists, act, listed, received, wantsFetch, begin, move?, receive, size, readChange,
      Except.toOption]
  have hdeltas : ∀ l₀ l₁, p.got (run l₀ l₁) ++ (p.after (run l₀ l₁)).changes =
      [.between structurally .empty (.ofUnits l₀)] ++
        [.between structurally (.ofUnits l₀) (.ofUnits l₁)] := by
    simp [run, p, got, after, act, delivered, wantsFetch, begin, move?, receive, size, readChange]
  obtain ⟨-, -, h⟩ := replay_reconstructs hp (run l₀ l₁)
  obtain ⟨earlier, units, later, he, hl, hr⟩ := h _ _ _ (hdeltas l₀ l₁)
  rw [hlists] at he
  obtain ⟨u, rfl⟩ := List.length_eq_one_iff.1 hl
  have hu : l₁ = units := (List.cons.inj (List.cons.inj he).2).1
  exact ⟨p, _, _, hp, hdeltas l₀ l₁, hu ▸ hr.exact rfl⟩
end Subscription

end SystemdControl
