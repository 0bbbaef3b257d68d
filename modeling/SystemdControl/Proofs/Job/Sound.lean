import SystemdControl.Proofs.Job.Table

/-!
# What a job table shows of its journal

`JobTable.Sound` says what of its journal a table shows at any moment: the entries are the current
registrations, an entry is pending as long as its registration awaits a signal, and every inbox
holds the first result of its registration. Each operation keeps this (`Sound.does`), so it holds of
whatever a table goes through (`Sound.doesAll`). From it:

* `Sound.outcome?_ok_iff`: what a waiter is told;
* `Sound.resolve_fst_iff`: what becomes of a signal.

No bound on the number of registrations is needed for this, because `Deed.Removes` sees tickets as
the table does. `Sound.ends_iff_removes` is the bound under which that makes no difference.
-/

namespace SystemdControl.JobTable

/-- What a table shows of its journal. -/
structure Sound (j : List Deed) (t : JobTable) : Prop extends Tidy t where
  closed_iff : t.closed = true ↔ .closed ∈ j
  registered_lt : ∀ ticket, .registered ticket ∈ j → ticket.serial < t.registered
  dropped_lt : ∀ ticket, .dropped ticket ∈ j → ticket.serial < t.registered
  registered_mem : ∀ w ∈ t.waiters, .registered w.ticket ∈ j
  inbox_iff : ∀ w ∈ t.waiters, ∀ r, w.inbox = some r ↔ FirstResult Deed.Removes j w.ticket r
  entry_iff : ∀ ticket, ticket ∈ t.entries.map (·.ticket) ↔ Current Deed.Removes j ticket
  pending_iff : ∀ e ∈ t.entries, e.slot = .pending ↔ Awaiting Deed.Removes j e.ticket
  owner : ∀ e ∈ t.entries, ∃ w ∈ t.waiters, w.ticket = e.ticket ∧
    (e.slot = .pending ↔ w.inbox = none)
  paths : (t.entries.map (·.ticket.path)).Nodup

theorem sound_nil : Sound [] {} where
  nodup := .nil
  serial_lt _ h := absurd h List.not_mem_nil
  empty _ := rfl
  closed_iff := by simp
  registered_lt _ h := absurd h List.not_mem_nil
  dropped_lt _ h := absurd h List.not_mem_nil
  registered_mem _ h := absurd h List.not_mem_nil
  inbox_iff _ h := absurd h List.not_mem_nil
  entry_iff ticket := by
    refine iff_of_false List.not_mem_nil fun h => ?_
    exact absurd h.mem List.not_mem_nil
  pending_iff _ h := absurd h List.not_mem_nil
  owner _ h := absurd h List.not_mem_nil
  paths := .nil

namespace Sound

variable {j : List Deed} {t : JobTable}

/-! ## Entries and waiters -/

/-- Two entries of one path are the same entry. -/
theorem entry_eq (h : Sound j t) {a b : Entry} (ha : a ∈ t.entries) (hb : b ∈ t.entries)
    (hp : a.ticket.path = b.ticket.path) : a = b :=
  List.inj_on_of_nodup_map h.paths ha hb hp

/-- Two waiters of one registration are the same waiter. -/
theorem waiter_eq (h : Sound j t) {v w : Waiter} (hv : v ∈ t.waiters) (hw : w ∈ t.waiters)
    (ht : v.ticket = w.ticket) : v = w :=
  List.inj_on_of_nodup_map h.nodup hv hw ht

theorem entry?_eq (h : Sound j t) {e : Entry} (he : e ∈ t.entries) :
    t.entry? e.ticket.path = some e :=
  find?_key_eq h.paths he

theorem waiter?_eq (h : Sound j t) {w : Waiter} (hw : w ∈ t.waiters) :
    t.waiter? w.ticket = some w :=
  find?_key_eq h.nodup hw

theorem current (h : Sound j t) {e : Entry} (he : e ∈ t.entries) :
    Current Deed.Removes j e.ticket :=
  (h.entry_iff _).1 (List.mem_map_of_mem he)

/-- The next registration has not been made. -/
theorem next_not_registered (h : Sound j t) (path : JobPath) :
    .registered ⟨path, t.registered⟩ ∉ j :=
  fun hm => Nat.lt_irrefl _ (h.registered_lt _ hm)

/-! ## Each operation keeps a table sound -/

theorem register (h : Sound j t) (path : JobPath) (ho : t.closed = false) :
    Sound (j ++ [.registered ⟨path, t.registered⟩]) (t.register path).2 := by
  have hnew := h.next_not_registered path
  constructor
  case toTidy => exact h.toTidy.register path ho
  case closed_iff => simp [JobTable.register, h.closed_iff]
  case registered_lt =>
    intro ticket hm
    rcases List.mem_append.1 hm with hm | hm
    · exact Nat.lt_succ_of_lt (h.registered_lt ticket hm)
    · simp only [List.mem_singleton, Deed.registered.injEq] at hm
      rw [hm]
      exact Nat.lt_succ_self _
  case dropped_lt =>
    exact fun ticket hm => Nat.lt_succ_of_lt (h.dropped_lt ticket (by simpa using hm))
  case registered_mem =>
    intro w hm
    rcases List.mem_append.1 hm with hm | hm
    · exact List.mem_append_left _ (h.registered_mem w hm)
    · rw [List.mem_singleton.1 hm]
      exact List.mem_append_right _ (List.mem_singleton_self _)
  case inbox_iff =>
    intro w hm r
    simp only [firstResult_concat, reduceCtorEq, false_and, or_false]
    rcases List.mem_append.1 hm with hm | hm
    · exact h.inbox_iff w hm r
    · rw [List.mem_singleton.1 hm]
      exact iff_of_false (by simp) fun hf => hnew hf.mem
  case entry_iff =>
    intro ticket
    rw [current_concat, ← h.entry_iff]
    simp only [JobTable.register, List.map_cons, List.mem_cons, List.mem_map, List.mem_filter,
      ne_eq, decide_not, Bool.not_eq_eq_eq_not, Bool.not_true, decide_eq_false_iff_not,
      Deed.Removes, Deed.registered.injEq]
    constructor
    · rintro (rfl | ⟨e, ⟨he, hp⟩, rfl⟩)
      · exact .inl rfl
      · exact .inr ⟨⟨e, he, rfl⟩, fun hp' => hp hp'.symm⟩
    · rintro (rfl | ⟨⟨e, he, rfl⟩, hp⟩)
      · exact .inl rfl
      · exact .inr ⟨e, ⟨he, fun hp' => hp hp'.symm⟩, rfl⟩
  case pending_iff =>
    intro e hm
    rw [awaiting_concat]
    rcases List.mem_cons.1 hm with rfl | hm
    · simp
    · simp only [List.mem_filter, ne_eq, decide_not, Bool.not_eq_eq_eq_not, Bool.not_true,
        decide_eq_false_iff_not] at hm
      have hne : (⟨path, t.registered⟩ : Ticket) ≠ e.ticket := fun he => hm.2 (by rw [← he])
      simp only [Deed.registered.injEq, hne, false_or, Deed.Removes, Deed.Signals, or_false,
        Ne.symm hm.2, not_false_eq_true, and_true]
      exact h.pending_iff e hm.1
  case owner =>
    intro e hm
    rcases List.mem_cons.1 hm with rfl | hm
    · exact ⟨_, List.mem_append_right _ (List.mem_singleton_self _), rfl, by simp⟩
    · obtain ⟨w, hw, ho⟩ := h.owner e (List.mem_of_mem_filter hm)
      exact ⟨w, List.mem_append_left _ hw, ho⟩
  case paths =>
    refine List.nodup_cons.2 ⟨fun hm => ?_, h.paths.sublist (List.filter_sublist.map _)⟩
    obtain ⟨e, he, hp⟩ := List.mem_map.1 hm
    exact absurd hp (by simpa using List.of_mem_filter he)

/-- A registration that awaits a signal has a pending entry. -/
theorem exists_pending (h : Sound j t) {ticket : Ticket} (ha : Awaiting Deed.Removes j ticket) :
    ∃ e ∈ t.entries, e.ticket = ticket ∧ e.slot = .pending := by
  obtain ⟨e, he, rfl⟩ := List.mem_map.1 ((h.entry_iff ticket).2 ha.current)
  exact ⟨e, he, rfl, (h.pending_iff e he).2 ha⟩

theorem pending_mem_iff (h : Sound j t) {ticket : Ticket} :
    ⟨ticket, .pending⟩ ∈ t.entries ↔ Awaiting Deed.Removes j ticket := by
  refine ⟨fun hp => (h.pending_iff _ hp).1 rfl, fun ha => ?_⟩
  obtain ⟨⟨_, _⟩, he, rfl, rfl⟩ := h.exists_pending ha
  exact he

/-- A signal that no pending entry is for changes nothing. -/
theorem ignore (h : Sound j t) {path : JobPath} (result : JobResult)
    (hp : ∀ e ∈ t.entries, e.ticket.path = path → e.slot ≠ .pending) :
    Sound (j ++ [.signalled path result]) t := by
  constructor
  case toTidy => exact h.toTidy
  case closed_iff => simp [h.closed_iff]
  case registered_lt => exact fun ticket hm => h.registered_lt ticket (by simpa using hm)
  case dropped_lt => exact fun ticket hm => h.dropped_lt ticket (by simpa using hm)
  case registered_mem => exact fun w hw => List.mem_append_left _ (h.registered_mem w hw)
  case inbox_iff =>
    intro w hw r
    rw [h.inbox_iff w hw r, firstResult_concat]
    refine ⟨.inl, fun hf => hf.resolve_right fun ⟨hd, ha⟩ => ?_⟩
    obtain ⟨e, he, ht, hs⟩ := h.exists_pending ha
    simp only [Deed.signalled.injEq] at hd
    exact hp e he (by rw [ht, hd.1]) hs
  case entry_iff =>
    intro ticket
    simp [h.entry_iff, current_concat, Deed.Removes]
  case pending_iff =>
    intro e he
    simp only [h.pending_iff e he, awaiting_concat, reduceCtorEq, Deed.Removes, Deed.Signals,
      false_or]
    refine ⟨fun ha => ⟨ha, fun hpath => ?_⟩, And.left⟩
    exact hp e he hpath.symm ((h.pending_iff e he).2 ha)
  case owner => exact h.owner
  case paths => exact h.paths

/-- A signal that a pending entry is for goes to the waiter of that entry. -/
theorem deliver (h : Sound j t) {ticket : Ticket} (result : JobResult)
    (hp : ⟨ticket, .pending⟩ ∈ t.entries) :
    Sound (j ++ [.signalled ticket.path result]) (t.deliver ticket result) := by
  have hawait : Awaiting Deed.Removes j ticket := (h.pending_iff _ hp).1 rfl
  have htickets : (t.deliver ticket result).entries.map (·.ticket) = t.entries.map (·.ticket) := by
    simp only [JobTable.deliver, List.map_map]
    refine List.map_congr_left fun e _ => ?_
    simp only [Function.comp]
    split <;> rfl
  constructor
  case toTidy =>
    refine ⟨by rw [tickets_deliver]; exact h.nodup, ?_, fun hc => ?_⟩
    · rw [tickets_deliver]
      exact h.serial_lt
    · exact absurd hp (by rw [h.empty hc]; exact List.not_mem_nil)
  case closed_iff => simp [JobTable.deliver, h.closed_iff]
  case registered_lt => exact fun t' hm => h.registered_lt t' (by simpa using hm)
  case dropped_lt => exact fun t' hm => h.dropped_lt t' (by simpa using hm)
  case registered_mem =>
    intro w hw
    have hm : w.ticket ∈ (t.deliver ticket result).tickets := List.mem_map_of_mem hw
    rw [tickets_deliver] at hm
    obtain ⟨v, hv, hvw⟩ := List.mem_map.1 hm
    exact List.mem_append_left _ (hvw ▸ h.registered_mem v hv)
  case inbox_iff =>
    intro w hw r
    obtain ⟨v, hv, rfl⟩ := List.mem_map.1 hw
    rw [firstResult_concat]
    split
    · rename_i ht
      -- The inbox was empty: no other result came before this one.
      have hnone : ∀ r, ¬ FirstResult Deed.Removes j v.ticket r := fun r hf => by
        obtain ⟨o, ho, hot, hoi⟩ := h.owner _ hp
        rw [← h.inbox_iff v hv, h.waiter_eq hv ho (ht.trans hot.symm), hoi.1 rfl] at hf
        cases hf
      rw [ht] at hnone
      simp [hnone, ht, hawait]
    · rename_i ht
      rw [h.inbox_iff v hv r]
      refine ⟨.inl, fun hf => hf.resolve_right fun hnew => ?_⟩
      obtain ⟨hd, ha⟩ := hnew
      obtain ⟨e, he, hev, -⟩ := h.exists_pending ha
      simp only [Deed.signalled.injEq] at hd
      have := h.entry_eq he hp (by rw [hev, hd.1])
      exact ht (by rw [← hev, this])
  case entry_iff =>
    intro t'
    simp [htickets, h.entry_iff, current_concat, Deed.Removes]
  case pending_iff =>
    intro e he
    obtain ⟨f, hf, rfl⟩ := List.mem_map.1 he
    simp only [awaiting_concat, reduceCtorEq, Deed.Removes, Deed.Signals, false_or]
    split
    · rename_i ht
      simp [ht]
    · rename_i ht
      have hpath : ticket.path ≠ f.ticket.path := fun hpath =>
        ht (by rw [h.entry_eq hf hp hpath.symm])
      simp [h.pending_iff f hf, hpath]
  case owner =>
    intro e he
    obtain ⟨f, hf, rfl⟩ := List.mem_map.1 he
    obtain ⟨w, hw, hwt, hwi⟩ := h.owner f hf
    refine ⟨_, List.mem_map_of_mem hw, ?_⟩
    by_cases ht : f.ticket = ticket
    · simp [hwt, ht]
    · simp [hwt, ht, hwi]
  case paths =>
    have : (t.deliver ticket result).entries.map (·.ticket.path) =
        t.entries.map (·.ticket.path) := by
      have := congrArg (List.map Ticket.path) htickets
      simpa only [List.map_map, Function.comp_def] using this
    rw [this]
    exact h.paths

theorem resolve (h : Sound j t) (path : JobPath) (result : JobResult) :
    Sound (j ++ [.signalled path result]) (t.resolve path result).2 := by
  unfold JobTable.resolve
  split
  · rename_i hc
    exact h.ignore result fun e he => by rw [h.empty hc] at he; cases he
  · split
    · rename_i he
      refine h.ignore result fun e hm hp => ?_
      exact absurd hp (by simpa using List.find?_eq_none.1 he e hm)
    · rename_i ticket he
      refine h.ignore result fun e hm hp => ?_
      have hfound : ticket.path = path := by simpa using List.find?_some he
      rw [h.entry_eq hm (List.mem_of_find?_eq_some he) (hp.trans hfound.symm)]
      simp
    · rename_i ticket he
      have hfound : ticket.path = path := by simpa using List.find?_some he
      rw [← hfound]
      exact h.deliver result (List.mem_of_find?_eq_some he)

theorem drop (h : Sound j t) {ticket : Ticket} (hl : ticket ∈ t.tickets) :
    Sound (j ++ [.dropped ticket]) (t.drop ticket) := by
  constructor
  case toTidy => exact h.toTidy.drop ticket
  case closed_iff => simp [JobTable.drop, h.closed_iff]
  case registered_lt => exact fun t' hm => h.registered_lt t' (by simpa using hm)
  case dropped_lt =>
    intro t' hm
    rcases List.mem_append.1 hm with hm | hm
    · exact h.dropped_lt t' hm
    · obtain ⟨w, hw, ht⟩ := List.mem_map.1 hl
      simp only [List.mem_singleton, Deed.dropped.injEq] at hm
      have hlt := h.registered_lt _ (h.registered_mem w hw)
      rwa [ht, ← hm] at hlt
  case registered_mem =>
    exact fun w hw => List.mem_append_left _ (h.registered_mem w (List.mem_of_mem_filter hw))
  case inbox_iff =>
    intro w hw r
    rw [h.inbox_iff w (List.mem_of_mem_filter hw) r]
    simp [firstResult_concat]
  case entry_iff =>
    intro t'
    rw [current_concat, ← h.entry_iff]
    simp only [JobTable.drop, List.mem_map, List.mem_filter, reduceCtorEq, false_or, Deed.Removes,
      Bool.not_eq_eq_eq_not, Bool.not_true, Bool.and_eq_false_imp, decide_eq_true_eq,
      decide_eq_false_iff_not]
    constructor
    · rintro ⟨e, ⟨he, hs⟩, rfl⟩
      exact ⟨⟨e, he, rfl⟩, fun hsame => hs hsame.1.symm hsame.2.symm⟩
    · rintro ⟨⟨e, he, rfl⟩, hs⟩
      exact ⟨e, ⟨he, fun hp hi => hs ⟨hp.symm, hi.symm⟩⟩, rfl⟩
  case pending_iff =>
    intro e he
    obtain ⟨he, hs⟩ := List.mem_filter.1 he
    simp only [Bool.not_eq_eq_eq_not, Bool.not_true, Bool.and_eq_false_imp, decide_eq_true_eq,
      decide_eq_false_iff_not] at hs
    simp only [h.pending_iff e he, awaiting_concat, reduceCtorEq, Deed.Removes, Deed.Signals,
      false_or, or_false]
    exact ⟨fun ha => ⟨ha, fun hsame => hs hsame.1.symm hsame.2.symm⟩, And.left⟩
  case owner =>
    intro e he
    obtain ⟨he, hs⟩ := List.mem_filter.1 he
    obtain ⟨w, hw, hwt, hwi⟩ := h.owner e he
    refine ⟨w, List.mem_filter.2 ⟨hw, ?_⟩, hwt, hwi⟩
    -- The waiter that goes away is not the owner of an entry that stays.
    simp only [ne_eq, decide_not, Bool.not_eq_eq_eq_not, Bool.not_true, decide_eq_false_iff_not]
    intro ht
    simp [← ht, hwt] at hs
  case paths => exact h.paths.sublist (List.filter_sublist.map _)

theorem close (h : Sound j t) : Sound (j ++ [.closed]) t.close where
  toTidy := h.toTidy.close
  closed_iff := by simp [JobTable.close]
  registered_lt ticket hm := h.registered_lt ticket (by simpa using hm)
  dropped_lt ticket hm := h.dropped_lt ticket (by simpa using hm)
  registered_mem w hw := List.mem_append_left _ (h.registered_mem w hw)
  inbox_iff w hw r := by
    rw [h.inbox_iff w hw r]
    simp [firstResult_concat]
  entry_iff ticket := by simp [JobTable.close, current_concat, Deed.Removes]
  pending_iff _ he := absurd he List.not_mem_nil
  owner _ he := absurd he List.not_mem_nil
  paths := .nil

theorem does (h : Sound j t) {d : Deed} {t' : JobTable} (hd : Does t d t') :
    Sound (j ++ [d]) t' := by
  cases hd with
  | register path ho => exact h.register path ho
  | resolve path result => exact h.resolve path result
  | drop _ hl => exact h.drop hl
  | close => exact h.close

theorem doesAll (h : Sound j t) {ds : List Deed} {t' : JobTable} (hd : DoesAll t ds t') :
    Sound (j ++ ds) t' := by
  induction hd generalizing j with
  | nil => rwa [List.append_nil]
  | cons hd _ ih => simpa only [List.append_assoc, List.singleton_append] using ih (h.does hd)

/-! ## What a table shows -/

/-- A waiter is told a result once there is a first one. -/
theorem outcome?_ok_iff (h : Sound j t) {ticket : Ticket} (hl : ticket ∈ t.tickets)
    (r : JobResult) :
    t.outcome? ticket = some (.ok r) ↔ FirstResult Deed.Removes j ticket r := by
  obtain ⟨w, hw, rfl⟩ := List.mem_map.1 hl
  rw [← h.inbox_iff w hw, JobTable.outcome?, h.waiter?_eq hw, Option.bind_some]
  cases w.inbox with
  | some r' => simp
  | none =>
    simp only [reduceCtorEq, iff_false]
    split <;> simp

/-- A current registration whose inbox holds a result does not await one. -/
theorem not_pending_of_firstResult (h : Sound j t) {e : Entry} (he : e ∈ t.entries) {r : JobResult}
    (hf : FirstResult Deed.Removes j e.ticket r) : e.slot ≠ .pending := by
  obtain ⟨w, hw, ht, hi⟩ := h.owner e he
  rw [← ht, ← h.inbox_iff w hw] at hf
  simp [hi, hf]

/-- What becomes of a signal for a path that has an entry. -/
theorem resolve_fst_of_mem (h : Sound j t) {e : Entry} (he : e ∈ t.entries) (result : JobResult) :
    (t.resolve e.ticket.path result).1 =
      if e.slot = .pending then .delivered else .alreadyResolved := by
  rw [JobTable.resolve, if_neg fun hc => by simp [h.empty hc] at he, h.entry?_eq he]
  obtain ⟨ticket, slot⟩ := e
  cases slot <;> rfl

/-- The answer to a signal, from the journal. -/
theorem resolve_fst_of_verdict (h : Sound j t) {path : JobPath} {resolution : Resolution}
    (hv : Verdict Deed.Removes j path resolution) (result : JobResult) :
    (t.resolve path result).1 = resolution := by
  cases resolution with
  | delivered =>
    obtain ⟨ticket, rfl, ha⟩ := hv
    obtain ⟨e, he, rfl, hs⟩ := h.exists_pending ha
    rw [h.resolve_fst_of_mem he, if_pos hs]
  | alreadyResolved =>
    obtain ⟨ticket, r, rfl, hc, hf⟩ := hv
    obtain ⟨e, he, rfl⟩ := List.mem_map.1 ((h.entry_iff ticket).2 hc)
    rw [h.resolve_fst_of_mem he, if_neg (h.not_pending_of_firstResult he hf)]
  | unknown =>
    obtain ⟨ho, hn⟩ := hv
    have hnone : t.entry? path = none :=
      List.find?_eq_none.2 fun e he => by simpa using fun hp => hn e.ticket hp (h.current he)
    rw [JobTable.resolve, hnone, if_neg fun hc => ho (h.closed_iff.1 hc)]
  | closed => rw [JobTable.resolve, if_pos (h.closed_iff.2 hv)]

/-- Every signal has a verdict. -/
theorem exists_verdict (h : Sound j t) (path : JobPath) :
    ∃ resolution, Verdict Deed.Removes j path resolution := by
  by_cases hc : .closed ∈ j
  · exact ⟨.closed, hc⟩
  by_cases hn : ∀ ticket : Ticket, ticket.path = path → ¬ Current Deed.Removes j ticket
  · exact ⟨.unknown, hc, hn⟩
  simp only [not_forall, not_not] at hn
  obtain ⟨ticket, hp, hcur⟩ := hn
  obtain ⟨e, he, rfl⟩ := List.mem_map.1 ((h.entry_iff ticket).2 hcur)
  by_cases hs : e.slot = .pending
  · exact ⟨.delivered, e.ticket, hp, (h.pending_iff e he).1 hs⟩
  · obtain ⟨w, hw, ht, hi⟩ := h.owner e he
    obtain ⟨r, hr⟩ := Option.ne_none_iff_exists'.1 (mt hi.2 hs)
    exact ⟨.alreadyResolved, e.ticket, r, hp, hcur, ht ▸ (h.inbox_iff w hw r).1 hr⟩

/-- What becomes of a signal is what the journal says. -/
theorem resolve_fst_iff (h : Sound j t) (path : JobPath) (result : JobResult)
    (resolution : Resolution) :
    (t.resolve path result).1 = resolution ↔ Verdict Deed.Removes j path resolution := by
  obtain ⟨ρ, hρ⟩ := h.exists_verdict path
  have hr := h.resolve_fst_of_verdict hρ result
  exact ⟨fun e => (hr.symm.trans e) ▸ hρ, fun hv => h.resolve_fst_of_verdict hv result⟩

/-! ## Tickets that are told apart -/

/-- Among fewer than `2 ^ 64` registrations a table tells every two tickets apart. -/
theorem ends_iff_removes (h : Sound j t) (hn : t.registered ≤ 2 ^ 64) {ticket : Ticket}
    (hm : .registered ticket ∈ j) {d : Deed} (hd : d ∈ j) : d.Ends ticket ↔ d.Removes ticket := by
  cases d with
  | registered | signalled | closed => exact Iff.rfl
  | dropped t' =>
    have h₁ := h.registered_lt ticket hm
    have h₂ := h.dropped_lt t' hd
    exact Ticket.eq_iff_id_eq (by omega) (by omega)

end Sound

end SystemdControl.JobTable
