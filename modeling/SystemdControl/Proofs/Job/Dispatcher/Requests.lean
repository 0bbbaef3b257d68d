import Mathlib.Data.List.Nodup
import SystemdControl.Proofs.Job.Dispatcher.Ledger
import SystemdControl.Proofs.Run

/-!
# Requests that reach the manager

A call is submitted, waits for the gate, and its request is sent when it gets the gate; then it
keeps the gate until it ends. A request to signal a unit does not need the gate.

* `Dispatcher.submitted?`, `issued?` and `ended?` are the calls with which that happens in an act;
* `Dispatcher.requests` are the requests that have reached the manager by the end of a run, read off
  what has been sent after each act. `Dispatcher.reached_eq`: they are those of the calls that were
  issued, and to signal units;
* `Enrolled`: calls are numbered as they are submitted, and each is issued at most once and as it
  was submitted. Every act keeps this (`Enrolled.exchange`), so it holds after every run
  (`Dispatcher.enrolled_after`);
* `Dispatcher.issues_eq`: the calls that were issued are those that have ended and the one that
  holds the gate.
-/

namespace SystemdControl

namespace Party

/-- The call that waits. -/
def call? : Party → Option Call
  | call c => some c
  | listener => none

end Party

/-- The request for a job. -/
def ManagerCall.job? : ManagerCall → Option JobRequest
  | job request => some request
  | kill _ => none

/-- The request to signal a unit. -/
def ManagerCall.kill? : ManagerCall → Option KillRequest
  | kill request => some request
  | job _ => none

namespace Ledger

/-- The calls that wait for the gate. -/
def callers (l : Ledger) : List Call :=
  l.guests.filterMap Party.call?

/-- The call that has got the gate from one state to another. -/
def issued? (l l' : Ledger) : Option Call :=
  match l.underWay, l'.underWay with
  | none, some u => some u.call
  | _, _ => none

/-- The call that has given the gate back. -/
def ended? (l l' : Ledger) : Option Call :=
  match l.underWay, l'.underWay with
  | some u, none => some u.call
  | _, _ => none

variable {l l' : Ledger} {call : Call}

theorem issued?_eq_some_iff :
    l.issued? l' = some call ↔ l.underWay = none ∧ ∃ u, l'.underWay = some u ∧ u.call = call := by
  unfold issued?
  cases l.underWay <;> cases l'.underWay <;> simp

theorem ended?_eq_some_iff :
    l.ended? l' = some call ↔ (∃ u, l.underWay = some u ∧ u.call = call) ∧ l'.underWay = none := by
  unfold ended?
  cases l.underWay <;> cases l'.underWay <;> simp

theorem issued?_eq_none (h : l'.underWay = none ∨ l'.underWay = l.underWay ∨ l.underWay ≠ none) :
    l.issued? l' = none := by
  rw [Option.eq_none_iff_forall_ne_some]
  intro call hi
  obtain ⟨hn, u, hs, -⟩ := issued?_eq_some_iff.1 hi
  simp [hn, hs] at h

end Ledger

namespace Dispatcher

/-- The calls that wait for the gate. -/
def callers (s : Dispatcher) : List Call :=
  s.ledger.callers

/-- The call that holds the gate. -/
def inFlight (s : Dispatcher) : Option Call :=
  s.underWay.map (·.call)

/-- The call that is submitted in an act. -/
def submitted? (s : Dispatcher) : Act → Option Call
  | .start label (.ok request) before held reply =>
    some ⟨s.begun, label, request, before, held, reply⟩
  | _ => none

/-- The call that gets the gate in an act. -/
def issued? (s : Dispatcher) (x : Act) : Option Call :=
  s.ledger.issued? (s.act x).ledger

/-- The call that gives the gate back in an act. -/
def ended? (s : Dispatcher) (x : Act) : Option Call :=
  s.ledger.ended? (s.act x).ledger

/-- The request to signal a unit that is sent in an act. -/
def Act.killed? : Act → Option KillRequest
  | kill _ (.ok request) _ _ => some request
  | _ => none

/-- The request of the call that gets the gate in an act, or to signal a unit. -/
def due? (s : Dispatcher) (x : Act) : Option ManagerCall :=
  ((s.issued? x).map (ManagerCall.job ·.request)).or (x.killed?.map .kill)

/-- What an act adds to the requests that have reached the manager. -/
def reached (s : Dispatcher) (x : Act) : List ManagerCall :=
  (s.act x).sent.drop s.sent.length

/-- The calls that are submitted in a run, in order. -/
def submissions : Dispatcher → List Act → List Call :=
  Run.outputs act submitted?

/-- The calls that get the gate in a run, in order. -/
def issues : Dispatcher → List Act → List Call :=
  Run.outputs act issued?

/-- The calls that give the gate back in a run, in order. -/
def endings : Dispatcher → List Act → List Call :=
  Run.outputs act ended?

/-- The requests that reach the manager in a run, in order. -/
def requests : Dispatcher → List Act → List ManagerCall
  | _, [] => []
  | s, x :: xs => s.reached x ++ (s.act x).requests xs

variable {s : Dispatcher} {x : Act} {call : Call}

theorem Act.killed?_eq_none (h : x.isRequest = false) : x.killed? = none := by
  cases x with
  | start | kill => cases h
  | _ => rfl

theorem submitted?_eq_none (h : x.isRequest = false) : s.submitted? x = none := by
  cases x with
  | start | kill => cases h
  | _ => rfl

end Dispatcher

namespace Exchange

variable {s : Dispatcher} {x : Dispatcher.Act} {l : Ledger} {call : Call}

/-! ## Calls at the gate -/

/-- A call that gets the gate waited for it, found it free and the table open, and sends its
request. -/
theorem issued (e : Exchange s x l) (h : s.ledger.issued? l = some call) :
    (∃ now, x = .move now (.call call.number)) ∧ .call call ∈ s.room.guests ∧
      s.underWay = none ∧ s.table.closed = false ∧
      l = { s.ledger.send (.job call.request) with
        guests := s.room.guests.erase (.call call)
        underWay := some ⟨call, !call.held⟩ } := by
  obtain ⟨hn, u, hs, rfl⟩ := Ledger.issued?_eq_some_iff.1 h
  cases e with
  | issue now hg hu ho =>
    cases hs
    exact ⟨⟨now, rfl⟩, hg, hu, ho, rfl⟩
  | fail | register | abandon => cases hs
  | answer _ hu => cases hu.symm.trans hn
  | _ => cases hn.symm.trans hs

/-- A call gives the gate back when its reply is taken up, or when it is abandoned. -/
theorem ended (e : Exchange s x l) (h : s.ledger.ended? l = some call) :
    ((∃ now, x = .move now (.call call.number)) ∧ s.underWay = some ⟨call, true⟩) ∨
      x = .drop call.label ∧ ∃ answered, s.underWay = some ⟨call, answered⟩ := by
  obtain ⟨⟨u, hu, rfl⟩, hn⟩ := Ledger.ended?_eq_some_iff.1 h
  replace hu : s.underWay = some u := hu
  cases e with
  | fail now hc | register now hc =>
    cases hu.symm.trans hc
    exact .inl ⟨⟨now, rfl⟩, hu⟩
  | abandon hc =>
    cases hu.symm.trans hc
    exact .inr ⟨rfl, u.answered, hu⟩
  | issue | answer => cases hn
  | _ => cases hu.symm.trans hn

/-- Whoever has the gate keeps it until it gives it back. -/
theorem inFlight (e : Exchange s x l) :
    (s.ledger.underWay.map (·.call)).toList ++ (s.ledger.issued? l).toList =
      (s.ledger.ended? l).toList ++ (l.underWay.map (·.call)).toList := by
  have hsame : ∀ l : Ledger, l.underWay = s.ledger.underWay →
      (s.ledger.underWay.map (·.call)).toList ++ (s.ledger.issued? l).toList =
        (s.ledger.ended? l).toList ++ (l.underWay.map (·.call)).toList := fun l hl => by
    rw [Ledger.issued?, Ledger.ended?, hl]
    cases s.ledger.underWay <;> rfl
  cases e with
  | issue now hg hu | answer label hu | fail now hu | register now hu | abandon hu =>
    rw [Ledger.issued?, Ledger.ended?, show s.ledger.underWay = _ from hu]
    rfl
  | _ => exact hsame _ rfl

/-! ## What is sent -/

theorem sent (e : Exchange s x l) (hx : x ≠ .clear) :
    l.sent = s.sent ++ (((s.ledger.issued? l).map (ManagerCall.job ·.request)).or
      (x.killed?.map .kill)).toList := by
  have hsame : ∀ {l : Ledger}, l.sent = s.sent → s.ledger.issued? l = none → x.killed? = none →
      l.sent = s.sent ++ (((s.ledger.issued? l).map (ManagerCall.job ·.request)).or
        (x.killed?.map .kill)).toList := fun hl hi hk => by
    rw [hl, hi, hk]
    exact (List.append_nil _).symm
  have hnone : ∀ {l : Ledger}, l.underWay = s.underWay → s.ledger.issued? l = none :=
    fun hl => Ledger.issued?_eq_none (.inr (.inl hl))
  cases e with
  | clear => exact absurd rfl hx
  | stay hx | finish hx => exact hsame rfl (hnone rfl) (Dispatcher.Act.killed?_eq_none hx)
  | issue now hg hu =>
    rw [Ledger.issued?, show s.ledger.underWay = none from hu]
    rfl
  | kill | holdKill =>
    rw [hnone rfl]
    rfl
  | answer label hu =>
    refine hsame rfl (Ledger.issued?_eq_none (.inr (.inr ?_))) rfl
    exact Option.ne_none_iff_exists'.2 ⟨_, hu⟩
  | fail | register | abandon => exact hsame rfl (Ledger.issued?_eq_none (.inl rfl)) rfl
  | _ => exact hsame rfl (hnone rfl) rfl

end Exchange

/-! ## Numbers -/

/-- Calls are numbered as they are submitted. Those that were issued and those that wait are among
them, and none is there twice. -/
structure Enrolled (begun : Nat) (submitted issued waiting : List Call) : Prop where
  numbers : submitted.map (·.number) = List.range begun
  once : ((issued ++ waiting).map (·.number)).Nodup
  origin : ∀ c ∈ issued ++ waiting, c ∈ submitted

namespace Enrolled

variable {begun : Nat} {submitted issued waiting rest : List Call} {call : Call}

theorem start_empty : Enrolled 0 [] [] [] :=
  ⟨rfl, .nil, fun _ h => absurd h List.not_mem_nil⟩

theorem congr (h : Enrolled begun submitted issued waiting) (hp : waiting.Perm rest) :
    Enrolled begun submitted issued rest where
  numbers := h.numbers
  once := ((hp.append_left issued).map _).nodup_iff.1 h.once
  origin c hc := h.origin c ((hp.append_left issued).mem_iff.2 hc)

theorem number_lt (h : Enrolled begun submitted issued waiting) (hc : call ∈ submitted) :
    call.number < begun := by
  rw [← List.mem_range, ← h.numbers]
  exact List.mem_map_of_mem hc

theorem eq_of_number_eq (h : Enrolled begun submitted issued waiting) {c : Call}
    (hc : c ∈ submitted) (hcall : call ∈ submitted) (hn : c.number = call.number) : c = call := by
  have hnodup : (submitted.map (·.number)).Nodup := h.numbers ▸ List.nodup_range
  exact List.inj_on_of_nodup_map hnodup hc hcall hn

/-- Some that wait go away. -/
theorem leave (h : Enrolled begun submitted issued waiting) (hs : rest.Sublist waiting) :
    Enrolled begun submitted issued rest where
  numbers := h.numbers
  once := h.once.sublist ((hs.append_left issued).map _)
  origin c hc := h.origin c ((hs.append_left issued).subset hc)

theorem submit (h : Enrolled begun submitted issued waiting) (hn : call.number = begun) :
    Enrolled (begun + 1) (submitted ++ [call]) issued (call :: waiting) where
  numbers := by rw [List.map_append, h.numbers, List.range_succ, ← hn]; rfl
  once := by
    rw [(List.perm_middle.map _).nodup_iff]
    refine List.nodup_cons.2 ⟨fun hm => ?_, h.once⟩
    obtain ⟨c, hc, he⟩ := List.mem_map.1 hm
    have hlt : c.number < begun := h.number_lt (h.origin c hc)
    exact absurd (he.trans hn) (Nat.ne_of_lt hlt)
  origin c hc := by
    rcases List.mem_cons.1 (List.perm_middle.mem_iff.1 hc) with rfl | hc
    · exact List.mem_append_right _ (List.mem_singleton_self _)
    · exact List.mem_append_left _ (h.origin c hc)

theorem issue (h : Enrolled begun submitted issued (call :: rest)) :
    Enrolled begun submitted (issued ++ [call]) rest where
  numbers := h.numbers
  once := by rw [List.append_assoc]; exact h.once
  origin := by rw [List.append_assoc]; exact h.origin

end Enrolled

namespace Exchange

variable {s : Dispatcher} {x : Dispatcher.Act} {l : Ledger} {submitted issued : List Call}

theorem callers_erase_sublist (s : Dispatcher) (party : Party) :
    ((s.room.guests.erase party).filterMap Party.call?).Sublist s.callers :=
  List.erase_sublist.filterMap _

theorem callers_perm {call : Call} (hg : .call call ∈ s.room.guests) :
    s.callers.Perm (call :: (s.room.guests.erase (.call call)).filterMap Party.call?) :=
  (List.perm_cons_erase hg).filterMap Party.call?

/-- Every act keeps the numbers in order. -/
theorem enrolled (e : Exchange s x l) (h : Enrolled s.begun submitted issued s.callers) :
    Enrolled l.begun (submitted ++ (s.submitted? x).toList)
      (issued ++ (s.ledger.issued? l).toList) l.callers := by
  have hquiet : ∀ {l : Ledger}, l.begun = s.begun → l.callers.Sublist s.callers →
      l.underWay = none ∨ l.underWay = s.underWay ∨ s.underWay ≠ none → s.submitted? x = none →
      Enrolled l.begun (submitted ++ (s.submitted? x).toList)
        (issued ++ (s.ledger.issued? l).toList) l.callers := fun {l} hb hs hu hx => by
    have hi : s.ledger.issued? l = none := Ledger.issued?_eq_none hu
    simp only [hi, hx, hb, Option.toList_none, List.append_nil]
    exact h.leave hs
  have hnone : ∀ {l : Ledger}, l.underWay = s.underWay → s.ledger.issued? l = none :=
    fun hl => Ledger.issued?_eq_none (.inr (.inl hl))
  cases e with
  | stay hx | finish hx =>
    exact hquiet rfl (.refl _) (.inr (.inl rfl)) (Dispatcher.submitted?_eq_none hx)
  | submit label request before held reply hg =>
    rw [hnone rfl, Option.toList_none, List.append_nil]
    exact (h.submit rfl).congr (hg.filterMap Party.call?).symm
  | sit now hl hu hg =>
    rw [hnone rfl]
    simp only [Dispatcher.submitted?, Option.toList_none, List.append_nil]
    exact h.congr (hg.filterMap Party.call?).symm
  | issue now hg hu =>
    simp only [Ledger.issued?, show s.ledger.underWay = none from hu, Dispatcher.submitted?,
      Option.toList_none, List.append_nil]
    exact (h.congr (callers_perm hg)).issue
  | rise | turnAway | giveUp =>
    exact hquiet rfl (callers_erase_sublist s _) (.inr (.inl rfl)) rfl
  | fail | register | abandon => exact hquiet rfl (.refl _) (.inl rfl) rfl
  | answer label hu =>
    exact hquiet rfl (.refl _) (.inr (.inr (Option.ne_none_iff_exists'.2 ⟨_, hu⟩))) rfl
  | _ => exact hquiet rfl (.refl _) (.inr (.inl rfl)) rfl

end Exchange

namespace Dispatcher

variable {s : Dispatcher} {x : Act} {call : Call}

/-! ## Runs -/

/-- What was sent before stays, and what is due in the act comes last. -/
theorem act_sent (s : Dispatcher) (hx : x ≠ .clear) :
    (s.act x).sent = s.sent ++ (s.due? x).toList :=
  (s.act_exchange x).sent hx

/-- What is due in an act reaches the manager in it, and nothing else does. -/
theorem reached_eq (s : Dispatcher) (x : Act) : s.reached x = (s.due? x).toList := by
  by_cases hx : x = .clear
  · subst hx
    have hissued : s.issued? .clear = none := Ledger.issued?_eq_none (.inr (.inl rfl))
    rw [due?, hissued]
    exact List.drop_of_length_le (Nat.zero_le _)
  · rw [reached, s.act_sent hx, List.drop_left]

/-- As long as nothing is forgotten, what has been sent is what was sent before and has reached the
manager since. -/
theorem sent_foldl (s : Dispatcher) {xs : List Act} (hxs : .clear ∉ xs) :
    (xs.foldl act s).sent = s.sent ++ s.requests xs := by
  induction xs generalizing s with
  | nil => exact (List.append_nil _).symm
  | cons x xs ih =>
    have hx : x ≠ .clear := fun h => hxs (h ▸ List.mem_cons_self)
    rw [List.foldl_cons, ih _ fun h => hxs (List.mem_cons_of_mem _ h), s.act_sent hx, requests,
      reached_eq, List.append_assoc]

/-- In a run the numbers stay in order. -/
theorem enrolled_foldl {submitted issued : List Call}
    (h : Enrolled s.begun submitted issued s.callers) (xs : List Act) :
    Enrolled (xs.foldl act s).begun (submitted ++ s.submissions xs) (issued ++ s.issues xs)
      (xs.foldl act s).callers := by
  induction xs generalizing s submitted issued with
  | nil =>
    rw [submissions, issues, Run.outputs_nil, Run.outputs_nil, List.append_nil, List.append_nil]
    exact h
  | cons x xs ih =>
    rw [submissions, issues, Run.outputs_cons, Run.outputs_cons, ← List.append_assoc,
      ← List.append_assoc]
    exact ih ((s.act_exchange x).enrolled h)

/-- Each call is issued at most once, and as it was submitted. -/
theorem enrolled_after (capacity : Nat) (xs : List Act) :
    let s : Dispatcher := { feed := { capacity } }
    Enrolled (xs.foldl act s).begun (s.submissions xs) (s.issues xs) (xs.foldl act s).callers :=
  @enrolled_foldl { feed := { capacity } } [] [] Enrolled.start_empty xs

/-- The number of a call tells which of the submitted ones was issued. -/
theorem issued_eq_of_number_eq (capacity : Nat) (xs : List Act) {c : Call}
    (hc : c ∈ issues { feed := { capacity } } xs)
    (hcall : call ∈ submissions { feed := { capacity } } xs) (hn : c.number = call.number) :
    c = call := by
  have h := enrolled_after capacity xs
  exact h.eq_of_number_eq (h.origin c (List.mem_append_left _ hc)) hcall hn

/-- The requests for jobs that reach the manager are those of the calls that were issued. -/
theorem requests_filterMap_job? (s : Dispatcher) (xs : List Act) :
    (s.requests xs).filterMap ManagerCall.job? = (s.issues xs).map (·.request) := by
  have hdue : ∀ s x, (due? s x).toList.filterMap ManagerCall.job? =
      (s.issued? x).toList.map (·.request) := fun s x => by
    unfold due?
    cases s.issued? x with
    | some call => rfl
    | none => cases x.killed? <;> rfl
  induction xs generalizing s with
  | nil => rfl
  | cons x xs ih =>
    rw [requests, issues, Run.outputs_cons, List.filterMap_append, List.map_append, reached_eq, hdue]
    exact congrArg _ (ih _)

/-- The requests to signal a unit that reach the manager are those that callers made. -/
theorem requests_filterMap_kill? (s : Dispatcher) (xs : List Act) :
    (s.requests xs).filterMap ManagerCall.kill? = xs.filterMap Act.killed? := by
  have hdue : ∀ s x, (due? s x).toList.filterMap ManagerCall.kill? = x.killed?.toList :=
    fun s x => by
      unfold due?
      cases hi : s.issued? x with
      | some call =>
        obtain ⟨⟨now, rfl⟩, -⟩ := (s.act_exchange x).issued hi
        rfl
      | none => cases x.killed? <;> rfl
  induction xs generalizing s with
  | nil => rfl
  | cons x xs ih =>
    rw [requests, List.filterMap_append, reached_eq, hdue, List.filterMap_cons]
    refine (congrArg _ (ih (s.act x))).trans ?_
    cases x.killed? <;> rfl

/-- The calls that were issued are those that have ended and the one that holds the gate. -/
theorem issues_eq (s : Dispatcher) (xs : List Act) :
    s.inFlight.toList ++ s.issues xs = s.endings xs ++ (xs.foldl act s).inFlight.toList := by
  have hact : ∀ (s : Dispatcher) (x : Act), s.inFlight.toList ++ (s.issued? x).toList =
      (s.ended? x).toList ++ (s.act x).inFlight.toList := fun s x => (s.act_exchange x).inFlight
  exact Run.stock_append_outputs hact s xs

/-- The call that holds the gate held it before, or was issued. -/
theorem mem_issues_of_inFlight {xs : List Act} (h : (xs.foldl act s).inFlight = some call) :
    s.inFlight = some call ∨ call ∈ s.issues xs := by
  have hm : call ∈ s.inFlight.toList ++ s.issues xs := by
    rw [issues_eq, h]
    exact List.mem_append_right _ (List.mem_singleton_self call)
  exact (List.mem_append.1 hm).imp_left Option.mem_toList.1

/-- The call that holds the gate was submitted before. -/
theorem number_lt_of_inFlight (capacity : Nat) (xs : List Act)
    (h : (xs.foldl act { feed := { capacity } }).inFlight = some call) :
    call.number < (xs.foldl act { feed := { capacity } }).begun := by
  have henrolled := enrolled_after capacity xs
  have hissued : call ∈ issues { feed := { capacity } } xs :=
    (mem_issues_of_inFlight h).resolve_left nofun
  exact henrolled.number_lt (henrolled.origin call (List.mem_append_left _ hissued))

/-! ## From the submission of a call on -/

section

variable (capacity : Nat) (xs : List Act) (label : String) (request : JobRequest)
variable (before : List Signal) (held : Bool) (reply : Reply)

/-- A call that is submitted is among those of the whole run. -/
theorem mem_submissions_start (ys : List Act) :
    let s := xs.foldl act { feed := { capacity } }
    (⟨s.begun, label, request, before, held, reply⟩ : Call) ∈
      submissions { feed := { capacity } }
        (xs ++ .start label (.ok request) before held reply :: ys) := by
  rw [submissions, Run.outputs_append]
  exact List.mem_append_right _ List.mem_cons_self

/-- A call gets the gate once at most, and as it was submitted. -/
theorem issues_start_sublist (ys : List Act) :
    let s := xs.foldl act { feed := { capacity } }
    (((s.act (.start label (.ok request) before held reply)).issues ys).filter
      (·.number = s.begun)).Sublist [⟨s.begun, label, request, before, held, reply⟩] := by
  intro s
  let all := xs ++ .start label (.ok request) before held reply :: ys
  have hissues : ((s.act (.start label (.ok request) before held reply)).issues ys).Sublist
      (issues { feed := { capacity } } all) := by
    show List.Sublist _ (Run.outputs act issued? _ all)
    rw [Run.outputs_append, Run.outputs_cons]
    exact (List.sublist_append_right _ _).trans (List.sublist_append_right _ _)
  have hnodup : (issues { feed := { capacity } } all).Nodup :=
    (List.nodup_append.1 (List.Nodup.of_map _ (enrolled_after capacity all).once)).1
  have heq : ∀ c ∈ ((s.act (.start label (.ok request) before held reply)).issues ys).filter
      (·.number = s.begun), c = ⟨s.begun, label, request, before, held, reply⟩ := fun c hc => by
    obtain ⟨hc, hnumber⟩ := List.mem_filter.1 hc
    exact issued_eq_of_number_eq capacity all (hissues.subset hc)
      (mem_submissions_start capacity xs label request before held reply ys)
      (of_decide_eq_true hnumber)
  have hreplicate := List.eq_replicate_of_mem heq
  have hle := List.nodup_replicate.1 (hreplicate ▸ (hnodup.sublist hissues).filter _)
  rw [hreplicate]
  exact (List.replicate_sublist_replicate _).2 hle

/-- The call that holds the gate is known by its number, and was issued. -/
theorem inFlight_start (ys : List Act) {c : Call} :
    let s := xs.foldl act { feed := { capacity } }
    let s' := s.act (.start label (.ok request) before held reply)
    (ys.foldl act s').inFlight = some c → c.number = s.begun →
      c = ⟨s.begun, label, request, before, held, reply⟩ ∧ c ∈ s'.issues ys := by
  intro s s' hc hn
  have hissued : c ∈ s'.issues ys := by
    refine (mem_issues_of_inFlight hc).resolve_left fun hi => ?_
    have hlt : c.number < s.begun := number_lt_of_inFlight capacity xs hi
    exact Nat.ne_of_lt hlt hn
  have hsublist := issues_start_sublist capacity xs label request before held reply ys
  refine ⟨List.mem_singleton.1 (hsublist.subset ?_), hissued⟩
  exact List.mem_filter.2 ⟨hissued, decide_eq_true hn⟩

end

end Dispatcher

end SystemdControl
