import SystemdControl.Proofs.Job.Dispatcher.Trail
import SystemdControl.Session.Blocking

/-!
# The acts of a session

Whatever a session does to its jobs is a run of acts. So what holds after every run of acts holds at
every moment of every session, whether its steps are answered at once or wait.

* `Dispatcher.Reaches`: some acts lead from one state to another; `Dispatcher.Drifts`: those who go
  on by themselves do, as in `Session.settle_drifts` and `Blocking.awaitUntil_drifts`;
* `Session.step_reaches` and `Blocking.step_reaches`: every step of a session is such a run;
* `Session.exists_trail`: the dispatcher of a session is that of a trail.
-/

namespace SystemdControl

namespace Dispatcher

/-- Some acts lead from one state to another. -/
def Reaches (s s' : Dispatcher) : Prop :=
  ∃ xs : List Act, s' = xs.foldl act s

namespace Reaches

variable {s s' s'' : Dispatcher}

@[refl] theorem refl (s : Dispatcher) : Reaches s s :=
  ⟨[], rfl⟩

theorem trans (h : Reaches s s') (h' : Reaches s' s'') : Reaches s s'' := by
  obtain ⟨xs, rfl⟩ := h
  obtain ⟨ys, rfl⟩ := h'
  exact ⟨xs ++ ys, List.foldl_append.symm⟩

theorem act (s : Dispatcher) (x : Act) : Reaches s (s.act x) :=
  ⟨[x], rfl⟩

/-- What no act undoes holds on. -/
theorem keeps {P : Dispatcher → Prop} (hP : ∀ s x, P s → P (s.act x)) (h : Reaches s s')
    (hs : P s) : P s' := by
  obtain ⟨xs, rfl⟩ := h
  induction xs generalizing s with
  | nil => exact hs
  | cons x xs ih => exact ih (hP s x hs)

end Reaches

/-- Whether an act is of those who go on by themselves. -/
def Act.isOwn : Act → Bool
  | alarm _ | withGuests _ | move .. | pause _ => true
  | _ => false

/-- Those who go on by themselves lead from one state to another. -/
def Drifts (s s' : Dispatcher) : Prop :=
  ∃ xs : List Act, (∀ x ∈ xs, x.isOwn = true) ∧ s' = xs.foldl act s

namespace Drifts

variable {s s' s'' : Dispatcher}

@[refl] theorem refl (s : Dispatcher) : Drifts s s :=
  ⟨[], List.forall_mem_nil _, rfl⟩

theorem trans (h : Drifts s s') (h' : Drifts s' s'') : Drifts s s'' := by
  obtain ⟨xs, hxs, rfl⟩ := h
  obtain ⟨ys, hys, rfl⟩ := h'
  exact ⟨xs ++ ys, List.forall_mem_append.2 ⟨hxs, hys⟩, List.foldl_append.symm⟩

theorem act (s : Dispatcher) {x : Act} (hx : x.isOwn = true) : Drifts s (s.act x) :=
  ⟨[x], List.forall_mem_singleton.2 hx, rfl⟩

theorem reaches (h : Drifts s s') : Reaches s s' := by
  obtain ⟨xs, -, rfl⟩ := h
  exact ⟨xs, rfl⟩

end Drifts

variable {s s' : Dispatcher}

theorem step?_drifts {now : Nat} (h : s.step? now = some s') : Drifts s s' := by
  obtain ⟨actor, -, rfl⟩ := Option.map_eq_some_iff.1 h
  cases hm : s.move? now actor with
  | none => exact @Drifts.act s (.pause actor) rfl
  | some s' =>
    have hact : s.act (.move now actor) = s' := by rw [act, hm, Option.getD_some]
    exact hact ▸ @Drifts.act s (.move now actor) rfl

theorem steps_drifts (now n : Nat) (s : Dispatcher) : Drifts s (steps now n s) := by
  induction n generalizing s with
  | zero => exact .refl s
  | succ n ih =>
    unfold steps
    split
    · exact .refl s
    · rename_i s' h
      exact (step?_drifts h).trans (ih s')

end Dispatcher

namespace Session

open Dispatcher

variable (s : Session)

theorem settle_drifts : Drifts s.jobs s.settle.jobs :=
  ((@Drifts.act s.jobs (.alarm s.now) rfl).trans (@Drifts.act _ (.withGuests _) rfl)).trans
    (steps_drifts ..)

theorem settle_reaches : Reaches s.jobs s.settle.jobs :=
  s.settle_drifts.reaches

theorem moveTo_drifts (now : Nat) : Drifts s.jobs (s.moveTo now).jobs :=
  settle_drifts { s with now }

theorem advance_drifts (n : Nat) : Drifts s.jobs (advance n s).jobs := by
  induction n generalizing s with
  | zero => exact .refl _
  | succ n ih => exact (s.moveTo_drifts _).trans (ih _)

theorem advance_reaches (n : Nat) : Reaches s.jobs (advance n s).jobs :=
  (s.advance_drifts n).reaches

theorem drop_reaches (label : String) : Reaches s.jobs (s.drop label).2.jobs := by
  unfold drop
  split
  · split <;> exact .refl _
  · rename_i what jobs _ h
    have hact : s.jobs.act (.drop label) = jobs := by
      rw [act, h]
    exact hact ▸ Reaches.act s.jobs (.drop label)

/-- What is done with a subscription leaves the jobs alone. -/
theorem withHeld_jobs (subscription : String) (f : Nat → Answer × Inventory) :
    (s.withHeld subscription f).2.jobs = s.jobs := by
  unfold withHeld
  split <;> rfl

theorem perform_reaches (x : Step) : Reaches s.jobs (s.perform x).2.jobs := by
  cases x with
  | start label unit mode ask before held reply => exact Reaches.act s.jobs (.start ..)
  | kill label unit who signal held fail => exact Reaches.act s.jobs (.kill ..)
  | release label => exact Reaches.act s.jobs (.release label)
  | wait label limit => exact Reaches.act s.jobs (.wait s.now label limit)
  | drop label => exact s.drop_reaches label
  | emit signals => exact Reaches.act s.jobs (.emit signals)
  | disconnect => exact Reaches.act s.jobs .disconnect
  | shutdown => exact Reaches.act s.jobs .requestStop
  | clone label access => exact Reaches.act s.jobs (.addHolder label access)
  | dropHolder label => exact Reaches.act s.jobs (.dropHolder label)
  | advance millis => exact s.advance_reaches millis
  | subscribe | pollStream =>
    rw [perform]
    split <;> exact .refl _
  | next | tryNextError | await | openStream | cancel | isCancelled =>
    rw [perform, withHeld_jobs]
  | options | inventory | list | listCalls | dropSubscription => exact .refl _

/-- A step of a session is a run of acts, the last of which forgets what has been reported. -/
theorem step_reaches (x : Step) : Reaches s.jobs (s.step x).2.jobs :=
  ((s.perform_reaches x).trans (settle_reaches _)).trans (Reaches.act _ .clear)

/-- A session after some steps. -/
def after (xs : List Step) : Session :=
  xs.foldl (fun s x => (s.step x).2) s

theorem after_cons (x : Step) (xs : List Step) : s.after (x :: xs) = (s.step x).2.after xs :=
  rfl

theorem after_append (xs ys : List Step) : s.after (xs ++ ys) = (s.after xs).after ys :=
  List.foldl_append

theorem after_reaches (xs : List Step) : Reaches s.jobs (s.after xs).jobs := by
  induction xs generalizing s with
  | nil => exact .refl _
  | cons x xs ih => exact (s.step_reaches x).trans (ih _)

/-- What is known of every trail is known of every session. -/
theorem exists_trail {options : BusOptions} (h : connect? options none = .ok s) (xs : List Step) :
    ∃ acts, (s.after xs).jobs = ((Trail.start options.capacity).after acts).jobs := by
  obtain ⟨acts, ha⟩ := s.after_reaches xs
  cases h
  refine ⟨acts, ha.trans ?_⟩
  rw [Trail.jobs_after]
  rfl

end Session

namespace Blocking

open Dispatcher

/-- A wait that is refused abandons its handle. -/
theorem refuse_reaches (s : Session) (x : Step) : Reaches s.jobs (refuse s x).jobs := by
  unfold refuse
  split
  · rename_i label _
    split
    · rename_i handle hg
      have hact : s.jobs.act (.drop label) = { s.jobs with
          handles := s.jobs.handles.remove label
          table := s.jobs.table.drop handle.ticket } := by
        rw [act, Dispatcher.drop, hg]
      exact hact ▸ Reaches.act s.jobs (.drop label)
    · exact .refl _
  · exact .refl _

theorem awaitUntil_drifts (label : String) (limit n : Nat) (s : Session) :
    Drifts s.jobs (awaitUntil label limit n s).2.jobs := by
  induction n generalizing s with
  | zero => exact .refl _
  | succ n ih =>
    unfold awaitUntil
    split
    · exact .refl _
    · split
      · exact (s.moveTo_drifts _).trans (ih _)
      · exact .refl _

/-- Waiting for the end of a step is nothing but letting the others go on. -/
theorem awaitEnding_drifts (s : Session) (x : Step) (label : String) :
    Drifts s.jobs (awaitEnding s.settle x label).2.jobs :=
  s.settle_drifts.trans (awaitUntil_drifts ..)

theorem awaitNext_jobs (s : Session) (key : Nat) (kind : StreamKind) :
    (awaitNext s key kind).2.jobs = s.jobs := by
  unfold awaitNext
  split <;> rfl

theorem perform_reaches (s : Session) (x : Step) : Reaches s.jobs (perform s x).2.jobs := by
  have hp := s.perform_reaches x
  have hend : ∀ label, Reaches s.jobs (awaitEnding (s.perform x).2.settle x label).2.jobs :=
    fun label => hp.trans (awaitEnding_drifts _ x label).reaches
  unfold perform
  split
  · split
    · exact .refl _
    · rw [awaitNext_jobs]
  · exact hend _
  · exact hend _
  · exact hend _
  · rename_i label _
    split
    · rename_i h
      rw [h] at hp
      exact hp
    · rename_i h
      have hwait := hend label
      rw [h] at hwait
      exact hwait
  · exact hp

/-- A step of a blocking session is a run of acts as well. -/
theorem step_reaches (executor : Executor) (s : Session) (x : Step) :
    Reaches s.jobs (step executor s x).2.jobs := by
  have hend : ∀ r : Answer × Session, Reaches s.jobs r.2.jobs →
      Reaches s.jobs r.2.settle.clear.jobs := fun r h =>
    (h.trans (Session.settle_reaches _)).trans (Reaches.act _ .clear)
  unfold step
  refine hend _ ?_
  split
  · exact perform_reaches s x
  · split
    · exact .refl _
    · split
      · exact refuse_reaches s x
      · exact s.perform_reaches x

end Blocking

end SystemdControl
