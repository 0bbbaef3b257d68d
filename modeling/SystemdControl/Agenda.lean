/-!
# Agendas

Those who can go on, in the order in which they were roused. Each goes on for as long as it can and
then makes room for the next. Who is roused again before its turn keeps its place, so nobody stands
on an agenda twice.

* `Agenda.rouse` and `Agenda.rouseAll` put someone behind all who can go on already;
* `Agenda.next?` is the one whose turn it is, `Agenda.dismiss` sends it away.
-/

namespace SystemdControl

/-- Those who can go on, the one whose turn it is first. -/
structure Agenda (α : Type) where
  toList : List α
  /-- Nobody stands on it twice. -/
  nodup : toList.Nodup

namespace Agenda

variable {α : Type}

/-- The agenda on which nobody stands. -/
def empty : Agenda α :=
  ⟨[], .nil⟩

variable (a : Agenda α)

/-- How many can go on. -/
def size : Nat :=
  a.toList.length

/-- The one whose turn it is. -/
def next? : Option α :=
  a.toList.head?

/-- The turn of the first is over. -/
def dismiss : Agenda α :=
  ⟨a.toList.tail, a.nodup.sublist (List.tail_sublist _)⟩

@[simp] theorem toList_dismiss : a.dismiss.toList = a.toList.tail := rfl

variable [DecidableEq α]

/-- Puts someone behind all who can go on already, unless it is one of them. -/
def rouse (x : α) : Agenda α :=
  if h : x ∈ a.toList then a
  else ⟨a.toList ++ [x], by
    refine List.nodup_append.2 ⟨a.nodup, by simp, fun y hy z hz => ?_⟩
    rw [List.mem_singleton.1 hz]
    exact fun e => h (e ▸ hy)⟩

/-- Rouses some, one after the other. -/
def rouseAll (xs : List α) : Agenda α :=
  xs.foldl (fun a x => a.rouse x) a

variable {a}

@[simp] theorem mem_rouse {x y : α} : y ∈ (a.rouse x).toList ↔ y ∈ a.toList ∨ y = x := by
  unfold rouse
  split
  · rename_i h
    exact ⟨.inl, fun hy => hy.elim id fun e => e ▸ h⟩
  · simp

/-- Whoever could go on keeps its place. -/
theorem toList_prefix_rouse (x : α) : a.toList <+: (a.rouse x).toList := by
  unfold rouse
  split
  · exact List.prefix_refl _
  · exact List.prefix_append ..

@[simp] theorem mem_rouseAll {xs : List α} {y : α} :
    y ∈ (a.rouseAll xs).toList ↔ y ∈ a.toList ∨ y ∈ xs := by
  induction xs generalizing a with
  | nil => simp [rouseAll]
  | cons x xs ih =>
    have h := ih (a := a.rouse x)
    simp only [rouseAll, List.foldl_cons, List.mem_cons] at h ⊢
    rw [h, mem_rouse, or_assoc]

end Agenda

end SystemdControl
