/-!
# What runs give

A run goes from state to state, one act after the other, and each act may give something.

* `Run.outputs` is all that the acts of a run give, in order;
* `Run.stock_append_outputs`: where every act keeps the balance of what comes in, what is in stock
  and what goes out, so does a whole run, order included.
-/

namespace SystemdControl.Run

variable {σ α β : Type} {step : σ → α → σ} {out into : σ → α → Option β}

/-- What the acts of a run give, in order. -/
def outputs (step : σ → α → σ) (out : σ → α → Option β) (s : σ) : List α → List β
  | [] => []
  | x :: xs => (out s x).toList ++ outputs step out (step s x) xs

@[simp] theorem outputs_nil (s : σ) : outputs step out s [] = [] := rfl

@[simp] theorem outputs_cons (s : σ) (x : α) (xs : List α) :
    outputs step out s (x :: xs) = (out s x).toList ++ outputs step out (step s x) xs := rfl

theorem outputs_append (s : σ) (xs ys : List α) :
    outputs step out s (xs ++ ys) =
      outputs step out s xs ++ outputs step out (xs.foldl step s) ys := by
  induction xs generalizing s with
  | nil => rfl
  | cons x xs ih => rw [List.cons_append, outputs_cons, outputs_cons, ih, List.foldl_cons,
      List.append_assoc]

/-- Acts that give nothing from any state give nothing in a run. -/
theorem outputs_eq_nil {xs : List α} (h : ∀ x ∈ xs, ∀ s, out s x = none) (s : σ) :
    outputs step out s xs = [] := by
  induction xs generalizing s with
  | nil => rfl
  | cons x xs ih =>
    rw [outputs_cons, h x List.mem_cons_self, Option.toList_none, List.nil_append]
    exact ih (fun y hy => h y (List.mem_cons_of_mem _ hy)) _

/-- What was in stock and has come in is what has gone out and is in stock now. -/
theorem stock_append_outputs {stock : σ → List β}
    (h : ∀ s x, stock s ++ (into s x).toList = (out s x).toList ++ stock (step s x)) (s : σ)
    (xs : List α) :
    stock s ++ outputs step into s xs = outputs step out s xs ++ stock (xs.foldl step s) := by
  induction xs generalizing s with
  | nil => simp
  | cons x xs ih =>
    rw [outputs_cons, outputs_cons, ← List.append_assoc, h, List.append_assoc, ih,
      List.foldl_cons, List.append_assoc]

/-- Where each act gives at most what it gives otherwise, so does a run. -/
theorem outputs_sublist (h : ∀ s x, (out s x).toList.Sublist (into s x).toList) (s : σ)
    (xs : List α) : (outputs step out s xs).Sublist (outputs step into s xs) := by
  induction xs generalizing s with
  | nil => exact .slnil
  | cons x xs ih => exact (h s x).append (ih _)

end SystemdControl.Run
