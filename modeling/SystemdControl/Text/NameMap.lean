/-!
# Maps keyed by a name

A finite map from texts to values, kept as a list in strictly ascending order of the keys. Texts
are ordered by code points, which is the order of their UTF-8 bytes.

* `get?_insert`, `get?_erase`, `get?_empty`: what the operations do to the look-up;
* `NameMap.ext`: a map is determined by its look-up, so no other trace of its history is left.
-/

namespace SystemdControl

/-- A finite map with one value per name, in strictly ascending order of the names. -/
structure NameMap (α : Type) where
  toList : List (String × α)
  sorted : toList.Pairwise fun a b => a.1 < b.1

namespace NameMap

variable {α β : Type}

/-! ## Sorted association lists -/

/-- Puts `v` under `k`, in place of a value already there. -/
def insertList (k : String) (v : α) : List (String × α) → List (String × α)
  | [] => [(k, v)]
  | e :: rest =>
    if k < e.1 then (k, v) :: e :: rest
    else if e.1 < k then e :: insertList k v rest
    else (k, v) :: rest

theorem mem_insertList {k : String} {v : α} {l : List (String × α)} {e : String × α}
    (h : e ∈ insertList k v l) : e = (k, v) ∨ e ∈ l := by
  induction l with
  | nil => simpa [insertList] using h
  | cons x rest ih =>
    simp only [insertList] at h
    split at h
    · simpa using h
    · split at h
      · rcases List.mem_cons.1 h with h | h
        · simp [h]
        · rcases ih h with h | h <;> simp [h]
      · rcases List.mem_cons.1 h with h | h <;> simp [h]

theorem sorted_insertList (k : String) (v : α) {l : List (String × α)}
    (h : l.Pairwise fun a b => a.1 < b.1) : (insertList k v l).Pairwise fun a b => a.1 < b.1 := by
  induction l with
  | nil => simp [insertList]
  | cons x rest ih =>
    have hr := List.pairwise_cons.1 h
    simp only [insertList]
    split
    · rename_i hk
      refine List.pairwise_cons.2 ⟨fun e he => ?_, h⟩
      rcases List.mem_cons.1 he with rfl | he
      · exact hk
      · exact String.lt_trans hk (hr.1 e he)
    · split
      · rename_i hx
        refine List.pairwise_cons.2 ⟨fun e he => ?_, ih hr.2⟩
        rcases mem_insertList he with rfl | he
        · exact hx
        · exact hr.1 e he
      · rename_i h₁ h₂
        have hk : k = x.1 := String.le_antisymm (String.not_lt.1 h₂) (String.not_lt.1 h₁)
        exact List.pairwise_cons.2 ⟨fun e he => hk ▸ hr.1 e he, hr.2⟩

/-- The value under `name` in an association list: the first one. -/
def find (name : String) : List (String × α) → Option α
  | [] => none
  | e :: rest => if name = e.1 then some e.2 else find name rest

/-! ## The map -/

/-- The map without entries. -/
def empty : NameMap α := ⟨[], .nil⟩

instance : Inhabited (NameMap α) := ⟨empty⟩

/-- The value under a name. -/
def get? (m : NameMap α) (name : String) : Option α :=
  find name m.toList

/-- Puts a value under a name, in place of a value already there. -/
def insert (m : NameMap α) (name : String) (v : α) : NameMap α :=
  ⟨insertList name v m.toList, sorted_insertList name v m.sorted⟩

/-- Takes a name out of the map. -/
def erase (m : NameMap α) (name : String) : NameMap α :=
  ⟨m.toList.filter (·.1 != name), m.sorted.filter _⟩

/-- The map of a list of entries; of two with one name, the later stays. -/
def ofList (entries : List (String × α)) : NameMap α :=
  entries.foldl (fun m e => m.insert e.1 e.2) empty

/-- The names in ascending order. -/
def names (m : NameMap α) : List String :=
  m.toList.map (·.1)

def size (m : NameMap α) : Nat :=
  m.toList.length

def isEmpty (m : NameMap α) : Bool :=
  m.toList.isEmpty

def contains (m : NameMap α) (name : String) : Bool :=
  (m.get? name).isSome

/-- Applies `f` to every value. -/
def map (f : α → β) (m : NameMap α) : NameMap β :=
  ⟨m.toList.map fun e => (e.1, f e.2), List.pairwise_map.2 (m.sorted.imp id)⟩

/-! ## Look-up -/

@[simp] theorem get?_empty (name : String) : (empty : NameMap α).get? name = none := rfl

theorem find_insertList (k : String) (v : α) (l : List (String × α)) (name : String) :
    find name (insertList k v l) = if name = k then some v else find name l := by
  induction l with
  | nil => simp [insertList, find]
  | cons x rest ih =>
    simp only [insertList]
    split
    · simp [find]
    · split
      · rename_i hx
        have hne : x.1 ≠ k := fun e => String.lt_irrefl k (e ▸ hx)
        by_cases h : name = x.1
        · simp [find, h, hne]
        · simp [find, h, ih]
      · rename_i h₁ h₂
        have hk : k = x.1 := String.le_antisymm (String.not_lt.1 h₂) (String.not_lt.1 h₁)
        by_cases h : name = x.1 <;> simp [find, hk, h]

theorem get?_insert (m : NameMap α) (k : String) (v : α) (name : String) :
    (m.insert k v).get? name = if name = k then some v else m.get? name :=
  find_insertList k v m.toList name

theorem get?_erase (m : NameMap α) (k name : String) :
    (m.erase k).get? name = if name = k then none else m.get? name := by
  simp only [get?, erase]
  induction m.toList with
  | nil => simp [find]
  | cons x rest ih =>
    by_cases hx : x.1 = k
    · simp only [hx, List.filter_cons, bne_self_eq_false, Bool.false_eq_true, if_false, ih, find]
      by_cases h : name = k <;> simp [h]
    · simp only [List.filter_cons, bne_iff_ne, ne_eq, hx, not_false_eq_true, if_true, find, ih]
      by_cases h : name = x.1 <;> simp [h, hx]

theorem mem_of_get? {m : NameMap α} {name : String} {v : α} (h : m.get? name = some v) :
    (name, v) ∈ m.toList := by
  simp only [get?] at h
  generalize m.toList = l at h
  induction l with
  | nil => simp [find] at h
  | cons x rest ih =>
    simp only [find] at h
    split at h
    · rename_i hx
      simp only [Option.some.injEq] at h
      simp [hx, ← h]
    · exact List.mem_cons_of_mem _ (ih h)

theorem get?_of_mem {m : NameMap α} {name : String} {v : α} (h : (name, v) ∈ m.toList) :
    m.get? name = some v := by
  have hs := m.sorted
  simp only [get?]
  generalize m.toList = l at h hs
  induction l with
  | nil => simp at h
  | cons x rest ih =>
    have hr := List.pairwise_cons.1 hs
    rcases List.mem_cons.1 h with rfl | h
    · simp [find]
    · have hlt := hr.1 (name, v) h
      have hne : name ≠ x.1 := fun e => String.lt_irrefl name (by simp [← e] at hlt)
      simp [find, hne, ih h hr.2]

/-- A sorted list is determined by its members. -/
theorem eq_of_mem_iff {l₁ l₂ : List (String × α)} (h₁ : l₁.Pairwise fun a b => a.1 < b.1)
    (h₂ : l₂.Pairwise fun a b => a.1 < b.1) (h : ∀ e, e ∈ l₁ ↔ e ∈ l₂) : l₁ = l₂ := by
  induction l₁ generalizing l₂ with
  | nil =>
    cases l₂ with
    | nil => rfl
    | cons y _ => exact absurd ((h y).2 List.mem_cons_self) List.not_mem_nil
  | cons x r₁ ih =>
    cases l₂ with
    | nil => exact absurd ((h x).1 List.mem_cons_self) List.not_mem_nil
    | cons y r₂ =>
      have p₁ := List.pairwise_cons.1 h₁
      have p₂ := List.pairwise_cons.1 h₂
      have hxy : x = y := by
        rcases List.mem_cons.1 ((h x).1 List.mem_cons_self) with e | hx
        · exact e
        · rcases List.mem_cons.1 ((h y).2 List.mem_cons_self) with e | hy
          · exact e.symm
          · exact absurd (p₂.1 x hx) (String.lt_asymm (p₁.1 y hy))
      subst hxy
      have irr (e : String × α) : ¬ e.1 < e.1 := String.lt_irrefl e.1
      rw [ih p₁.2 p₂.2 fun e => ?_]
      constructor
      · intro he
        rcases List.mem_cons.1 ((h e).1 (List.mem_cons_of_mem _ he)) with rfl | he'
        · exact absurd (p₁.1 e he) (irr e)
        · exact he'
      · intro he
        rcases List.mem_cons.1 ((h e).2 (List.mem_cons_of_mem _ he)) with rfl | he'
        · exact absurd (p₂.1 e he) (irr e)
        · exact he'

/-- Two maps with the same look-up are equal. -/
theorem ext {m₁ m₂ : NameMap α} (h : ∀ name, m₁.get? name = m₂.get? name) : m₁ = m₂ := by
  have hl : m₁.toList = m₂.toList := eq_of_mem_iff m₁.sorted m₂.sorted fun e =>
    ⟨fun he => mem_of_get? ((h e.1) ▸ get?_of_mem he),
      fun he => mem_of_get? ((h e.1) ▸ get?_of_mem he)⟩
  cases m₁
  cases m₂
  simp_all

end NameMap

end SystemdControl
