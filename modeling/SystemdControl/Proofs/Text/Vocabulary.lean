import Mathlib.Data.Set.Operations
import SystemdControl.Job.Result
import SystemdControl.Unit.State

/-!
# Vocabularies

The results of jobs and the two states of units are read in the same way: some texts stand for a
value of their own, and every other text is kept as it is. Each of the three types has a table of
the texts that it knows; both what is read and what is spelled is settled by that one table.

* `Vocabulary.texts` are the texts that are known;
* `Vocabulary.Faithful` says what a reader and a speller owe to a vocabulary and to each other,
  `Vocabulary.faithful` that they pay it if both go by the table;
* `JobResult.faithful`, `LoadState.faithful` and `ActiveState.faithful` are the three cases.
-/

namespace SystemdControl

/-- The texts that stand for a value of their own, and the value that keeps any other text. -/
structure Vocabulary (α : Type) where
  known : List (String × α)
  keep : String → α

namespace Vocabulary

variable {α : Type} {v : Vocabulary α} {parse : String → α} {spelling : α → String}

/-- The texts that are not just kept. -/
def texts (v : Vocabulary α) : List String :=
  v.known.map Prod.fst

theorem mem_texts {s : String} : s ∈ v.texts ↔ ∃ a, (s, a) ∈ v.known := by
  simp [texts]

/-- What a reader and a speller owe to a vocabulary and to each other. -/
structure Faithful (v : Vocabulary α) (parse : String → α) (spelling : α → String) : Prop where
  /-- Nothing of a text is lost. -/
  spelling_parse : ∀ s, spelling (parse s) = s
  /-- So no two texts are read as one. -/
  parse_injective : Function.Injective parse
  /-- A known value is what its very own text is read as, and no other text. -/
  parse_eq_known_iff : ∀ s a, (s, a) ∈ v.known → ∀ t, parse t = a ↔ t = s
  /-- A text that is kept is not a known one. -/
  parse_eq_keep_iff : ∀ s t, parse s = v.keep t ↔ s = t ∧ t ∉ v.texts
  /-- A value is got back from its spelling exactly if it is what some text is read as, -/
  parse_spelling_iff : ∀ a, parse (spelling a) = a ↔ a ∈ Set.range parse
  /-- which is so unless it keeps a known text. -/
  mem_range_iff : ∀ a, a ∈ Set.range parse ↔ ∀ t, a = v.keep t → t ∉ v.texts

/-- A reader and a speller that go by the table, for a type that has no other values. -/
theorem faithful (hspell : ∀ s, spelling (parse s) = s) (hknown : ∀ e ∈ v.known, parse e.1 = e.2)
    (hother : ∀ t, t ∉ v.texts → parse t = v.keep t) (hkeep : ∀ t, spelling (v.keep t) = t)
    (hdiffer : ∀ e ∈ v.known, ∀ t, e.2 ≠ v.keep t)
    (hall : ∀ a, (∃ s, (s, a) ∈ v.known) ∨ ∃ t, a = v.keep t) : v.Faithful parse spelling := by
  have hinj : Function.Injective parse := Function.LeftInverse.injective hspell
  -- No known text is read as one that is kept.
  have hkept : ∀ {s t}, parse s = v.keep t → s = t ∧ t ∉ v.texts := fun {s t} h => by
    have hst : s = t := by rw [← hspell s, h, hkeep]
    refine ⟨hst, fun ht => ?_⟩
    obtain ⟨a, ha⟩ := mem_texts.1 ht
    exact hdiffer _ ha t ((hknown _ ha).symm.trans (hst ▸ h))
  refine ⟨hspell, hinj, fun s a h t => ?known, fun s t => ?keep, fun a => ?roundTrip,
    fun a => ?range⟩
  case known => exact ⟨fun ht => hinj (ht.trans (hknown _ h).symm), fun ht => ht ▸ hknown _ h⟩
  case keep => exact ⟨hkept, fun ⟨hst, ht⟩ => hst ▸ hother t ht⟩
  case roundTrip => exact ⟨fun h => ⟨_, h⟩, fun ⟨s, hs⟩ => by rw [← hs, hspell]⟩
  case range =>
    constructor
    · rintro ⟨s, rfl⟩ t ht
      exact (hkept ht).2
    · intro h
      obtain ⟨s, hs⟩ | ⟨t, rfl⟩ := hall a
      · exact ⟨s, hknown _ hs⟩
      · exact ⟨t, hother t (h t rfl)⟩

end Vocabulary

/-! ## The three vocabularies -/

/-- The texts that say how a job ended. -/
def JobResult.vocabulary : Vocabulary JobResult where
  known := [("done", .done), ("canceled", .canceled), ("timeout", .timeout), ("failed", .failed),
    ("dependency", .dependency), ("skipped", .skipped)]
  keep := .other

theorem JobResult.faithful : vocabulary.Faithful parse spelling := by
  refine Vocabulary.faithful spelling_parse (by decide) (fun t ht => ?other) (fun _ => rfl)
    (by simp [vocabulary]) (fun a => ?all)
  case other => unfold parse; split <;> simp_all [Vocabulary.texts, vocabulary]
  case all => cases a <;> simp [vocabulary]

/-- The texts of load states. -/
def LoadState.vocabulary : Vocabulary LoadState where
  known := [("loaded", .loaded), ("not-found", .notFound), ("error", .error), ("masked", .masked),
    ("stub", .stub), ("merged", .merged), ("generated", .generated), ("transient", .transient),
    ("bad-setting", .badSetting)]
  keep := .unknown

theorem LoadState.faithful : vocabulary.Faithful parse spelling := by
  refine Vocabulary.faithful spelling_parse (by decide) (fun t ht => ?other) (fun _ => rfl)
    (by simp [vocabulary]) (fun a => ?all)
  case other => unfold parse; split <;> simp_all [Vocabulary.texts, vocabulary]
  case all => cases a <;> simp [vocabulary]

/-- The texts of active states. -/
def ActiveState.vocabulary : Vocabulary ActiveState where
  known := [("active", .active), ("reloading", .reloading), ("inactive", .inactive),
    ("failed", .failed), ("activating", .activating), ("deactivating", .deactivating),
    ("maintenance", .maintenance)]
  keep := .unknown

theorem ActiveState.faithful : vocabulary.Faithful parse spelling := by
  refine Vocabulary.faithful spelling_parse (by decide) (fun t ht => ?other) (fun _ => rfl)
    (by simp [vocabulary]) (fun a => ?all)
  case other => unfold parse; split <;> simp_all [Vocabulary.texts, vocabulary]
  case all => cases a <;> simp [vocabulary]

end SystemdControl
