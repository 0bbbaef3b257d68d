import Mathlib.Data.List.DropRight
import SystemdControl.Proofs.Job.Request
import SystemdControl.Session.Basic

/-!
# Full names of units

A text that a caller writes for a unit is checked without the blanks around it, and completed after
that. What the completion adds breaks one rule only: where the text ends in a dot, the dot of the
added suffix makes two of them.

* `UnitName.canonicalize_eq_ok_iff` says which texts are accepted, and what they stand for;
* `UnitName.WellFormed` are the rules that every full name obeys (`WellFormed.complete`), and
  `UnitName.parents_complete_iff` is about the one that a full name may break;
* `UnitName.accepted_name_kept`: a full name is accepted again as it is, unless it breaks that
  rule.
-/

namespace SystemdControl

/-! ## Blanks around a text -/

namespace Blank

variable {cs : List Char} {c : Char}

/-- No blank stands at either end. -/
def Trimmed (cs : List Char) : Prop :=
  (∀ c ∈ cs.head?, isBlank c = false) ∧ ∀ c ∈ cs.getLast?, isBlank c = false

open List in
/-- What is left begins as the text without its first blanks does. -/
theorem stripChars_start (cs : List Char) : stripChars cs <+: cs.dropWhile isBlank :=
  rdropWhile_prefix isBlank _

theorem stripChars_infix (cs : List Char) : stripChars cs <:+: cs :=
  (stripChars_start cs).isInfix.trans (cs.dropWhile_suffix isBlank).isInfix

theorem stripChars_of_trimmed (h : Trimmed cs) : stripChars cs = cs := by
  have hfront : cs.dropWhile isBlank = cs := by
    cases cs with
    | nil => rfl
    | cons c cs => exact List.dropWhile_cons_of_neg (by simp [h.1 c rfl])
  have hback : cs.rdropWhile isBlank = cs :=
    List.rdropWhile_eq_self_iff.2 fun hne => by
      simp [h.2 _ (List.getLast_mem_getLast? hne)]
  exact (congrArg (List.rdropWhile isBlank) hfront).trans hback

theorem trimmed_stripChars (cs : List Char) : Trimmed (stripChars cs) := by
  have hfront := List.head?_dropWhile_not isBlank cs
  constructor
  · intro c hc
    have hhead : (cs.dropWhile isBlank).head? = some c := by
      obtain ⟨rest, hrest⟩ := stripChars_start cs
      rw [← hrest, List.head?_append, Option.mem_def.1 hc, Option.some_or]
    simpa [hhead] using hfront
  · intro c hc
    obtain ⟨hne, rfl⟩ := List.mem_getLast?_eq_getLast hc
    exact Bool.eq_false_iff.2 (List.rdropWhile_last_not isBlank _ hne)

end Blank

/-! ## Pairs of dots -/

section

variable {α : Type} {a x : α} {xs ys : List α}

theorem pair_prefix_cons_iff : [a, a] <+: x :: xs ↔ a = x ∧ xs.head? = some a := by
  cases xs <;> simp [List.cons_prefix_cons, eq_comm]

/-- A letter is doubled in a text that goes on with it if it is doubled before that or from there
on, or the text ends in it. -/
theorem pair_infix_append_cons_iff :
    [a, a] <:+: xs ++ a :: ys ↔ [a, a] <:+: xs ∨ xs.getLast? = some a ∨ [a, a] <:+: a :: ys := by
  induction xs with
  | nil => simp
  | cons x xs ih =>
    have hhead : (xs ++ a :: ys).head? = some a ↔ xs = [] ∨ xs.head? = some a := by
      cases xs <;> simp
    have hlast : (x :: xs).getLast? = some a ↔ xs = [] ∧ a = x ∨ xs.getLast? = some a := by
      cases xs <;> simp [eq_comm]
    have hbefore : [a, a] <:+: x :: xs ↔ a = x ∧ xs.head? = some a ∨ [a, a] <:+: xs := by
      rw [List.infix_cons_iff, pair_prefix_cons_iff]
    rw [List.cons_append, List.infix_cons_iff, pair_prefix_cons_iff, ih, hhead, hlast, hbefore]
    grind

end

namespace UnitName

variable {text name : String} {t : List Char}

theorem hasType_append_service (ht : t ≠ []) : hasType (t ++ ".service".toList) = true := by
  refine List.any_eq_true.2 ⟨".service", List.mem_cons_self, ?_⟩
  have hlength : 0 < t.length := List.length_pos_iff.2 ht
  simp only [List.length_append, Bool.and_eq_true, decide_eq_true_eq, List.isSuffixOf_iff_suffix]
  exact ⟨Nat.lt_add_of_pos_left hlength, List.suffix_append ..⟩

/-! ## Which texts are accepted -/

/-- The rules for the name of a unit, but for the one about parent references. -/
structure WellFormed (name : String) : Prop where
  printable : ∀ c ∈ name.toList, Control.isControl c = false
  trimmed : Blank.Trimmed name.toList
  nonempty : name ≠ ""
  noSeparator : ∀ c ∈ name.toList, c ≠ '/' ∧ c ≠ '\\'

/-- Two dots stand beside each other. -/
def Parents (name : String) : Prop :=
  ['.', '.'] <:+: name.toList

theorem guard_eq_ok_iff {ε α : Type} {c : Prop} [Decidable c] {e : ε} {next : PUnit → Except ε α}
    {a : α} : (if c then throw e >>= next else next ⟨⟩) = .ok a ↔ ¬ c ∧ next ⟨⟩ = .ok a := by
  split
  · rename_i hc
    exact iff_of_false nofun fun h => h.1 hc
  · rename_i hc
    exact (and_iff_right hc).symm

theorem ensurePrintable_eq_ok_iff {what : String} {u : Unit} :
    ensurePrintable what text = .ok u ↔ ∀ c ∈ text.toList, Control.isControl c = false := by
  rw [← Control.first?_eq_none_iff, ensurePrintable]
  cases Control.first? text <;> simp

/-- A text is accepted if it has no control character anywhere and obeys the other rules without the
blanks around it; it stands for its completion. -/
theorem canonicalize_eq_ok_iff :
    canonicalize text = .ok name ↔
      (∀ c ∈ text.toList, Control.isControl c = false) ∧ Blank.strip text ≠ "" ∧
      (∀ c ∈ (Blank.strip text).toList, c ≠ '/' ∧ c ≠ '\\') ∧ ¬ Parents (Blank.strip text) ∧
      name = complete (Blank.strip text) := by
  have hempty : (Blank.strip text).isEmpty = true ↔ Blank.strip text = "" := String.isEmpty_iff
  have hseparator : ((Blank.strip text).toList.any fun c => c = '/' || c = '\\') = true ↔
      ¬ ∀ c ∈ (Blank.strip text).toList, c ≠ '/' ∧ c ≠ '\\' := by
    simp [← not_or]
  have hparents : Part.inText ".." (Blank.strip text) = true ↔ Parents (Blank.strip text) :=
    Part.occurs_iff
  rw [canonicalize, bind_eq_ok_iff]
  simp only [ensurePrintable_eq_ok_iff, guard_eq_ok_iff, hempty, hseparator, hparents, not_not,
    exists_const]
  refine and_congr_right fun _ => and_congr_right fun _ => and_congr_right fun _ =>
    and_congr_right fun _ => ?_
  exact ⟨fun h => (Except.ok.inj h).symm, fun h => congrArg Except.ok h.symm⟩

/-! ## Full names -/

namespace WellFormed

theorem strip_eq (h : WellFormed name) : Blank.strip name = name :=
  String.toList_injective ((Blank.toList_strip name).trans (Blank.stripChars_of_trimmed h.trimmed))

/-- What is left of an accepted text obeys the rules. -/
theorem strip (hprint : ∀ c ∈ text.toList, Control.isControl c = false)
    (hne : Blank.strip text ≠ "")
    (hsep : ∀ c ∈ (Blank.strip text).toList, c ≠ '/' ∧ c ≠ '\\') :
    WellFormed (Blank.strip text) where
  printable c hc := by
    rw [Blank.toList_strip] at hc
    exact hprint c ((Blank.stripChars_infix _).subset hc)
  trimmed := by
    rw [Blank.toList_strip]
    exact Blank.trimmed_stripChars _
  nonempty := hne
  noSeparator := hsep

/-- A service suffix brings in nothing that is forbidden. -/
theorem append_service (h : WellFormed name) : WellFormed (name ++ ".service") where
  printable c hc := by
    rw [String.toList_append, List.mem_append] at hc
    refine hc.elim (h.printable c) fun hc => ?_
    have hall : ".service".toList.all (!Control.isControl ·) = true := by decide
    simpa using List.all_eq_true.1 hall c hc
  trimmed := by
    have hhead : (name ++ ".service").toList.head? = name.toList.head? := by
      rw [String.toList_append, List.head?_append_of_ne_nil _ fun he =>
        h.nonempty (String.toList_eq_nil_iff.1 he)]
    have hlast : (name ++ ".service").toList.getLast? = some 'e' := by
      rw [String.toList_append, List.getLast?_append]
      rfl
    refine ⟨hhead ▸ h.trimmed.1, fun c hc => ?_⟩
    rw [hlast, Option.mem_some_iff] at hc
    exact hc ▸ by decide
  nonempty he := h.nonempty (by simpa using congrArg String.toList he)
  noSeparator c hc := by
    rw [String.toList_append, List.mem_append] at hc
    refine hc.elim (h.noSeparator c) fun hc => ?_
    have hall : ".service".toList.all (fun c => c ≠ '/' && c ≠ '\\') = true := by decide
    simpa using List.all_eq_true.1 hall c hc

protected theorem complete (h : WellFormed name) : WellFormed (complete name) := by
  unfold UnitName.complete
  split
  · exact h
  · exact h.append_service

/-- A name that obeys the rules and has a type is accepted as it is, unless it refers to a
parent. -/
theorem canonicalize_eq (h : WellFormed name) (ht : hasType name.toList = true) :
    (canonicalize name = .ok name ↔ ¬ Parents name) ∧
      (Parents name → canonicalize name = .error (.invalidInput .unitParentReference)) := by
  have hcomplete : complete name = name := if_pos ht
  refine ⟨?_, fun hp => ?_⟩
  · rw [canonicalize_eq_ok_iff, h.strip_eq, hcomplete]
    exact ⟨fun hok => hok.2.2.2.1, fun hp => ⟨h.printable, h.nonempty, h.noSeparator, hp, rfl⟩⟩
  · have hprint : ensurePrintable "unit" name = .ok () := ensurePrintable_eq_ok_iff.2 h.printable
    have hempty : ¬ name.isEmpty = true := fun he => h.nonempty (String.isEmpty_iff.1 he)
    have hseparator : ¬ (name.toList.any fun c => c = '/' || c = '\\') = true := by
      simpa [← not_or] using h.noSeparator
    have hparents : Part.inText ".." name = true := Part.occurs_iff.2 hp
    simp only [canonicalize, hprint, h.strip_eq, if_neg hempty, if_neg hseparator, if_pos hparents]
    rfl

end WellFormed

/-- A completed name has a type. -/
theorem hasType_complete (hne : name ≠ "") : hasType (complete name).toList = true := by
  unfold complete
  split
  · assumption
  · rw [String.toList_append]
    exact hasType_append_service fun he => hne (String.toList_eq_nil_iff.1 he)

/-- A name that ends in a dot has no type. -/
theorem hasType_of_getLast? (h : t.getLast? = some '.') : hasType t = false := by
  refine Bool.eq_false_iff.2 fun ht => ?_
  rw [hasType, List.any_eq_true] at ht
  obtain ⟨s, hs, hsuffix⟩ := ht
  obtain ⟨stem, hstem⟩ : s.toList <:+ t := by simpa using (Bool.and_eq_true_iff.1 hsuffix).2
  have hlast : ∀ s ∈ suffixes, s.toList ≠ [] ∧ s.toList.getLast? ≠ some '.' := by decide
  obtain ⟨hne, hdot⟩ := hlast s hs
  rw [← hstem, List.getLast?_append_of_ne_nil _ hne] at h
  exact hdot h

/-- To complete a name makes two dots of one at its end, and no other pair. -/
theorem parents_complete_iff (hp : ¬ Parents name) :
    Parents (complete name) ↔ name.toList.getLast? = some '.' := by
  unfold complete
  split
  · rename_i ht
    refine iff_of_false hp fun hdot => ?_
    rw [hasType_of_getLast? hdot] at ht
    cases ht
  · have hservice : ".service".toList = '.' :: "service".toList := by decide
    have hpair : ¬ ['.', '.'] <:+: '.' :: "service".toList := by
      rw [← Part.occurs_iff]
      decide
    rw [Parents, String.toList_append, hservice, pair_infix_append_cons_iff]
    exact (or_iff_right hp).trans (or_iff_left hpair)

/-! ## Names that reach the manager -/

theorem request_unit {ask : Ask} {mode : StartMode} {request : JobRequest}
    (h : ask.request? text mode = .ok request) : canonicalize text = .ok request.unit := by
  cases ask with
  | method m =>
    obtain ⟨name, hname, rfl⟩ := JobRequest.method?_eq_ok_iff.1 h
    exact hname
  | transient properties =>
    obtain ⟨name, hname, -, rfl⟩ := JobRequest.transient?_eq_ok_iff.1 h
    exact hname

/-- A full name obeys the rules and is accepted again, as it is, with one exception: two dots stand
beside each other in it, and it is refused, if and only if the text that it was made of ends in a
dot. So it is with the unit of every request that can be sent. -/
theorem accepted_name_kept (h : canonicalize text = .ok name) :
    WellFormed name ∧
    (Parents name ↔ (Blank.strip text).toList.getLast? = some '.') ∧
    (canonicalize name = .ok name ↔ (Blank.strip text).toList.getLast? ≠ some '.') ∧
    ((Blank.strip text).toList.getLast? = some '.' → name = Blank.strip text ++ ".service" ∧
      canonicalize name = .error (.invalidInput .unitParentReference)) ∧
    (∀ (ask : Ask) mode request, ask.request? text mode = .ok request → request.unit = name) ∧
    ∀ who signal request,
      KillRequest.make? text who signal = .ok request → request.unit = name := by
  obtain ⟨hprint, hne, hsep, hp, hname⟩ := canonicalize_eq_ok_iff.1 h
  rw [hname] at h ⊢
  have hformed : WellFormed (complete (Blank.strip text)) :=
    (WellFormed.strip hprint hne hsep).complete
  have hparents := parents_complete_iff hp
  obtain ⟨hok, hrefused⟩ := hformed.canonicalize_eq (hasType_complete hne)
  refine ⟨hformed, hparents, hok.trans (not_congr hparents), fun hdot => ⟨?_, ?_⟩,
    fun ask mode request hr => ?_, fun who signal request hr => ?_⟩
  · rw [complete, hasType_of_getLast? hdot, if_neg Bool.false_ne_true]
  · exact hrefused (hparents.2 hdot)
  · exact Except.ok.inj ((request_unit hr).symm.trans h)
  · obtain ⟨name, hname, -, rfl⟩ := KillRequest.make?_eq_ok_iff.1 hr
    exact Except.ok.inj (hname.symm.trans h)

/-- A name with a dot in it, between two blanks. -/
theorem accepted_name_kept_between_blanks :
    canonicalize "\u2003app.v2 " = .ok "app.v2.service" ∧
      WellFormed "app.v2.service" ∧ ¬ Parents "app.v2.service" ∧
      canonicalize "app.v2.service" = .ok "app.v2.service" := by
  have h : canonicalize "\u2003app.v2 " = .ok "app.v2.service" := by decide +kernel
  have hdot : (Blank.strip "\u2003app.v2 ").toList.getLast? ≠ some '.' := by decide +kernel
  obtain ⟨hformed, hparents, hagain, -⟩ := accepted_name_kept h
  exact ⟨h, hformed, fun hp => hdot (hparents.1 hp), hagain.2 hdot⟩

/-- A text that ends in a dot is accepted, and stands for a name that is not. -/
theorem name_of_final_dot_refused :
    canonicalize "a." = .ok "a..service" ∧ Parents "a..service" ∧
      canonicalize "a..service" = .error (.invalidInput .unitParentReference) ∧
      (Ask.method .start).request? "a." .replace = .ok (.method .start "a..service" .replace) := by
  refine ⟨by decide +kernel, Part.occurs_iff.1 (by decide), by decide +kernel, by decide +kernel⟩

end UnitName

end SystemdControl
