import SystemdControl.Proofs.Unit.Name

/-!
# Which texts name a unit, and which unit

A text is refused for the first rule that it breaks; a text that breaks none stands for a full name.
Two texts stand for the same unit only if they are the same without the blanks around them, or the
one is the other with its type left out.

* `Control.first?_eq_some_iff` and `Blank.exists_stripped` say what the first control character of
  a text is, and what the blanks around it are;
* `UnitName.Refused` are the refusals in the order of the rules, and
  `UnitName.canonicalize_eq_error_iff` says that there are no others;
* `UnitName.Typed` is a name with one of the known types, `UnitName.complete_eq_complete_iff` says
  which names are completed to the same;
* `UnitName.canonicalize_exact` puts this together.
-/

namespace SystemdControl

/-! ## The first control character -/

namespace Control

/-- The characters of a class, among the control characters. -/
def Holds : Control → Char → Prop
  | nul, c => c = '\x00'
  | newline, c => c = '\n' ∨ c = '\r'
  | other, c => c ≠ '\x00' ∧ c ≠ '\n' ∧ c ≠ '\r'

/-- The control character of a text before which there is none. -/
def First (c : Char) (text : String) : Prop :=
  ∃ before after, text.toList = before ++ c :: after ∧ isControl c = true ∧
    ∀ b ∈ before, isControl b = false

theorem ofChar?_eq_some_iff {c : Char} {found : Control} :
    ofChar? c = some found ↔ isControl c = true ∧ found.Holds c := by
  cases hc : isControl c with
  | false => simp [ofChar?, hc]
  | true =>
    simp only [ofChar?, hc, if_true, true_and]
    split
    · rename_i hnul
      subst hnul
      cases found <;> simp [Holds]
    · split
      · cases found <;> grind [Holds]
      · cases found <;> grind [Holds]

/-- The class of a text is that of its first control character. -/
theorem first?_eq_some_iff {text : String} {found : Control} :
    first? text = some found ↔ ∃ c, First c text ∧ found.Holds c := by
  simp only [first?, List.findSome?_eq_some_iff, ofChar?_eq_some_iff, ofChar?_eq_none_iff, First]
  constructor
  · rintro ⟨before, c, after, htext, ⟨hc, hfound⟩, hbefore⟩
    exact ⟨c, ⟨before, after, htext, hc, hbefore⟩, hfound⟩
  · rintro ⟨c, ⟨before, after, htext, hc, hbefore⟩, hfound⟩
    exact ⟨before, c, after, htext, ⟨hc, hfound⟩, hbefore⟩

end Control

/-! ## What is stripped off -/

open List in
/-- Only blanks are stripped off a text, at its ends. -/
theorem Blank.exists_stripped (cs : List Char) :
    ∃ front back, cs = front ++ stripChars cs ++ back ∧ (∀ c ∈ front, isBlank c = true) ∧
      ∀ c ∈ back, isBlank c = true := by
  refine ⟨cs.takeWhile isBlank, (cs.dropWhile isBlank).rtakeWhile isBlank, ?_,
    fun c hc => mem_takeWhile_imp hc, fun c hc => mem_rtakeWhile_imp hc⟩
  calc cs = cs.takeWhile isBlank ++ cs.dropWhile isBlank := takeWhile_append_dropWhile.symm
    _ = cs.takeWhile isBlank ++ (stripChars cs ++ (cs.dropWhile isBlank).rtakeWhile isBlank) :=
      congrArg _ (rdropWhile_append_rtakeWhile ..).symm
    _ = _ := (append_assoc ..).symm

/-! ## Checks that fail -/

theorem bind_eq_error_iff {ε α β : Type} {check : Except ε α} {next : α → Except ε β} {e : ε} :
    (check >>= next) = .error e ↔ check = .error e ∨ ∃ a, check = .ok a ∧ next a = .error e := by
  cases check with
  | error e' =>
    have he : (.error e' >>= next : Except ε β) = .error e' := rfl
    simp [he]
  | ok a =>
    have he : (.ok a >>= next : Except ε β) = next a := rfl
    simp [he]

theorem guard_eq_error_iff {ε α : Type} {c : Prop} [Decidable c] {e e' : ε}
    {next : PUnit → Except ε α} :
    (if c then throw e >>= next else next ⟨⟩) = .error e' ↔
      c ∧ e' = e ∨ ¬ c ∧ next ⟨⟩ = .error e' := by
  split
  · rename_i hc
    have he : (throw e >>= next : Except ε α) = .error e := rfl
    simp [hc, he, eq_comm]
  · rename_i hc
    simp [hc]

theorem ensurePrintable_eq_error_iff {what text : String} {e : Error} :
    ensurePrintable what text = .error e ↔
      ∃ found, Control.first? text = some found ∧ e = .invalidInput (.control what found) := by
  rw [ensurePrintable]
  cases Control.first? text <;> simp [eq_comm]

namespace UnitName

variable {text name s t : String}

/-! ## Refusals -/

/-- No character of a text is a control character. -/
def Printable (text : String) : Prop :=
  ∀ c ∈ text.toList, Control.isControl c = false

/-- A character of a text separates the parts of a path. -/
def Separated (text : String) : Prop :=
  ∃ c ∈ text.toList, c = '/' ∨ c = '\\'

/-- The refusals of a text. The rules are taken one after the other: the first one is about the text
as it stands, the others about what is left without the blanks around it. -/
inductive Refused (text : String) : InputFault → Prop where
  | control {c : Char} {found : Control} (first : Control.First c text) (holds : found.Holds c) :
    Refused text (.control "unit" found)
  | empty (printable : Printable text) (empty : Blank.strip text = "") :
    Refused text .unitEmpty
  | separator (printable : Printable text) (nonempty : Blank.strip text ≠ "")
      (separated : Separated (Blank.strip text)) : Refused text .unitPathSeparator
  | parent (printable : Printable text) (nonempty : Blank.strip text ≠ "")
      (whole : ¬ Separated (Blank.strip text)) (parents : Parents (Blank.strip text)) :
    Refused text .unitParentReference

/-- A text is refused for the first rule that it breaks, and for nothing else. -/
theorem canonicalize_eq_error_iff {e : Error} :
    canonicalize text = .error e ↔ ∃ fault, e = .invalidInput fault ∧ Refused text fault := by
  have hempty : (Blank.strip text).isEmpty = true ↔ Blank.strip text = "" := String.isEmpty_iff
  have hseparator : ((Blank.strip text).toList.any fun c => c = '/' || c = '\\') = true ↔
      Separated (Blank.strip text) := by
    simp [Separated]
  have hparents : Part.inText ".." (Blank.strip text) = true ↔ Parents (Blank.strip text) :=
    Part.occurs_iff
  rw [canonicalize, bind_eq_error_iff]
  simp only [ensurePrintable_eq_error_iff, ensurePrintable_eq_ok_iff, guard_eq_error_iff, hempty,
    hseparator, hparents, Control.first?_eq_some_iff, exists_const]
  -- Each check is made only after the ones before it were passed.
  constructor
  · rintro (⟨found, ⟨c, hfirst, hholds⟩, rfl⟩ |
      ⟨hprint, ⟨he, rfl⟩ | ⟨hne, ⟨hsep, rfl⟩ | ⟨hwhole, ⟨hp, rfl⟩ | ⟨-, hend⟩⟩⟩⟩)
    · exact ⟨_, rfl, .control hfirst hholds⟩
    · exact ⟨_, rfl, .empty hprint he⟩
    · exact ⟨_, rfl, .separator hprint hne hsep⟩
    · exact ⟨_, rfl, .parent hprint hne hwhole hp⟩
    · cases hend
  · rintro ⟨fault, rfl, hrefused⟩
    cases hrefused with
    | control hfirst hholds => exact .inl ⟨_, ⟨_, hfirst, hholds⟩, rfl⟩
    | empty hprint he => exact .inr ⟨hprint, .inl ⟨he, rfl⟩⟩
    | separator hprint hne hsep => exact .inr ⟨hprint, .inr ⟨hne, .inl ⟨hsep, rfl⟩⟩⟩
    | parent hprint hne hwhole hp =>
      exact .inr ⟨hprint, .inr ⟨hne, .inr ⟨hwhole, .inl ⟨hp, rfl⟩⟩⟩⟩

/-! ## Types -/

/-- A name with one of the eleven known types, after a stem that is not empty. -/
def Typed (name : String) : Prop :=
  ∃ stem, ∃ suffix ∈ suffixes, stem ≠ "" ∧ name = stem ++ suffix

theorem hasType_iff : hasType name.toList = true ↔ Typed name := by
  simp only [hasType, List.any_eq_true, Bool.and_eq_true, decide_eq_true_eq,
    List.isSuffixOf_iff_suffix]
  constructor
  · rintro ⟨suffix, hs, hlength, stem, hstem⟩
    refine ⟨.ofList stem, suffix, hs, fun he => ?_, String.toList_injective (by simp [hstem])⟩
    have hnil : stem = [] := by simpa using congrArg String.toList he
    simp [← hstem, hnil] at hlength
  · rintro ⟨stem, suffix, hs, hne, rfl⟩
    have hstem : 0 < stem.toList.length :=
      List.length_pos_iff.2 fun he => hne (String.toList_eq_nil_iff.1 he)
    rw [String.toList_append, List.length_append]
    exact ⟨suffix, hs, by omega, List.suffix_append ..⟩

instance : Decidable (Typed name) :=
  decidable_of_iff _ hasType_iff

theorem complete_eq_ite (name : String) :
    complete name = if Typed name then name else name ++ ".service" := by
  simp only [complete, hasType_iff]

theorem Typed.append_service (hne : name ≠ "") : Typed (name ++ ".service") :=
  ⟨name, ".service", List.mem_cons_self, hne, rfl⟩

/-- Two names are completed to the same if they are the same, or the one is the other with the
service type, which it does not have itself. -/
theorem complete_eq_complete_iff (hs : s ≠ "") (ht : t ≠ "") :
    complete s = complete t ↔
      s = t ∨ (¬ Typed s ∧ t = s ++ ".service") ∨ (¬ Typed t ∧ s = t ++ ".service") := by
  rw [complete_eq_ite, complete_eq_ite]
  -- A name with a type is not one without, and a service always has one.
  by_cases hts : Typed s <;> by_cases htt : Typed t
  · simp [hts, htt]
  · have hne : s ≠ t := fun he => htt (he ▸ hts)
    simp [hts, htt, hne]
  · have hne : s ≠ t := fun he => hts (he ▸ htt)
    simp [hts, htt, hne, eq_comm]
  · have hst : t ≠ s ++ ".service" := fun he => htt (he ▸ .append_service hs)
    have hts' : s ≠ t ++ ".service" := fun he => hts (he ▸ .append_service ht)
    simp [hts, htt, hst, hts', String.append_left_inj]

/-! ## The whole reading -/

theorem canonicalize_ok_iff :
    canonicalize text = .ok name ↔
      (Printable text ∧ Blank.strip text ≠ "" ∧ ¬ Separated (Blank.strip text) ∧
        ¬ Parents (Blank.strip text)) ∧ name = complete (Blank.strip text) := by
  have hwhole : ¬ Separated (Blank.strip text) ↔
      ∀ c ∈ (Blank.strip text).toList, c ≠ '/' ∧ c ≠ '\\' := by
    simp [Separated]
  rw [canonicalize_eq_ok_iff, hwhole, Printable]
  simp only [and_assoc]

/-- Let `t` be what is left of a text without the blanks around it.

* The text is accepted if and only if it has no control character anywhere, and `t` is not empty,
  has no separator and no two dots beside each other.
* It is refused, as invalid, for the first of these rules that it breaks and for nothing else.
* An accepted text stands for `t` if that has a type, and for the service `t` if it has none; so
  what it stands for has a type.
* Two accepted texts stand for the same if and only if they leave the same, or the one leaves a name
  without a type and the other the service of that name. -/
theorem canonicalize_exact (text other : String) :
    let t := Blank.strip text
    let t' := Blank.strip other
    (∃ front back, text.toList = front ++ t.toList ++ back ∧ (∀ c ∈ front, isBlank c = true) ∧
      (∀ c ∈ back, isBlank c = true) ∧ Blank.Trimmed t.toList) ∧
    ((∃ name, canonicalize text = .ok name) ↔
      Printable text ∧ t ≠ "" ∧ ¬ Separated t ∧ ¬ Parents t) ∧
    (∀ e, canonicalize text = .error e ↔
      ∃ fault, e = .invalidInput fault ∧ Refused text fault) ∧
    (∀ name, canonicalize text = .ok name →
      Typed name ∧ (Typed t → name = t) ∧ (¬ Typed t → name = t ++ ".service")) ∧
    ∀ name name', canonicalize text = .ok name → canonicalize other = .ok name' →
      (name = name' ↔
        t = t' ∨ (¬ Typed t ∧ t' = t ++ ".service") ∨ (¬ Typed t' ∧ t = t' ++ ".service")) := by
  intro t t'
  refine ⟨?_, ?_, fun e => canonicalize_eq_error_iff, fun name h => ?_, fun name name' h h' => ?_⟩
  · obtain ⟨front, back, htext, hfront, hback⟩ := Blank.exists_stripped text.toList
    rw [← Blank.toList_strip] at htext
    refine ⟨front, back, htext, hfront, hback, ?_⟩
    rw [Blank.toList_strip]
    exact Blank.trimmed_stripChars _
  · simp only [canonicalize_ok_iff, exists_and_left, exists_eq, and_true]
    rfl
  · obtain ⟨⟨-, hne, -, -⟩, hname⟩ := canonicalize_ok_iff.1 h
    rw [hname]
    refine ⟨hasType_iff.1 (hasType_complete hne), fun ht => ?_, fun ht => ?_⟩
    · rw [complete_eq_ite, if_pos ht]
    · rw [complete_eq_ite, if_neg ht]
  · obtain ⟨⟨-, hne, -, -⟩, hname⟩ := canonicalize_ok_iff.1 h
    obtain ⟨⟨-, hne', -, -⟩, hname'⟩ := canonicalize_ok_iff.1 h'
    rw [hname, hname']
    exact complete_eq_complete_iff hne hne'

/-- A type with nothing before it is the stem of a service, whose full name may be written as well.
A line break is refused even where it would be stripped off, and before a separator. -/
theorem canonicalize_exact_timer :
    canonicalize "\u3000.timer" = .ok ".timer.service" ∧
      canonicalize ".timer.service" = .ok ".timer.service" ∧
      Typed ".timer.service" ∧ ¬ Typed ".timer" ∧
      canonicalize "a/.timer\n" = .error (.invalidInput (.control "unit" .newline)) := by
  have hstem : canonicalize "\u3000.timer" = .ok ".timer.service" := by decide +kernel
  have hfull : canonicalize ".timer.service" = .ok ".timer.service" := by decide +kernel
  have hstrip : Blank.strip "\u3000.timer" = ".timer" := by decide +kernel
  obtain ⟨-, -, -, hname, hsame⟩ := canonicalize_exact "\u3000.timer" ".timer.service"
  obtain ⟨-, -, hrefused, -, -⟩ := canonicalize_exact "a/.timer\n" ""
  obtain ⟨htyped, -, -⟩ := hname _ hstem
  have hbare : ¬ Typed ".timer" := by
    rcases (hsame _ _ hstem hfull).1 rfl with heq | ⟨h, -⟩ | ⟨-, heq⟩
    · exact absurd heq (by decide +kernel)
    · exact hstrip ▸ h
    · exact absurd heq (by decide +kernel)
  have hplain : ("a/.timer".toList.all fun c => !Control.isControl c) = true := by decide
  have hbreak : Control.First '\n' "a/.timer\n" :=
    ⟨"a/.timer".toList, [], by decide, by decide, by simpa using hplain⟩
  exact ⟨hstem, hfull, htyped, hbare, (hrefused _).2 ⟨_, rfl, .control hbreak (.inl rfl)⟩⟩

end UnitName

end SystemdControl
