import SystemdControl.Dbus.Message

/-!
# Which requests can be built

A request exists only for arguments that pass all checks, and then it holds what the caller gave,
with the unit under its full name.

* `OnlyRefuses`: a check fails only by calling an argument invalid;
* `JobRequest.method?_eq_ok_iff`, `JobRequest.transient?_eq_ok_iff` and
  `KillRequest.make?_eq_ok_iff` say when there is a request, and which.
-/

namespace SystemdControl

/-! ## Checks -/

theorem bind_eq_ok_iff {ε α β : Type} {check : Except ε α} {next : α → Except ε β} {b : β} :
    (check >>= next) = .ok b ↔ ∃ a, check = .ok a ∧ next a = .ok b := by
  cases check with
  | error e => exact iff_of_false nofun nofun
  | ok a => exact ⟨fun h => ⟨a, rfl, h⟩, fun ⟨_, ha, h⟩ => Except.ok.inj ha ▸ h⟩

/-- A check that fails only by calling an argument invalid. -/
def OnlyRefuses {α : Type} (check : Except Error α) : Prop :=
  ∀ e, check = .error e → ∃ fault, e = .invalidInput fault

namespace OnlyRefuses

variable {α β : Type}

theorem ok (a : α) : OnlyRefuses (.ok a : Except Error α) :=
  nofun

theorem refuse (fault : InputFault) : OnlyRefuses (.error (.invalidInput fault) : Except Error α) :=
  fun _ h => ⟨fault, (Except.error.inj h).symm⟩

theorem bind {check : Except Error α} {next : α → Except Error β} (h : OnlyRefuses check)
    (hnext : ∀ a, OnlyRefuses (next a)) : OnlyRefuses (check >>= next) := by
  cases check with
  | error e => exact fun e' he => h e' (congrArg Except.error (Except.error.inj he))
  | ok a => exact hnext a

/-- A refusal under a condition, and what follows otherwise. -/
theorem guard {c : Prop} [Decidable c] {fault : InputFault} {next : PUnit → Except Error α}
    (h : OnlyRefuses (next ⟨⟩)) :
    OnlyRefuses (if c then throw (.invalidInput fault) >>= next else next ⟨⟩) := by
  split
  · exact refuse fault
  · exact h

/-- A check that fails calls an argument invalid. -/
theorem exists_fault {check : Except Error α} (h : OnlyRefuses check)
    (hn : ∀ a, check ≠ .ok a) : ∃ fault, check = .error (.invalidInput fault) := by
  cases check with
  | ok a => exact absurd rfl (hn a)
  | error e =>
    obtain ⟨fault, rfl⟩ := h e rfl
    exact ⟨fault, rfl⟩

end OnlyRefuses

theorem ensurePrintable_onlyRefuses (what text : String) :
    OnlyRefuses (ensurePrintable what text) := by
  unfold ensurePrintable
  split
  · exact .ok ()
  · exact .refuse _

theorem UnitName.canonicalize_onlyRefuses (text : String) : OnlyRefuses (canonicalize text) := by
  refine (ensurePrintable_onlyRefuses "unit" text).bind fun _ => ?_
  exact .guard (.guard (.guard (.ok _)))

namespace PropertyName

/-- A non-empty text of ASCII letters, digits and underscores. -/
def Valid (name : String) : Prop :=
  name ≠ "" ∧ ∀ c ∈ name.toList, c.isAlphanum = true ∨ c = '_'

theorem validate_eq_ok_iff {name : String} : validate name = .ok () ↔ Valid name := by
  have hall : name.toList.all isNameChar = true ↔
      ∀ c ∈ name.toList, c.isAlphanum = true ∨ c = '_' := by
    simp [isNameChar]
  have hempty : name ≠ "" ↔ ¬ name.isEmpty = true := not_congr String.isEmpty_iff.symm
  rw [Valid, hempty, ← hall]
  unfold validate
  by_cases he : name.isEmpty = true
  · rw [if_pos he]
    exact iff_of_false nofun fun h => h.1 he
  · rw [if_neg he]
    cases hc : name.toList.all isNameChar with
    | true => exact iff_of_true rfl ⟨he, rfl⟩
    | false => exact iff_of_false nofun nofun

theorem validate_onlyRefuses (name : String) : OnlyRefuses (validate name) := by
  unfold validate
  exact .guard (.guard (.ok ()))

/-- The names of a list pass if each of them does. -/
theorem forM_validate_eq_ok_iff {properties : List UnitProperty} :
    properties.forM (fun p => validate p.name) = .ok () ↔ ∀ p ∈ properties, Valid p.name := by
  induction properties with
  | nil => exact iff_of_true rfl (List.forall_mem_nil _)
  | cons p properties ih =>
    rw [List.forM, bind_eq_ok_iff, List.forall_mem_cons, ← ih, ← validate_eq_ok_iff]
    exact ⟨fun ⟨_, hp, h⟩ => ⟨hp, h⟩, fun ⟨hp, h⟩ => ⟨(), hp, h⟩⟩

theorem forM_validate_onlyRefuses (properties : List UnitProperty) :
    OnlyRefuses (properties.forM fun p => validate p.name) := by
  induction properties with
  | nil => exact .ok ()
  | cons p properties ih => exact (validate_onlyRefuses p.name).bind fun _ => ih

end PropertyName

/-! ## Requests -/

namespace JobRequest

theorem method?_eq_ok_iff {method : UnitMethod} {unit : String} {mode : StartMode}
    {request : JobRequest} :
    method? method unit mode = .ok request ↔
      ∃ name, UnitName.canonicalize unit = .ok name ∧ request = .method method name mode := by
  rw [method?, bind_eq_ok_iff]
  exact exists_congr fun name => and_congr_right fun _ =>
    ⟨fun h => (Except.ok.inj h).symm, fun h => congrArg Except.ok h.symm⟩

theorem transient?_eq_ok_iff {unit : String} {mode : StartMode} {properties : List UnitProperty}
    {request : JobRequest} :
    transient? unit mode properties = .ok request ↔
      ∃ name, UnitName.canonicalize unit = .ok name ∧
        (∀ p ∈ properties, PropertyName.Valid p.name) ∧
        request = .transient name mode properties := by
  rw [transient?, bind_eq_ok_iff]
  refine exists_congr fun name => and_congr_right fun _ => ?_
  rw [bind_eq_ok_iff, ← PropertyName.forM_validate_eq_ok_iff]
  exact ⟨fun ⟨_, hp, h⟩ => ⟨hp, (Except.ok.inj h).symm⟩,
    fun ⟨hp, h⟩ => ⟨(), hp, congrArg Except.ok h.symm⟩⟩

theorem method?_onlyRefuses (method : UnitMethod) (unit : String) (mode : StartMode) :
    OnlyRefuses (method? method unit mode) :=
  (UnitName.canonicalize_onlyRefuses unit).bind fun _ => .ok _

theorem transient?_onlyRefuses (unit : String) (mode : StartMode)
    (properties : List UnitProperty) : OnlyRefuses (transient? unit mode properties) :=
  (UnitName.canonicalize_onlyRefuses unit).bind fun _ =>
    (PropertyName.forM_validate_onlyRefuses properties).bind fun _ => .ok _

end JobRequest

namespace KillRequest

theorem make?_eq_ok_iff {unit : String} {who : KillWho} {signal : Int32} {request : KillRequest} :
    make? unit who signal = .ok request ↔
      ∃ name, UnitName.canonicalize unit = .ok name ∧ 0 < signal ∧
        request = ⟨name, who, signal⟩ := by
  rw [make?, bind_eq_ok_iff]
  refine exists_congr fun name => and_congr_right fun _ => ?_
  split
  · rename_i hle
    exact iff_of_false nofun fun h => absurd h.1 (Int32.not_lt.2 hle)
  · rename_i hgt
    rw [and_iff_right (Int32.not_le.1 hgt)]
    exact ⟨fun h => (Except.ok.inj h).symm, fun h => congrArg Except.ok h.symm⟩

theorem make?_onlyRefuses (unit : String) (who : KillWho) (signal : Int32) :
    OnlyRefuses (make? unit who signal) :=
  (UnitName.canonicalize_onlyRefuses unit).bind fun _ => .guard (.ok _)

end KillRequest

end SystemdControl
