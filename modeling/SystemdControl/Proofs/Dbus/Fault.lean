import Mathlib.Data.List.Infix
import SystemdControl.Dbus.Fault

/-!
# Faults and errors

A fault of a call becomes the error of the first of three rules that applies: the manager does not
know the unit that the call is about, or the caller may not do this, or nobody answered in time.
Where none applies the fault becomes the same error as one that is about no call. The rules go by
the name of a refusal and never by what it says.

* `Fault.toCallError_eq_toError`: the error of a refusal to which none applies is built twice, and
  both times it is the same;
* `Fault.CallError` are the rules, each with what keeps the ones before it from applying;
* `Fault.kind_toCallError_mute`: the kind of the error is that of the fault without its texts;
* `Fault.toCallError_by_priority` says which errors there are when.
-/

namespace SystemdControl

/-- What an error is about, without its texts. -/
inductive Error.Kind where
  | invalidInput | permissionDenied | unitNotFound | jobTimeout | timeout | backendUnavailable
  | dbus | io | listenerStopped | jobSuperseded
  deriving DecidableEq

def Error.kind : Error → Error.Kind
  | invalidInput _ => .invalidInput
  | permissionDenied _ _ => .permissionDenied
  | unitNotFound _ => .unitNotFound
  | jobTimeout _ _ => .jobTimeout
  | timeout _ _ => .timeout
  | backendUnavailable _ _ => .backendUnavailable
  | dbus _ _ => .dbus
  | io _ => .io
  | listenerStopped _ => .listenerStopped
  | jobSuperseded _ => .jobSuperseded

namespace Fault

variable {action name : String} {timeout : Duration} {unit detail : Option String}
  {fault : Fault} {error : Error}

/-! ## Names of refusals -/

/-- One of some texts is a part of a name. -/
def Names (markers : List String) (name : String) : Prop :=
  ∃ m ∈ markers, m.toList <:+: name.toList

instance (markers : List String) (name : String) : Decidable (Names markers name) :=
  inferInstanceAs (Decidable (∃ m ∈ markers, m.toList <:+: name.toList))

/-- The parts of names that stand for a missing unit. -/
def unitMarkers : List String := ["NoSuchUnit", "UnknownUnit"]

/-- The parts of names that stand for a missing permission. -/
def permissionMarkers : List String := ["AccessDenied", "PermissionDenied", "PolicyKit"]

theorem namesMissingUnit_iff : namesMissingUnit name = true ↔ Names unitMarkers name := by
  simp [namesMissingUnit, Names, unitMarkers, Part.inText, Part.occurs_iff]

theorem namesMissingPermission_iff :
    namesMissingPermission name = true ↔ Names permissionMarkers name := by
  simp [namesMissingPermission, Names, permissionMarkers, Part.inText, Part.occurs_iff, or_assoc]

/-- A refusal under a name that has one of some texts as a part. -/
def RefusedUnder (markers : List String) (fault : Fault) : Prop :=
  ∃ name detail, fault = .refused name detail ∧ Names markers name

theorem refusedUnder_refused {markers : List String} :
    (refused name detail).RefusedUnder markers ↔ Names markers name := by
  simp [RefusedUnder]

/-! ## The plain error -/

theorem kind_toError (fault : Fault) : fault.toError.kind = .dbus ∨ fault.toError.kind = .io := by
  cases fault with
  | refused => exact .inl rfl
  | _ => exact .inr rfl

theorem toError_of_other (hrefused : ∀ name detail, fault ≠ .refused name detail)
    (hio : ∀ timedOut text, fault ≠ .io timedOut text) :
    fault.toError = .io ("dbus error: " ++ fault.text) := by
  cases fault with
  | refused name detail => exact absurd rfl (hrefused name detail)
  | io timedOut text => exact absurd rfl (hio timedOut text)
  | _ => rfl

/-- A refusal that is about neither a unit nor a permission becomes the same error with a call and
without one. -/
theorem toCallError_eq_toError (hunit : ∀ u, unit = some u → ¬ Names unitMarkers name)
    (hpermission : ¬ Names permissionMarkers name) :
    (refused name detail).toCallError action timeout unit = (refused name detail).toError := by
  rw [toCallError]
  · exact if_neg (mt namesMissingPermission_iff.1 hpermission)
  · exact fun u hname hu => hunit u hu (namesMissingUnit_iff.1 hname)

/-! ## The rules -/

/-- The error of a call, by the rule that applies to its fault: none of those before it does. -/
inductive CallError (action : String) (timeout : Duration) (unit : Option String) :
    Fault → Error → Prop where
  | unit {name u : String} {detail : Option String} (hunit : unit = some u)
    (hname : Names unitMarkers name) :
    CallError action timeout unit (.refused name detail) (.unitNotFound u)
  | permission {name : String} {detail : Option String}
    (hunit : Names unitMarkers name → unit = none) (hname : Names permissionMarkers name) :
    CallError action timeout unit (.refused name detail)
      (.permissionDenied action (name ++ ": " ++ detail.getD ""))
  | timeout {text : String} :
    CallError action timeout unit (.io true text) (.timeout action timeout)
  | plain {fault : Fault} (hunit : fault.RefusedUnder unitMarkers → unit = none)
    (hpermission : ¬ fault.RefusedUnder permissionMarkers) (hio : ∀ text, fault ≠ .io true text) :
    CallError action timeout unit fault fault.toError

/-- A fault that is no refusal and no call without an answer is left to the last rule. -/
theorem CallError.of_other (hrefused : ∀ name detail, fault ≠ .refused name detail)
    (hio : ∀ text, fault ≠ .io true text) :
    CallError action timeout unit fault fault.toError := by
  have hnot : ∀ markers, ¬ fault.RefusedUnder markers := fun _ ⟨name, detail, h, _⟩ =>
    hrefused name detail h
  exact .plain (fun h => absurd h (hnot _)) (hnot _) hio

theorem callError_toCallError (fault : Fault) :
    CallError action timeout unit fault (fault.toCallError action timeout unit) := by
  cases fault with
  | refused name detail =>
    by_cases hunit : ∃ u, unit = some u ∧ Names unitMarkers name
    · obtain ⟨u, rfl, hname⟩ := hunit
      rw [toCallError]
      · exact .unit rfl hname
      · exact namesMissingUnit_iff.2 hname
    · have hnot : ∀ u, unit = some u → ¬ Names unitMarkers name := fun u hu hname =>
        hunit ⟨u, hu, hname⟩
      have hnone : Names unitMarkers name → unit = none := fun hname =>
        Option.eq_none_iff_forall_ne_some.2 fun u hu => hnot u hu hname
      by_cases hname : Names permissionMarkers name
      · rw [toCallError]
        · rw [if_pos (namesMissingPermission_iff.2 hname)]
          exact .permission hnone hname
        · exact fun u hmissing hu => hnot u hu (namesMissingUnit_iff.1 hmissing)
      · rw [toCallError_eq_toError hnot hname]
        exact .plain (fun h => hnone (refusedUnder_refused.1 h))
          (mt refusedUnder_refused.1 hname) nofun
  | io timedOut text =>
    cases timedOut with
    | false => exact .of_other nofun nofun
    | true => exact .timeout
  | _ => exact .of_other nofun nofun

namespace CallError

theorem eq_unitNotFound_iff (h : CallError action timeout unit fault error) {u : String} :
    error = .unitNotFound u ↔ fault.RefusedUnder unitMarkers ∧ unit = some u := by
  cases h with
  | unit hunit hname => simp [refusedUnder_refused, hunit, hname]
  | permission hunit hname => simp +contextual [refusedUnder_refused, hunit]
  | timeout => simp [RefusedUnder]
  | plain hunit _ _ =>
    refine iff_of_false (fun he => ?_) fun ⟨hr, hu⟩ => ?_
    · simpa [he, Error.kind] using kind_toError fault
    · rw [hunit hr] at hu
      cases hu

theorem eq_permissionDenied_iff (h : CallError action timeout unit fault error) {a d : String} :
    error = .permissionDenied a d ↔ (fault.RefusedUnder unitMarkers → unit = none) ∧ a = action ∧
      ∃ name detail, fault = .refused name detail ∧ Names permissionMarkers name ∧
        d = name ++ ": " ++ detail.getD "" := by
  cases h with
  | unit hunit hname => simp [refusedUnder_refused, hunit, hname]
  | permission hunit hname =>
    constructor
    · intro he
      cases he
      exact ⟨fun hr => hunit (refusedUnder_refused.1 hr), rfl, _, _, rfl, hname, rfl⟩
    · rintro ⟨-, rfl, name, detail, hfault, -, rfl⟩
      cases hfault
      rfl
  | timeout => simp
  | plain _ hpermission _ =>
    refine iff_of_false (fun he => ?_) fun ⟨_, _, name, detail, hfault, hname, _⟩ => ?_
    · simpa [he, Error.kind] using kind_toError fault
    · exact hpermission ⟨name, detail, hfault, hname⟩

theorem eq_timeout_iff (h : CallError action timeout unit fault error) {a : String}
    {t : Duration} :
    error = .timeout a t ↔ a = action ∧ t = timeout ∧ ∃ text, fault = .io true text := by
  cases h with
  | unit => simp
  | permission => simp
  | timeout => simp [eq_comm]
  | plain _ _ hio =>
    refine iff_of_false (fun he => ?_) fun ⟨_, _, text, hfault⟩ => hio text hfault
    simpa [he, Error.kind] using kind_toError fault

theorem eq_toError_iff (h : CallError action timeout unit fault error) :
    error = fault.toError ↔ (fault.RefusedUnder unitMarkers → unit = none) ∧
      ¬ fault.RefusedUnder permissionMarkers ∧ ∀ text, fault ≠ .io true text := by
  cases h with
  | unit hunit hname => simp [refusedUnder_refused, hunit, hname, toError]
  | permission _ hname => simp [refusedUnder_refused, hname, toError]
  | timeout => simp [toError]
  | plain hunit hpermission hio => exact iff_of_true rfl ⟨hunit, hpermission, hio⟩

end CallError

/-! ## Texts -/

/-- The fault without anything that it says. -/
def mute : Fault → Fault
  | refused name _ => refused name none
  | io timedOut _ => io timedOut ""
  | address _ => address ""
  | handshake _ => handshake ""
  | failure _ => failure ""
  | signatureMismatch _ _ => signatureMismatch "" ""
  | fault => fault

theorem kind_toCallError_mute (fault : Fault) :
    (fault.mute.toCallError action timeout unit).kind =
      (fault.toCallError action timeout unit).kind := by
  cases fault with
  | refused name detail =>
    simp only [mute, toCallError]
    split
    · rfl
    · split <;> rfl
  | io timedOut text => cases timedOut <;> rfl
  | _ => rfl

/-- The error of a call is that of a missing unit exactly if the name of a refusal says so and the
call is about a unit, whatever else the name says; else that of a missing permission exactly if the
name of a refusal says so; that of a call without an answer exactly if there was none in time; and
else the error that the fault has without a call. This one keeps the name and the message of a
refusal, and the text of every other fault. What a fault says counts for none of it. -/
theorem toCallError_by_priority (action : String) (timeout : Duration) (unit : Option String)
    (fault : Fault) :
    let error := fault.toCallError action timeout unit
    (∀ u, error = .unitNotFound u ↔ fault.RefusedUnder unitMarkers ∧ unit = some u) ∧
    (∀ a d, error = .permissionDenied a d ↔ (fault.RefusedUnder unitMarkers → unit = none) ∧
      a = action ∧ ∃ name detail, fault = .refused name detail ∧ Names permissionMarkers name ∧
        d = name ++ ": " ++ detail.getD "") ∧
    (∀ a t, error = .timeout a t ↔ a = action ∧ t = timeout ∧ ∃ text, fault = .io true text) ∧
    (error = fault.toError ↔ (fault.RefusedUnder unitMarkers → unit = none) ∧
      ¬ fault.RefusedUnder permissionMarkers ∧ ∀ text, fault ≠ .io true text) ∧
    (∀ name detail, fault = .refused name detail → fault.toError = .dbus name (detail.getD "")) ∧
    (∀ timedOut text, fault = .io timedOut text →
      fault.toError = .io ("dbus io error: " ++ text)) ∧
    ((∀ name detail, fault ≠ .refused name detail) → (∀ timedOut text, fault ≠ .io timedOut text) →
      fault.toError = .io ("dbus error: " ++ fault.text)) ∧
    (fault.mute.toCallError action timeout unit).kind = error.kind := by
  intro error
  have h : CallError action timeout unit fault error := callError_toCallError fault
  refine ⟨fun u => h.eq_unitNotFound_iff, fun a d => h.eq_permissionDenied_iff,
    fun a t => h.eq_timeout_iff, h.eq_toError_iff, ?_, ?_, toError_of_other,
    kind_toCallError_mute fault⟩
  · rintro name detail rfl
    rfl
  · rintro timedOut text rfl
    rfl

/-- A name that speaks of a missing unit and of a missing permission, for a call that is about a
unit and for one that is not; and a fault that is no refusal. -/
theorem toCallError_by_priority_two_markers :
    let fault := refused "org.freedesktop.systemd1.NoSuchUnit.AccessDenied" (some "no")
    let limit := Duration.ofSecs 5
    fault.toCallError "start_unit" limit (some "a.service") = .unitNotFound "a.service" ∧
      fault.toCallError "list_units" limit none = .permissionDenied "list_units"
        "org.freedesktop.systemd1.NoSuchUnit.AccessDenied: no" ∧
      invalidReply.toCallError "list_units" limit none =
        .io "dbus error: Invalid D-Bus method reply" := by
  intro fault limit
  have hunit : fault.RefusedUnder unitMarkers := refusedUnder_refused.2 (by decide)
  obtain ⟨hmissing, -⟩ := toCallError_by_priority "start_unit" limit (some "a.service") fault
  obtain ⟨-, hpermission, -⟩ := toCallError_by_priority "list_units" limit none fault
  obtain ⟨-, -, -, hplain, -, -, hother, -⟩ :=
    toCallError_by_priority "list_units" limit none invalidReply
  have hnot : ∀ markers, ¬ invalidReply.RefusedUnder markers := fun _ ⟨_, _, h, _⟩ => by cases h
  refine ⟨(hmissing _).2 ⟨hunit, rfl⟩,
    (hpermission _ _).2 ⟨fun _ => rfl, rfl, _, _, rfl, by decide, by decide⟩, ?_⟩
  rw [hplain.2 ⟨fun h => absurd h (hnot _), hnot _, nofun⟩, hother nofun nofun]
  decide

end Fault

end SystemdControl
