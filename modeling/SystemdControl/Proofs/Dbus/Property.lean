import Mathlib.Data.List.Forall2
import SystemdControl.Dbus.Message

/-!
# Properties on the wire

The properties of a transient unit are sent one by one, in their order and under their names, the
same name as often as it is given. Each value is sent as what it is: the signature tells the kind of
the value also where there is nothing in it, and the value tells the rest. So the properties can be
read off the call again, and no two lists of them make the same call.

* `Wire.toProperty?_eq_some_iff`: what is read back is what was sent, one property at a time;
* `Wire.mapM_toProperty?_eq_some_iff`: the same for lists;
* `Wire.properties_survive` says what is sent for a list of properties.
-/

namespace SystemdControl

/-- The signature of each kind of value. -/
def PropertyValue.signature : PropertyValue → String
  | text _ => "s"
  | bool _ => "b"
  | u32 _ => "u"
  | u64 _ => "t"
  | i32 _ => "i"
  | texts _ => "as"
  | commands _ => "a(sasb)"

namespace Wire

theorem signature_ofPropertyValue (v : PropertyValue) :
    (ofPropertyValue v).signature = v.signature := by
  cases v <;> rfl

theorem ofPropertyValue_of_toPropertyValue? {w : WireValue} {v : PropertyValue}
    (h : toPropertyValue? w = some v) : w = ofPropertyValue v := by
  cases w with
  | objectPath => cases h
  | commands cs =>
    cases h
    simp only [ofPropertyValue, List.map_map]
    rw [show ofCommand ∘ toCommand = id from rfl, List.map_id]
  | _ =>
    cases h
    rfl

/-- A property is read exactly where it was sent. -/
theorem toProperty?_eq_some_iff {e : String × WireValue} {p : UnitProperty} :
    toProperty? e = some p ↔ e = ofProperty p := by
  constructor
  · intro h
    obtain ⟨v, hv, rfl⟩ := Option.map_eq_some_iff.1 h
    exact Prod.ext rfl (ofPropertyValue_of_toPropertyValue? hv)
  · rintro rfl
    exact toProperty?_ofProperty p

theorem mapM_toProperty?_eq_some_iff {l : List (String × WireValue)} {ps : List UnitProperty} :
    l.mapM toProperty? = some ps ↔ l = ps.map ofProperty := by
  induction l generalizing ps with
  | nil => cases ps <;> simp
  | cons e l ih =>
    rw [List.mapM_cons, Option.bind_eq_bind, Option.bind_eq_some_iff]
    constructor
    · rintro ⟨p, hp, h⟩
      obtain ⟨qs, hqs, h⟩ := Option.bind_eq_some_iff.1 h
      obtain rfl := Option.some.inj h
      rw [List.map_cons, ← toProperty?_eq_some_iff.1 hp, ← ih.1 hqs]
    · intro h
      obtain ⟨p, qs, rfl, rfl, rfl⟩ := List.map_eq_cons_iff.1 h.symm
      exact ⟨p, toProperty?_ofProperty p, Option.bind_eq_some_iff.2 ⟨qs, ih.2 rfl, rfl⟩⟩

/-- A named value on the wire carries a property. -/
structure Carries (e : String × WireValue) (p : UnitProperty) : Prop where
  name : e.1 = p.name
  /-- The kind of the value is told also where the value is an empty list. -/
  signature : e.2.signature = p.value.signature
  /-- Commands are sent each with its path, its arguments and whether a failure of it counts. -/
  commands : ∀ cs, p.value = .commands cs →
    e.2 = .commands (cs.map fun c => (c.path, c.argv, c.ignoreFailure))

theorem carries_ofProperty (p : UnitProperty) : Carries (ofProperty p) p := by
  refine ⟨rfl, signature_ofPropertyValue p.value, fun cs hcs => ?_⟩
  rw [ofProperty, hcs]
  rfl

/-- Any properties can be sent with the call for a transient unit: as many as there are, in their
order and each carried by its place. They are read back from what is sent, and from nothing else, so
two lists of properties make the same call only if they are the same. -/
theorem properties_survive (unit : String) (mode : StartMode) (ps : List UnitProperty) :
    ∃ sent : List (String × WireValue),
      MethodCall.ofJob (.transient unit mode ps) = ⟨"StartTransientUnit",
        [.value (.text unit), .value (.text mode.spelling), .properties sent, .auxiliary]⟩ ∧
      sent.length = ps.length ∧
      sent.map Prod.fst = ps.map UnitProperty.name ∧
      List.Forall₂ Carries sent ps ∧
      sent.mapM toProperty? = some ps ∧
      (∀ l, l.mapM toProperty? = some ps ↔ l = sent) ∧
      ∀ qs, qs = ps ↔
        MethodCall.ofJob (.transient unit mode qs) = MethodCall.ofJob (.transient unit mode ps) := by
  refine ⟨ps.map ofProperty, rfl, List.length_map _, List.map_map, ?carried,
    mapM_toProperty?_eq_some_iff.2 rfl, fun l => mapM_toProperty?_eq_some_iff, fun qs => ?call⟩
  case carried =>
    exact List.forall₂_map_left_iff.2 (List.forall₂_same.2 fun p _ => carries_ofProperty p)
  case call =>
    refine ⟨fun h => by rw [h], fun h => ?_⟩
    have hsent : qs.map ofProperty = ps.map ofProperty := by
      simpa [MethodCall.ofJob, JobRequest.member, JobRequest.unit, JobRequest.mode] using h
    exact Option.some.inj
      ((mapM_toProperty?_eq_some_iff.2 rfl).symm.trans (mapM_toProperty?_eq_some_iff.2 hsent))

/-- A name that is given twice, with lists of different kinds that are both empty, and numbers that
read alike but are of different kinds: none of it gets mixed up. -/
theorem properties_survive_empty_lists :
    let ps : List UnitProperty :=
      [⟨"ExecStart", .commands []⟩, ⟨"ExecStart", .texts []⟩, ⟨"Nice", .u32 5⟩, ⟨"Nice", .i32 5⟩]
    let qs : List UnitProperty :=
      [⟨"ExecStart", .texts []⟩, ⟨"ExecStart", .commands []⟩, ⟨"Nice", .i32 5⟩, ⟨"Nice", .u32 5⟩]
    (∃ sent : List (String × WireValue),
      sent.map Prod.fst = ["ExecStart", "ExecStart", "Nice", "Nice"] ∧
      sent.map (fun e => e.2.signature) = ["a(sasb)", "as", "u", "i"] ∧
      sent.mapM toProperty? = some ps) ∧
    MethodCall.ofJob (.transient "a.service" .fail qs) ≠
      MethodCall.ofJob (.transient "a.service" .fail ps) := by
  intro ps qs
  obtain ⟨sent, -, -, hnames, hcarried, hback, -, hcall⟩ :=
    properties_survive "a.service" .fail ps
  have hkinds : sent.map (fun e => e.2.signature) = ps.map (fun p => p.value.signature) :=
    List.forall₂_eq_eq_eq ▸ (List.forall₂_map_left_iff.2 (List.forall₂_map_right_iff.2
      (hcarried.imp fun _ _ h => h.signature)))
  exact ⟨⟨sent, hnames, hkinds, hback⟩, fun h => absurd ((hcall qs).2 h) (by decide)⟩

end Wire

end SystemdControl
