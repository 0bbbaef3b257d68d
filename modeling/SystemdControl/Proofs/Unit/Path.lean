import SystemdControl.Proofs.Text.PathLabel
import SystemdControl.Unit.Status

/-!
# Object paths of units

The object path of a unit ends in the label of its name. It tells the name, and it is a path of the
form that the wire demands, with one exception: a name without characters has a label without any,
and then the path ends in a slash.

* `ObjectPath.Valid` is the form of object paths, `ObjectPath.check_iff` decides it;
* `UnitStatus.unitPath_determines_name`: no two units share a path, since labels can be read back;
* `UnitStatus.unitPath_valid_iff`: which units have an object path of that form.
-/

namespace SystemdControl

/-! ## The form of object paths -/

namespace ObjectPath

/-- An element of a path: ASCII letters, digits and underscores, and at least one of them. -/
def IsElement (element : List Char) : Prop :=
  element ≠ [] ∧ ∀ c ∈ element, c.isAlphanum = true ∨ c = '_'

/-- A slash, and elements with a slash between each two of them. The path without elements is the
one of the root. -/
def Valid (path : String) : Prop :=
  ∃ elements : List (List Char), (∀ e ∈ elements, IsElement e) ∧
    path.toList = '/' :: ['/'].intercalate elements

theorem IsElement.slash_not_mem {e : List Char} (h : IsElement e) : '/' ∉ e := fun hm =>
  (h.2 '/' hm).elim (by decide) (by decide)

/-- Whether a text has the form of an object path, by what stands between its slashes. -/
def check (path : String) : Bool :=
  match path.toList with
  | '/' :: rest => rest.isEmpty ||
    (rest.splitOn '/').all fun e => !e.isEmpty && e.all fun c => c.isAlphanum || c == '_'
  | _ => false

theorem isElement_iff {e : List Char} :
    (!e.isEmpty && e.all fun c => c.isAlphanum || c == '_') = true ↔ IsElement e := by
  simp [IsElement]

instance (e : List Char) : Decidable (IsElement e) :=
  decidable_of_iff _ isElement_iff

theorem check_iff {path : String} : check path = true ↔ Valid path := by
  unfold check Valid
  split
  · rename_i rest hpath
    simp only [hpath, List.cons.injEq, true_and, Bool.or_eq_true, List.isEmpty_iff,
      List.all_eq_true, isElement_iff]
    -- Nothing behind the first slash is no element at all, and not an empty one.
    constructor
    · rintro (rfl | h)
      · exact ⟨[], by simp, rfl⟩
      · exact ⟨rest.splitOn '/', h, (List.intercalate_splitOn '/').symm⟩
    · rintro ⟨elements, h, rfl⟩
      by_cases hnil : elements = []
      · exact .inl (by rw [hnil]; rfl)
      · refine .inr ?_
        rwa [List.splitOn_intercalate '/' (fun e he => (h e he).slash_not_mem) hnil]
  · rename_i hpath
    refine iff_of_false Bool.false_ne_true ?_
    rintro ⟨elements, -, he⟩
    exact hpath _ he

instance (path : String) : Decidable (Valid path) :=
  decidable_of_iff _ check_iff

end ObjectPath

/-! ## Units -/

namespace UnitStatus

open PathLabel ObjectPath

theorem pathOf_injective {name name' : String} (h : pathOf name = pathOf name') : name = name' := by
  have hlabel : ofName name = ofName name' := (String.append_right_inj _).1 h
  have hname : toName? (ofName name) = toName? (ofName name') := congrArg toName? hlabel
  rwa [toName?_ofName, toName?_ofName, Option.some.injEq] at hname

/-- The label of a name can be read back. It has no characters but ASCII letters, digits and
underscores and does not start with a digit; each underscore of it is followed by the two
lower-case hexadecimal digits of one byte of the name, and these by the labels of the bytes after
that one. So records have the same path only if they have the same name. -/
theorem unitPath_determines_name (name : String) :
    toName? (ofName name) = some name ∧
    (∀ c ∈ (ofName name).toList, c.isAlphanum = true ∨ c = '_') ∧
    (∀ c ∈ (ofName name).toList.head?, c.isDigit = false) ∧
    (∀ front rest, (ofName name).toList = front ++ '_' :: rest →
      ∃ before b after, name.toUTF8.data.toList = before ++ b :: after ∧ front = encode before ∧
        ∃ high low, hexDigits[b.toNat / 16]? = some high ∧ hexDigits[b.toNat % 16]? = some low ∧
          rest = high :: low :: after.flatMap (encodeByte false)) ∧
    ∀ name' loadState activeState loadState' activeState',
      (named name loadState activeState).unitPath = (named name' loadState' activeState').unitPath ↔
        name = name' := by
  refine ⟨toName?_ofName name, ?_, ?_, fun front rest h => ?_,
    fun name' _ _ _ _ => ⟨pathOf_injective, congrArg pathOf⟩⟩
  · rw [ofName, String.toList_ofList]
    exact encode_alphabet _
  · rw [ofName, String.toList_ofList]
    exact encode_head _
  · rw [ofName, String.toList_ofList] at h
    obtain ⟨before, b, after, hbytes, hfront, hrest⟩ := encode_eq_append_underscore h
    exact ⟨before, b, after, hbytes, hfront, _, _, getElem?_hexDigits _ (high_lt b),
      getElem?_hexDigits _ (low_lt b), hrest⟩

/-- A name of a digit, an underscore and a letter of two bytes: all are escaped, and what is left
of the label after the second underscore says which byte that is. -/
theorem unitPath_determines_name_escaped :
    (ofName "1_é").toList = "_31".toList ++ '_' :: "5f_c3_a9".toList ∧
      toName? "_31_5f_c3_a9" = some "1_é" ∧
      (∃ before b after, "1_é".toUTF8.data.toList = before ++ b :: after ∧
        "_31".toList = encode before ∧ hexDigits[b.toNat / 16]? = some '5' ∧
        hexDigits[b.toNat % 16]? = some 'f' ∧
        after.flatMap (encodeByte false) = "_c3_a9".toList) ∧
      (named "1_é" "loaded" "active").unitPath ≠
        (named "_31_5f_c3_a9" "loaded" "active").unitPath := by
  have hlabel : ofName "1_é" = "_31_5f_c3_a9" := by decide +kernel
  obtain ⟨hback, -, -, hunderscore, hpath⟩ := unitPath_determines_name "1_é"
  have hchars : (ofName "1_é").toList = "_31".toList ++ '_' :: "5f_c3_a9".toList := by
    rw [hlabel]
    decide
  obtain ⟨before, b, after, hbytes, hfront, high, low, hhigh, hlow, hrest⟩ :=
    hunderscore "_31".toList "5f_c3_a9".toList hchars
  have hdigits : "5f_c3_a9".toList = '5' :: 'f' :: "_c3_a9".toList := by decide
  rw [hdigits, List.cons.injEq, List.cons.injEq] at hrest
  obtain ⟨rfl, rfl, hafter⟩ := hrest
  have hne : "1_é" ≠ "_31_5f_c3_a9" := by decide
  exact ⟨hchars, hlabel ▸ hback, ⟨before, b, after, hbytes, hfront, hhigh, hlow, hafter.symm⟩,
    fun h => hne ((hpath _ _ _ _ _).1 h)⟩

/-- What stands between the slashes of the object path of a unit. -/
def pathElements (name : String) : List (List Char) :=
  ["org".toList, "freedesktop".toList, "systemd1".toList, "unit".toList, (ofName name).toList]

theorem toList_pathOf (name : String) :
    (pathOf name).toList = '/' :: ['/'].intercalate (pathElements name) := by
  have hroot : "/org/freedesktop/systemd1/unit/".toList =
      '/' :: ("org".toList ++ '/' :: ("freedesktop".toList ++ '/' ::
        ("systemd1".toList ++ '/' :: ("unit".toList ++ ['/'])))) := by decide
  calc (pathOf name).toList
      = "/org/freedesktop/systemd1/unit/".toList ++ (ofName name).toList := String.toList_append
    _ = '/' :: ("org".toList ++ '/' :: ("freedesktop".toList ++ '/' ::
          ("systemd1".toList ++ '/' :: ("unit".toList ++ ['/'])))) ++ (ofName name).toList :=
      congrArg (· ++ _) hroot
    _ = '/' :: ['/'].intercalate (pathElements name) := by
      simp only [pathElements, List.intercalate_cons_cons, List.intercalate_singleton,
        List.cons_append, List.append_assoc, List.nil_append]

/-- The label of a name is an element of a path, unless the name has no characters. -/
theorem isElement_ofName_iff {name : String} : IsElement (ofName name).toList ↔ name ≠ "" := by
  have hbytes : name.toUTF8.data.toList = [] ↔ name = "" := by
    rw [Array.toList_eq_nil_iff, ← String.toByteArray_inj]
    exact ⟨ByteArray.ext, congrArg ByteArray.data⟩
  rw [IsElement, ofName, String.toList_ofList, ne_eq, encode_eq_nil_iff, hbytes]
  exact and_iff_left (encode_alphabet _)

theorem isElement_pathElements {name : String} (h : name ≠ "") :
    ∀ e ∈ pathElements name, IsElement e := by
  simp only [pathElements, List.forall_mem_cons, List.not_mem_nil, false_implies, implies_true,
    and_true, isElement_ofName_iff]
  exact ⟨by decide, by decide, by decide, by decide, h⟩

/-- A record has an object path of the right form if and only if its name has a character; the last
element is the label of the name then. Without a name the path ends in a slash. -/
theorem unitPath_valid_iff (name loadState activeState : String) :
    (Valid (named name loadState activeState).unitPath ↔ name ≠ "") ∧
    (named name loadState activeState).unitPath.toList =
      '/' :: ['/'].intercalate (pathElements name) ∧
    (name ≠ "" → ∀ e ∈ pathElements name, IsElement e) ∧
    (name = "" →
      (named name loadState activeState).unitPath = "/org/freedesktop/systemd1/unit/") := by
  have hunnamed : ¬ Valid (pathOf "") := by decide +kernel
  refine ⟨⟨fun hv he => hunnamed (he ▸ hv), fun h => ?_⟩, toList_pathOf name,
    isElement_pathElements, fun he => ?_⟩
  · exact ⟨pathElements name, isElement_pathElements h, toList_pathOf name⟩
  · show pathOf name = _
    rw [he]
    decide +kernel

/-- The name of a unit that begins with a digit and has a letter of two bytes. -/
theorem unitPath_valid_iff_escaped :
    "1é.service" ≠ "" ∧ Valid (named "1é.service" "loaded" "active").unitPath ∧
      IsElement "_31_c3_a9_2eservice".toList := by
  have hne : "1é.service" ≠ "" := by decide
  obtain ⟨hvalid, -, helements, -⟩ := unitPath_valid_iff "1é.service" "loaded" "active"
  have hlabel : ofName "1é.service" = "_31_c3_a9_2eservice" := by decide +kernel
  exact ⟨hne, hvalid.2 hne, hlabel ▸ helements hne _ (by simp [pathElements])⟩

/-- A record without a name has a path that ends in a slash, which is not the form of one. -/
theorem unnamed_unitPath_not_valid : ¬ Valid (named "" "loaded" "active").unitPath := by
  decide +kernel

end UnitStatus

end SystemdControl
