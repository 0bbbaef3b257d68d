import SystemdControl.Dbus.Message
import SystemdControl.Proofs.Text.Vocabulary

/-!
# The signal of a job that is gone

The signature of a body tells the kinds of its values one by one, since no signature of a value
begins that of another. So a body has the signature of the signal only if it is made of a number, a
path and two texts; then it is read, and nothing of it is lost: neither the numbers and paths, which
are taken over, nor the text of the result, which its vocabulary keeps.

* `Body.signature_values_eq_iff`: signatures of bodies are uniquely read;
* `JobRemoved.ofBody?_eq_ok_iff`: which bodies are read, and as what;
* `JobRemoved.texts_survive` puts this beside the vocabularies of results and states.
-/

namespace SystemdControl

/-! ## Signatures -/

/-- Where one signature ends and the rest begins is settled by the text alone. -/
theorem WireValue.signature_append_inj {v w : WireValue} {x y : List Char}
    (h : v.signature.toList ++ x = w.signature.toList ++ y) :
    v.signature = w.signature ∧ x = y := by
  cases v <;> cases w <;> simp_all [signature]

namespace Body

theorem toList_signature_cons (v : WireValue) (vs : List WireValue) :
    (values (v :: vs)).signature.toList =
      v.signature.toList ++ (values vs).signature.toList := by
  simp [signature]

theorem signature_values_eq_iff {vs ws : List WireValue} :
    (values vs).signature = (values ws).signature ↔
      vs.map WireValue.signature = ws.map WireValue.signature := by
  refine ⟨fun h => ?_, fun h => by rw [signature, signature, h]⟩
  have hchars := congrArg String.toList h
  clear h
  -- No signature of a value is empty, so the two lists end together.
  have hne : ∀ v : WireValue, v.signature.toList ≠ [] := fun v => by
    cases v <;> simp [WireValue.signature]
  induction vs generalizing ws with
  | nil =>
    cases ws with
    | nil => rfl
    | cons w ws =>
      rw [toList_signature_cons] at hchars
      exact absurd (List.append_eq_nil_iff.1 hchars.symm).1 (hne w)
  | cons v vs ih =>
    cases ws with
    | nil =>
      rw [toList_signature_cons] at hchars
      exact absurd (List.append_eq_nil_iff.1 hchars).1 (hne v)
    | cons w ws =>
      rw [toList_signature_cons, toList_signature_cons] at hchars
      obtain ⟨hhead, htail⟩ := WireValue.signature_append_inj hchars
      rw [List.map_cons, List.map_cons, hhead, ih htail]

end Body

/-! ## The signal -/

namespace JobRemoved

/-- The values of a body that has the signature of the signal. -/
theorem signature_eq_uoss_iff {vs : List WireValue} :
    (Body.values vs).signature = "uoss" ↔
      ∃ id path unit result, vs = [.u32 id, .objectPath path, .text unit, .text result] := by
  constructor
  · intro h
    have hkinds := (@Body.signature_values_eq_iff vs
      [.u32 0, .objectPath "", .text "", .text ""]).1 h
    obtain ⟨id, vs, rfl, hid, h⟩ := List.map_eq_cons_iff.1 hkinds
    obtain ⟨path, vs, rfl, hpath, h⟩ := List.map_eq_cons_iff.1 h
    obtain ⟨unit, vs, rfl, hunit, h⟩ := List.map_eq_cons_iff.1 h
    obtain ⟨result, vs, rfl, hresult, h⟩ := List.map_eq_cons_iff.1 h
    obtain rfl := List.map_eq_nil_iff.1 h
    cases id <;> simp [WireValue.signature] at hid
    cases path <;> simp [WireValue.signature] at hpath
    cases unit <;> simp [WireValue.signature] at hunit
    cases result <;> simp [WireValue.signature] at hresult
    exact ⟨_, _, _, _, rfl⟩
  · rintro ⟨id, path, unit, result, rfl⟩
    rfl

/-- What is read is what the body says, but for the text of the result, which stands for a
result. -/
theorem ofBody?_eq_ok_iff {vs : List WireValue} {e : JobRemoved} :
    ofBody? vs = .ok e ↔ (Body.values vs).fits = true ∧ ∃ result, e.result = .parse result ∧
      vs = [.u32 e.jobId, .objectPath e.jobPath.text, .text e.unit, .text result] := by
  unfold ofBody?
  cases hfits : (Body.values vs).fits with
  | false => simp
  | true =>
    simp only [Bool.not_true, Bool.false_eq_true, if_false, true_and]
    split
    · rename_i id path unit result
      simp only [Except.ok.injEq]
      constructor
      · rintro rfl
        exact ⟨result, rfl, rfl⟩
      · rintro ⟨text, hresult, hvs⟩
        simp only [List.cons.injEq, WireValue.u32.injEq, WireValue.objectPath.injEq,
          WireValue.text.injEq, and_true] at hvs
        obtain ⟨rfl, rfl, rfl, rfl⟩ := hvs
        rw [← hresult]
    · rename_i hshape
      simp only [reduceCtorEq, false_iff]
      rintro ⟨result, -, hvs⟩
      exact hshape _ _ _ _ hvs

/-- Whatever is wrong with a body, it is told as one and the same fault. -/
theorem exists_of_ofBody?_eq_error {vs : List WireValue} {error : Error}
    (h : ofBody? vs = .error error) : ∃ message, error = .dbus "SignalDecode" message := by
  unfold ofBody? at h
  split at h
  · exact ⟨_, (Except.error.inj h).symm⟩
  · split at h
    · cases h
    · exact ⟨_, (Except.error.inj h).symm⟩

/-- The vocabularies of results, load states and active states lose no text, mistake no known text
for an unknown one and know a text only by its exact spelling; and a job did what it was for only if
the text is `done`. So the signal of a job that is gone is read without loss. Of the bodies that the
wire can carry, those are read that have the signature of the signal, and no others; number, path,
unit and the text of the result are all in what is read. Everything else is a fault of the signal,
and so is what the wire cannot carry. -/
theorem texts_survive :
    JobResult.vocabulary.Faithful JobResult.parse JobResult.spelling ∧
    LoadState.vocabulary.Faithful LoadState.parse LoadState.spelling ∧
    ActiveState.vocabulary.Faithful ActiveState.parse ActiveState.spelling ∧
    (∀ s, (JobResult.parse s).isDone = true ↔ s = "done") ∧
    (∀ vs, (Body.values vs).fits = true →
      ((∃ e, ofBody? vs = .ok e) ↔ (Body.values vs).signature = "uoss")) ∧
    (∀ vs e, ofBody? vs = .ok e →
      (Body.values vs).fits = true ∧ JobResult.parse e.result.spelling = e.result ∧
      vs = [.u32 e.jobId, .objectPath e.jobPath.text, .text e.unit, .text e.result.spelling]) ∧
    ∀ vs error, ofBody? vs = .error error → ∃ message, error = .dbus "SignalDecode" message := by
  refine ⟨JobResult.faithful, LoadState.faithful, ActiveState.faithful, fun s => ?done,
    fun vs hfits => ?accepted, fun vs e h => ?readBack, fun vs error => exists_of_ofBody?_eq_error⟩
  case done =>
    have hdone : ∀ r : JobResult, r.isDone = true ↔ r = .done := fun r => by
      cases r <;> simp [JobResult.isDone]
    rw [hdone]
    exact JobResult.faithful.parse_eq_known_iff "done" .done (by decide) s
  case accepted =>
    rw [signature_eq_uoss_iff]
    constructor
    · rintro ⟨e, he⟩
      obtain ⟨-, result, -, hvs⟩ := ofBody?_eq_ok_iff.1 he
      exact ⟨_, _, _, _, hvs⟩
    · rintro ⟨id, path, unit, result, rfl⟩
      exact ⟨⟨id, ⟨path⟩, unit, .parse result⟩, ofBody?_eq_ok_iff.2 ⟨hfits, result, rfl, rfl⟩⟩
  case readBack =>
    obtain ⟨hfits, result, hresult, hvs⟩ := ofBody?_eq_ok_iff.1 h
    rw [hresult, JobResult.faithful.spelling_parse]
    exact ⟨hfits, rfl, hvs⟩

/-- A result with a capital letter is none that is known, and it is kept; with a path for the unit
the body is no longer one of the signal. -/
theorem texts_survive_capital :
    let body : List WireValue :=
      [.u32 7, .objectPath "/org/freedesktop/systemd1/job/7", .text "a.service", .text "Done"]
    (Body.values body).fits = true ∧
      (∃ e, ofBody? body = .ok e ∧ e.result = .other "Done" ∧ e.result.spelling = "Done") ∧
      (JobResult.parse "Done").isDone = false ∧
      ¬ ∃ e, ofBody? [.u32 7, .objectPath "/org/freedesktop/systemd1/job/7", .objectPath "/a",
        .text "done"] = .ok e := by
  intro body
  obtain ⟨hresult, -, -, hdone, haccepted, hback, -⟩ := texts_survive
  have hfits : (Body.values body).fits = true := by decide
  obtain ⟨e, he⟩ := (haccepted body hfits).2 (by decide)
  obtain ⟨-, hread, hbody⟩ := hback body e he
  have hspelling : e.result.spelling = "Done" := by simp_all [body]
  refine ⟨hfits, ⟨e, he, ?_, hspelling⟩, ?_, fun h => ?_⟩
  · rw [← hread, hspelling]
    exact (hresult.parse_eq_keep_iff "Done" "Done").2 ⟨rfl, by decide⟩
  · exact Bool.eq_false_iff.2 fun h => absurd ((hdone "Done").1 h) (by decide)
  · exact absurd ((haccepted _ (by decide)).1 h) (by decide)

end JobRemoved

end SystemdControl
