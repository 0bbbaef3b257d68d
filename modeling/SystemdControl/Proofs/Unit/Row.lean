import SystemdControl.Proofs.Unit.Path

/-!
# Rows of the listing

A record says the same as the row that it is read from, but for what the row says without meaning
it: an empty text is absent, and where there is no job, whatever stands in the three columns of the
job is left out. So a row can be written down again from its record, in a normal form, and two rows
have the same record exactly if they have the same normal form.

* `UnitStatus.toRow` writes a record down, `UnitRow.normal` is the normal form of a row;
* `UnitStatus.toRow_ofRow` and `UnitStatus.ofRow_eq_iff`: what is kept is the normal form;
* `UnitStatus.ofRow_normalises` says what records look like, and which rows have the same one.
-/

namespace SystemdControl

theorem getD_nonEmpty (s : String) : (nonEmpty s).getD "" = s := by
  unfold nonEmpty
  split
  · rename_i h
    exact (String.isEmpty_iff.1 h).symm
  · rfl

theorem nonEmpty_ne (s : String) : nonEmpty s ≠ some "" := by
  unfold nonEmpty
  split
  · simp
  · rename_i h
    simpa using h

/-! ## Rows -/

namespace UnitRow

variable {a b row : UnitRow}

theorem hasJob_iff : row.hasJob = true ↔ row.jobId ≠ 0 ∧ row.jobPath ≠ "/" := by
  simp [hasJob]

/-- The row of the same unit when no job is queued for it. -/
def withoutJob (row : UnitRow) : UnitRow :=
  { row with jobId := 0, jobType := "", jobPath := "/" }

/-- The row with nothing in the columns of the job unless there is one. -/
def normal (row : UnitRow) : UnitRow :=
  if row.hasJob then row else row.withoutJob

/-- Two rows agree in the seven columns that are not about a job. -/
structure AgreeApartFromJob (a b : UnitRow) : Prop where
  name : a.name = b.name
  description : a.description = b.description
  loadState : a.loadState = b.loadState
  activeState : a.activeState = b.activeState
  subState : a.subState = b.subState
  followed : a.followed = b.followed
  unitPath : a.unitPath = b.unitPath

theorem withoutJob_eq_iff : a.withoutJob = b.withoutJob ↔ AgreeApartFromJob a b := by
  simp only [withoutJob, UnitRow.mk.injEq, and_true]
  constructor
  · rintro ⟨hname, hdescription, hload, hactive, hsub, hfollowed, hpath⟩
    exact ⟨hname, hdescription, hload, hactive, hsub, hfollowed, hpath⟩
  · rintro ⟨hname, hdescription, hload, hactive, hsub, hfollowed, hpath⟩
    exact ⟨hname, hdescription, hload, hactive, hsub, hfollowed, hpath⟩

theorem hasJob_withoutJob (row : UnitRow) : row.withoutJob.hasJob = false := rfl

theorem hasJob_normal (row : UnitRow) : row.normal.hasJob = row.hasJob := by
  unfold normal
  split
  · rfl
  · rename_i h
    rw [hasJob_withoutJob, Bool.eq_false_iff.2 h]

theorem normal_eq_iff : a.normal = b.normal ↔
    (a.hasJob = true ∧ b.hasJob = true ∧ a = b) ∨
      (a.hasJob = false ∧ b.hasJob = false ∧ AgreeApartFromJob a b) := by
  -- Normal forms are of different kinds if only one of the rows has a job.
  have hkind : a.normal = b.normal → a.hasJob = b.hasJob := fun h => by
    rw [← hasJob_normal a, h, hasJob_normal]
  cases ha : a.hasJob <;> cases hb : b.hasJob
  · simp [normal, ha, hb, withoutJob_eq_iff]
  · simpa [ha, hb] using hkind
  · simpa [ha, hb] using hkind
  · simp [normal, ha, hb]

end UnitRow

/-! ## Records of rows -/

namespace UnitStatus

/-- The row of a record: absent texts are empty, and an absent job is written as no job. -/
def toRow (s : UnitStatus) : UnitRow where
  name := s.name
  description := s.description.getD ""
  loadState := s.loadState.spelling
  activeState := s.activeState.spelling
  subState := s.subState.getD ""
  followed := s.followed.getD ""
  unitPath := s.unitPath
  jobId := s.jobId.getD 0
  jobType := s.jobType.getD ""
  jobPath := s.jobPath.getD "/"

theorem toRow_ofRow (row : UnitRow) : (ofRow row).toRow = row.normal := by
  unfold UnitRow.normal
  cases h : row.hasJob <;>
    simp [ofRow, toRow, h, getD_nonEmpty, UnitRow.withoutJob, LoadState.spelling_parse,
      ActiveState.spelling_parse]

theorem ofRow_normal (row : UnitRow) : ofRow row.normal = ofRow row := by
  unfold UnitRow.normal
  cases h : row.hasJob with
  | true => rw [if_pos rfl]
  | false =>
    simp only [Bool.false_eq_true, if_false, ofRow, h, UnitRow.hasJob_withoutJob]
    rfl

theorem ofRow_eq_iff {a b : UnitRow} : ofRow a = ofRow b ↔ a.normal = b.normal :=
  ⟨fun h => by rw [← toRow_ofRow, h, toRow_ofRow], fun h => by rw [← ofRow_normal, h, ofRow_normal]⟩

theorem jobFields_of_hasJob {row : UnitRow} (h : row.hasJob = true) :
    (ofRow row).jobId = some row.jobId ∧ (ofRow row).jobType = nonEmpty row.jobType ∧
      (ofRow row).jobPath = some row.jobPath := by
  simp [ofRow, h]

theorem jobFields_of_not_hasJob {row : UnitRow} (h : row.hasJob = false) :
    (ofRow row).jobId = none ∧ (ofRow row).jobType = none ∧ (ofRow row).jobPath = none := by
  simp [ofRow, h]

/-- How records are that are read from rows. -/
structure Normalised (s : UnitStatus) : Prop where
  /-- No text is present and empty. -/
  texts : ∀ text ∈ [s.description, s.subState, s.followed, s.jobType, s.jobPath], text ≠ some ""
  /-- The fields of a job come together, and its type only with them. -/
  jobPath_iff : s.jobPath.isSome ↔ s.jobId.isSome
  jobType_imp : s.jobType.isSome → s.jobId.isSome
  /-- What stands for no job in a row is not in a record. -/
  jobId_ne : s.jobId ≠ some 0
  jobPath_ne : s.jobPath ≠ some "/"

theorem normalised_ofRow {row : UnitRow} (hpath : row.jobPath ≠ "") : (ofRow row).Normalised := by
  have htexts : (∀ text ∈ [(ofRow row).jobType, (ofRow row).jobPath], text ≠ some "") →
      ∀ text ∈ [(ofRow row).description, (ofRow row).subState, (ofRow row).followed,
        (ofRow row).jobType, (ofRow row).jobPath], text ≠ some "" := fun hjob => by
    simp only [List.forall_mem_cons] at hjob ⊢
    exact ⟨nonEmpty_ne _, nonEmpty_ne _, nonEmpty_ne _, hjob⟩
  cases h : row.hasJob with
  | false =>
    obtain ⟨hid, htype, hjob⟩ := jobFields_of_not_hasJob h
    exact {
      texts := htexts (by simp [htype, hjob])
      jobPath_iff := by rw [hid, hjob, Option.isSome_none, Option.isSome_none]
      jobType_imp := by simp [htype]
      jobId_ne := by simp [hid]
      jobPath_ne := by simp [hjob] }
  | true =>
    obtain ⟨hid, htype, hjob⟩ := jobFields_of_hasJob h
    obtain ⟨hid', hjob'⟩ := UnitRow.hasJob_iff.1 h
    exact {
      texts := htexts (by simp [htype, hjob, nonEmpty_ne, hpath])
      jobPath_iff := by rw [hid, hjob, Option.isSome_some, Option.isSome_some]
      jobType_imp := by simp [hid]
      jobId_ne := by simp [hid, hid']
      jobPath_ne := by simp [hjob, hjob'] }

/-- The record of a row whose job path is an object path is in normal form. It has a job exactly if
the row has a number of a job other than 0 and a path of it other than the root. Nothing else is
lost: what the record is written down as is the row, but for the job columns of a row without a job.
So two rows have the same record if both have a job and agree in all columns, or neither has one and
they agree in the seven other columns, and only then. -/
theorem ofRow_normalises (row row' : UnitRow) (hpath : ObjectPath.Valid row.jobPath) :
    (ofRow row).Normalised ∧
    ((ofRow row).jobId.isSome ↔ row.jobId ≠ 0 ∧ row.jobPath ≠ "/") ∧
    ((ofRow row).jobId.isSome → (ofRow row).toRow = row) ∧
    ((ofRow row).jobId = none → (ofRow row).toRow = row.withoutJob) ∧
    (ofRow row = ofRow row' ↔
      (row.hasJob = true ∧ row'.hasJob = true ∧ row = row') ∨
        (row.hasJob = false ∧ row'.hasJob = false ∧ row.AgreeApartFromJob row')) := by
  have hne : row.jobPath ≠ "" := fun he => absurd (he ▸ hpath) (by decide)
  have hjob : (ofRow row).jobId.isSome = row.hasJob := by
    cases h : row.hasJob with
    | false => rw [(jobFields_of_not_hasJob h).1, Option.isSome_none]
    | true => rw [(jobFields_of_hasJob h).1, Option.isSome_some]
  refine ⟨normalised_ofRow hne, ?_, fun h => ?_, fun h => ?_,
    ofRow_eq_iff.trans UnitRow.normal_eq_iff⟩
  · rw [hjob, UnitRow.hasJob_iff]
  · rw [toRow_ofRow, UnitRow.normal, if_pos (hjob ▸ h)]
  · rw [toRow_ofRow, UnitRow.normal, if_neg]
    rw [← hjob, h]
    exact Bool.false_ne_true

/-- Two rows that name only a half of a job, a different one each. -/
theorem ofRow_normalises_half_job :
    let row : UnitRow := ⟨"a.service", "", "loaded", "odd", "running", "",
      "/org/freedesktop/systemd1/unit/a_2eservice", 0, "start", "/org/freedesktop/systemd1/job/7"⟩
    let row' : UnitRow := { row with jobId := 7, jobType := "", jobPath := "/" }
    ObjectPath.Valid row.jobPath ∧ (ofRow row).Normalised ∧ row ≠ row' ∧ ofRow row = ofRow row' ∧
      (ofRow row).toRow = { row with jobType := "", jobPath := "/" } := by
  intro row row'
  have hpath : ObjectPath.Valid row.jobPath := by decide +kernel
  obtain ⟨hnormal, -, -, hnone, hsame⟩ := ofRow_normalises row row' hpath
  exact ⟨hpath, hnormal, by decide, hsame.2 (.inr ⟨by decide, by decide, ⟨rfl, rfl, rfl, rfl, rfl,
    rfl, rfl⟩⟩), hnone (by decide)⟩

end UnitStatus

end SystemdControl
