import RyuRooms.Crypto.MigrationSteps
import RyuRooms.Model.StoreSample

/-! # The compaction that a rewritten store owes

A store of which a cell was rewritten owes a scrub of its free pages, a `VACUUM` and a truncation of the WAL.
`Owes` is kept by every transaction of every call: until all three are done the record says that they are
pending, and a finished scrub is on record only while no cell was rewritten since.
-/

namespace RyuRooms.Crypto

open Foundation

variable {crates : Crates} {env : Environment} {cipher : ContentCipher}

/-- Everything that a rewritten cell asks for is done. -/
def Traces.Compacted (traces : Traces) : Prop := traces.scrubbed ∧ traces.vacuumed ∧ traces.truncated

/-- The record says that the compaction is pending. -/
def Disk.Pending (disk : Disk) : Prop := ∃ row, disk.record = some row ∧ row.state = .vacuumPending

/-- What a store owes is on record, and so is no scrub that it owes. -/
structure Owes (disk : Disk) : Prop where
  pending : disk.traces.rewritten → ¬ disk.traces.Compacted → disk.Pending
  scrubbed : scrubRecorded disk → disk.traces.rewritten → disk.traces.scrubbed

/-- What no compaction changes of a file. -/
structure SameCells (source target : Disk) : Prop where
  columns : target.columns = source.columns
  items : target.items = source.items
  kcv : (target.record.bind StoreRow.kcv) = source.record.bind StoreRow.kcv
  sealed : target.traces.sealed = source.traces.sealed
  planned : target.traces.planned = source.traces.planned

/-- The disk with another state of the store. -/
def Disk.stated (state : StoreState) (cursor : Option String) (disk : Disk) : Disk :=
  { disk with record := some (stateRow state cursor disk.record) }

section Cursors

/-- The scrub that a cursor records is read from it. -/
theorem scrubbed_parse_encode (cursor : PendingCursor) : (PendingCursor.parse cursor.encode).scrubbed = cursor.scrubbed := by
  obtain ⟨scrubbed, lastAttempt⟩ := cursor
  cases scrubbed with
  | true =>
    cases lastAttempt with
    | none => rfl
    | some at_ =>
      simp only [PendingCursor.encode, PendingCursor.parse, String.append_assoc, StoreSeal.stripPrefix_append]
  | false =>
    cases lastAttempt with
    | none => rfl
    | some at_ =>
      have unlike : stripPrefix (toString at_) SCRUBBED_CURSOR = none := by
        rw [stripPrefix, SCRUBBED_CURSOR]
        have first := @startsWith_toString_int at_ 's' "crubbed".toList (by decide) (by decide)
        exact if_neg (ne_true_of_eq_false first)
      simp only [PendingCursor.encode, PendingCursor.parse, unlike]

end Cursors

section Owing

variable {disk : Disk} {source target : Disk}

theorem Owes.of_pending (pending : disk.Pending) (scrubbed : scrubRecorded disk → disk.traces.rewritten → disk.traces.scrubbed) :
    Owes disk :=
  ⟨fun _ _ => pending, scrubbed⟩

theorem Owes.noteScrubbed (owes : Owes disk) : Owes disk.noteScrubbed :=
  ⟨fun rewritten owed => owes.pending rewritten fun done => owed ⟨rfl, done.2.1, done.2.2⟩, fun _ _ => rfl⟩

theorem Owes.noteVacuumed (owes : Owes disk) : Owes disk.noteVacuumed :=
  ⟨fun rewritten owed => owes.pending rewritten fun done => owed ⟨done.1, rfl, done.2.2⟩, owes.scrubbed⟩

theorem Owes.noteTruncated (owes : Owes disk) : Owes disk.noteTruncated := by
  refine ⟨fun rewritten owed => owes.pending rewritten fun done => owed ⟨done.1, done.2.1, ?_⟩, owes.scrubbed⟩
  simp only [Disk.noteTruncated, done.2.2, Bool.true_or]

theorem Owes.noted (owes : Owes disk) (plans : List ColumnPlan) : Owes (disk.noted plans) := ⟨owes.pending, owes.scrubbed⟩

/-- A pending compaction may be recorded at any time, with a scrub that is done. -/
theorem owes_stated (cursor : PendingCursor) (done : cursor.scrubbed → disk.traces.rewritten → disk.traces.scrubbed) :
    Owes (disk.stated .vacuumPending cursor.encode) := by
  refine .of_pending ⟨_, rfl, ?_⟩ fun recorded => done ?_
  · cases disk.record <;> rfl
  · have read : PendingCursor.parse ((stateRow .vacuumPending cursor.encode disk.record).cursor) =
        PendingCursor.parse cursor.encode := by cases disk.record <;> rfl
    simp only [scrubRecorded, Disk.stated, Option.any_some, read, scrubbed_parse_encode, decide_eq_true_eq] at recorded
    exact recorded.2

theorem owes_stated_ok (done : disk.traces.rewritten → disk.traces.Compacted) : Owes (disk.stated .ok none) := by
  refine ⟨fun rewritten owed => absurd (done rewritten) owed, fun recorded => ?_⟩
  have state : (stateRow .ok none disk.record).state = .ok := by cases disk.record <;> rfl
  simp only [scrubRecorded, Disk.stated, Option.any_some, state, reduceCtorEq, false_and, decide_false,
    Bool.false_eq_true] at recorded

/-- A record of the key changes nothing of what is owed. -/
theorem Owes.recorded (owes : Owes disk) (kcv : String) : Owes (disk.recorded kcv) := by
  refine ⟨fun rewritten owed => ?_, fun recorded => ?_⟩
  · obtain ⟨row, found, pending⟩ := owes.pending rewritten owed
    exact ⟨_, rfl, by rw [found]; exact pending⟩
  · refine owes.scrubbed ?_
    cases found : disk.record with
    | none =>
      simp only [scrubRecorded, Disk.recorded, found] at recorded
      cases recorded
    | some row =>
      simp only [scrubRecorded, Disk.recorded, found] at recorded ⊢
      exact recorded

namespace SameCells

theorem refl (disk : Disk) : SameCells disk disk := ⟨rfl, rfl, rfl, rfl, rfl⟩

theorem noteScrubbed (same : SameCells source target) : SameCells source target.noteScrubbed := { same with }

theorem noteVacuumed (same : SameCells source target) : SameCells source target.noteVacuumed := { same with }

theorem noteTruncated (same : SameCells source target) : SameCells source target.noteTruncated := { same with }

theorem stated (same : SameCells source target) (state : StoreState) (cursor : Option String) :
    SameCells source (target.stated state cursor) where
  columns := same.columns
  items := same.items
  kcv := by
    refine Eq.trans ?_ same.kcv
    rw [Disk.stated]
    cases target.record <;> rfl
  sealed := same.sealed
  planned := same.planned

end SameCells

end Owing

section Steps

variable {α : Type} {held ok bad : Disk → Prop} {disk : Disk} {policy : VacuumPolicy}

/-- An action that is attempted fails as the action does. -/
theorem leaves_attempt {ok : α → Disk → Prop} {action : Call α} (leaves : Leaves ok bad action disk) :
    Leaves (fun result target => match result with | .ok value => ok value target | .error _ => bad target) bad
      (attempt action) disk := by
  intro point
  have ends := leaves point
  rw [Ends] at ends ⊢
  rw [attempt]
  cases acted : action ⟨disk, point⟩ with
  | ok value target =>
    rw [acted] at ends
    exact ends
  | error stop target =>
    rw [acted] at ends
    cases stop <;> exact ends

theorem leaves_orFailed {result : Except String α} (holds : held disk) :
    Leaves (fun value target => held target ∧ result = .ok value) held (orFailed result) disk := by
  cases result with
  | ok value => exact Leaves.pure ⟨holds, rfl⟩
  | error message => exact Leaves.failed holds

/-- A statement of which this model keeps nothing. -/
theorem leaves_statement_id (holds : held disk) : Leaves (fun _ => held) held (statement env id) disk :=
  Leaves.statement (fun _ => holds) (fun _ => holds) holds

theorem leaves_reach (holds : held disk) : Leaves (fun _ => held) held (reach env) disk :=
  Leaves.reach (fun _ => holds) fun _ => holds

theorem leaves_checkpointTruncate (truncates : ∀ target, held target → held target.noteTruncated) (holds : held disk) :
    Leaves (fun _ target => held target ∧ (target.traces.vacuumed → target.traces.truncated)) held (checkpointTruncate env)
      disk := by
  rw [checkpointTruncate]
  generalize CHECKPOINT_ATTEMPTS = attempts
  generalize ((0 : ℤ), (0 : ℤ), (0 : ℤ)) = result
  induction attempts generalizing result disk with
  | zero => exact Leaves.failed holds
  | succ attempts ih =>
    refine (leaves_reach holds).bind fun point target here => ?_
    simp only
    refine Leaves.ite (fun _ => ?_) fun _ => ih here _
    refine Leaves.modify ⟨truncates target here, fun vacuumed => ?_⟩
    simp only [Disk.noteTruncated] at vacuumed ⊢
    rw [vacuumed, Bool.or_true]

theorem leaves_dropScrubTable (truncates : ∀ target, held target → held target.noteTruncated) (holds : held disk) :
    Leaves (fun _ => held) held (dropScrubTable env) disk := by
  refine (leaves_statement_id holds).bind fun _ first here => ?_
  refine (leaves_attempt (leaves_statement_id here)).bind fun dropped second here => ?_
  have here : held second := by cases dropped <;> exact here
  refine (leaves_attempt (leaves_statement_id here)).bind fun restored third here => ?_
  have here : held third := by cases restored <;> exact here
  refine (leaves_orFailed here).bind fun _ fourth here => ?_
  refine (leaves_orFailed here.1).bind fun _ fifth here => ?_
  exact (leaves_checkpointTruncate truncates here.1).imp fun _ _ here => here.1

theorem leaves_hasRoom (holds : held disk) {needed : ℕ} : Leaves (fun _ => held) held (hasRoom env needed) disk :=
  (leaves_reach holds).bind fun _ _ here => Leaves.pure here

theorem leaves_fillChunks (truncates : ∀ target, held target → held target.noteTruncated) (remaining : ℕ) (holds : held disk) :
    Leaves (fun _ => held) held (fillChunks env policy remaining) disk := by
  induction remaining using Nat.strong_induction_on generalizing disk with
  | _ remaining ih =>
    rw [fillChunks]
    split
    · exact Leaves.pure holds
    · next more =>
      refine (leaves_hasRoom holds).bind fun fits first here => ?_
      refine Leaves.ite (fun _ => ?_) fun _ => Leaves.pure here
      refine (leaves_statement_id here).bind fun _ second here => ?_
      refine (leaves_checkpointTruncate truncates here).bind fun _ third here => ?_
      refine ih _ ?_ here.1
      have chunk : 0 < min remaining SCRUB_CHUNK_BYTES := Nat.lt_min.mpr ⟨Nat.pos_of_ne_zero more, by decide⟩
      omega

theorem leaves_scrubFreelist (truncates : ∀ target, held target → held target.noteTruncated)
    (scrubs : ∀ target, held target → held target.noteScrubbed) (holds : held disk) :
    Leaves (fun filled target => held target ∧ (filled.isSome → target.traces.scrubbed)) held (scrubFreelist env policy)
      disk := by
  have marked (target : Disk) (here : held target) (pages : ℤ) :
      Leaves (fun filled target => held target ∧ (filled.isSome → target.traces.scrubbed)) held (do
        markScrubbed
        return some pages) target := by
    have mark : Leaves (fun _ after => after = target.noteScrubbed) held markScrubbed target := fun _ => rfl
    refine mark.bind fun _ after same => Leaves.pure ?_
    rw [same]
    exact ⟨scrubs target here, fun _ => rfl⟩
  refine (leaves_dropScrubTable truncates holds).bind fun _ first here => ?_
  refine (leaves_reach here).bind fun point second here => ?_
  simp only
  refine Leaves.ite (fun _ => marked second here 0) fun _ => ?_
  refine (leaves_reach here).bind fun size third here => ?_
  refine (leaves_statement_id here).bind fun _ fourth here => ?_
  refine (leaves_attempt (leaves_fillChunks truncates _ here)).bind fun filled fifth here => ?_
  have here : held fifth := by cases filled <;> exact here
  refine (leaves_attempt (leaves_dropScrubTable truncates here)).bind fun dropped sixth here => ?_
  have here : held sixth := by cases dropped <;> exact here
  refine (leaves_orFailed here).bind fun filled seventh here => ?_
  refine (leaves_orFailed here.1).bind fun _ eighth here => ?_
  exact Leaves.ite (fun _ => marked eighth here.1 _) fun _ => Leaves.pure ⟨here.1, fun some_ => by cases some_⟩

end Steps

section Calls

variable {source disk : Disk} {policy : VacuumPolicy}

/-- What every compaction keeps. -/
structure Kept (source target : Disk) : Prop where
  cells : SameCells source target
  owes : Owes target

namespace Kept

theorem noteScrubbed (kept : Kept source disk) : Kept source disk.noteScrubbed := ⟨kept.cells.noteScrubbed, kept.owes.noteScrubbed⟩

theorem noteVacuumed (kept : Kept source disk) : Kept source disk.noteVacuumed := ⟨kept.cells.noteVacuumed, kept.owes.noteVacuumed⟩

theorem noteTruncated (kept : Kept source disk) : Kept source disk.noteTruncated :=
  ⟨kept.cells.noteTruncated, kept.owes.noteTruncated⟩

theorem stated (kept : Kept source disk) (cursor : PendingCursor)
    (done : cursor.scrubbed → disk.traces.rewritten → disk.traces.scrubbed) :
    Kept source (disk.stated .vacuumPending cursor.encode) :=
  ⟨kept.cells.stated _ _, owes_stated cursor done⟩

end Kept

/-- What is kept, with what a scrub that is not repeated relies on. -/
structure Scrubbed (source target : Disk) : Prop extends Kept source target where
  done : target.traces.rewritten → target.traces.scrubbed

namespace Scrubbed

theorem noteVacuumed (scrubbed : Scrubbed source disk) : Scrubbed source disk.noteVacuumed :=
  ⟨scrubbed.toKept.noteVacuumed, scrubbed.done⟩

theorem noteTruncated (scrubbed : Scrubbed source disk) : Scrubbed source disk.noteTruncated :=
  ⟨scrubbed.toKept.noteTruncated, scrubbed.done⟩

end Scrubbed

theorem leaves_setPending (cursor : PendingCursor) (kept : Kept source disk)
    (done : cursor.scrubbed → disk.traces.rewritten → disk.traces.scrubbed) :
    Leaves (fun _ target => target = disk.stated .vacuumPending cursor.encode) (Kept source) (setPending env cursor) disk :=
  Leaves.statement (fun _ => kept) (fun _ => kept.stated cursor done) rfl

/-- After a scrub the `VACUUM` and the truncation complete what is owed. -/
theorem leaves_vacuum {α : Type} {value : α} (scrubbed : Scrubbed source disk) :
    Leaves (fun _ => Kept source) (Kept source) (do
      vacuum env
      checkpointTruncate env
      setStoreState env .ok none
      return value) disk := by
  have vacuumed : Leaves (fun _ target => target = disk.noteVacuumed) (Kept source) (vacuum env) disk :=
    Leaves.statement (fun _ => scrubbed.toKept) (fun _ => scrubbed.toKept.noteVacuumed) rfl
  refine vacuumed.bind fun _ first same => ?_
  have start : Scrubbed source first ∧ first.traces.vacuumed := by
    rw [same]
    exact ⟨scrubbed.noteVacuumed, rfl⟩
  have truncated := @leaves_checkpointTruncate env (fun target => Scrubbed source target ∧ target.traces.vacuumed) first
    (fun _ held => ⟨held.1.noteTruncated, held.2⟩) start
  refine (truncated.mono (fun _ _ held => held) fun _ held => held.1.toKept).bind fun _ second held => ?_
  obtain ⟨⟨scrubbed, vacuumed⟩, truncated⟩ := held
  have compacted (rewritten : second.traces.rewritten) : second.traces.Compacted :=
    ⟨scrubbed.done rewritten, vacuumed, truncated vacuumed⟩
  have stated : Kept source (second.stated .ok none) := ⟨scrubbed.cells.stated _ _, owes_stated_ok compacted⟩
  have state : Leaves (fun _ => Kept source) (Kept source) (setStoreState env .ok none) second :=
    Leaves.statement (fun _ => scrubbed.toKept) (fun _ => stated) stated
  exact state.bind fun _ third kept => Leaves.pure kept

/-- A scrub that is on record was done since the last cell was rewritten. -/
theorem leaves_scrubUnless {recorded : Bool} (kept : Kept source disk)
    (done : recorded → disk.traces.rewritten → disk.traces.scrubbed) :
    Leaves (fun filled target => Kept source target ∧ (filled.isSome → Scrubbed source target)) (Kept source)
      (if recorded then pure (some 0) else scrubFreelist env policy) disk := by
  refine Leaves.ite (fun already => Leaves.pure ⟨kept, fun _ => ⟨kept, done already⟩⟩) fun _ => ?_
  have scrubbed := @leaves_scrubFreelist env (Kept source) disk policy (fun _ => Kept.noteTruncated)
    (fun _ => Kept.noteScrubbed) kept
  refine scrubbed.imp fun filled target held => ?_
  exact ⟨held.1, fun some_ => ⟨held.1, fun _ => held.2 some_⟩⟩

theorem leaves_storeSize (scrubbed : Scrubbed source disk) :
    Leaves (fun _ => Scrubbed source) (Kept source) (storeSize env) disk := by
  have asked : Leaves (fun _ => Scrubbed source) (Kept source) (reach env) disk :=
    Leaves.reach (fun _ => scrubbed.toKept) fun _ => scrubbed
  exact asked.bind fun _ _ held => Leaves.pure held

theorem leaves_vacuumFits {size : ℕ} (scrubbed : Scrubbed source disk) :
    Leaves (fun _ => Scrubbed source) (Kept source) (vacuumFits env size policy) disk :=
  (leaves_hasRoom scrubbed).mono (fun _ _ held => held) fun _ held => held.toKept

theorem leaves_finishStoreInner (kept : Kept source disk) :
    Leaves (fun _ => Kept source) (Kept source) (finishStoreInner env policy) disk := by
  have truncated := @leaves_checkpointTruncate env (Kept source) disk (fun _ => Kept.noteTruncated) kept
  refine truncated.bind fun _ first held => ?_
  have read : Leaves (fun found target => target = first ∧ found = first) (Kept source) (readDisk env) first :=
    Leaves.readDisk (fun _ => held.1) ⟨rfl, rfl⟩
  refine read.bind fun found second here => ?_
  obtain ⟨rfl, rfl⟩ := here
  refine (leaves_scrubUnless held.1 held.1.owes.scrubbed).bind fun filled third here => ?_
  cases filled with
  | none =>
    refine (leaves_setPending {} here.1 fun none => by cases none).bind fun _ fourth same => Leaves.pure ?_
    rw [same]
    exact here.1.stated {} fun none => by cases none
  | some pages =>
    simp only
    refine (leaves_storeSize (here.2 rfl)).bind fun size fourth scrubbed => ?_
    have room : Leaves (fun _ => Scrubbed source) (Kept source)
        (if size ≤ policy.vacuumNowMaxBytes then vacuumFits env size policy else pure false) fourth :=
      Leaves.ite (fun _ => leaves_vacuumFits scrubbed) fun _ => Leaves.pure scrubbed
    refine room.bind fun now fifth scrubbed => ?_
    refine Leaves.ite (fun _ => leaves_vacuum scrubbed) fun _ => ?_
    refine (leaves_setPending { scrubbed := true } scrubbed.toKept fun _ => scrubbed.done).bind fun _ sixth same => ?_
    rw [same]
    exact Leaves.pure (scrubbed.toKept.stated { scrubbed := true } fun _ => scrubbed.done)

theorem leaves_finishStoreWith (kept : Kept source disk) :
    Leaves (fun _ => Kept source) (Kept source) (finishStoreWith env policy) disk := by
  have ensured : Leaves (fun _ => Kept source) (Kept source) (requireSecureDelete env) disk := by
    refine (leaves_reach kept).bind fun point first here => ?_
    exact Leaves.ite (fun _ => Leaves.failed here) fun _ => Leaves.pure here
  refine ensured.bind fun _ first here => ?_
  refine (leaves_statement_id here).bind fun _ second here => ?_
  refine (leaves_statement_id here).bind fun _ third here => ?_
  refine (leaves_attempt (leaves_finishStoreInner here)).bind fun result fourth here => ?_
  cases result with
  | ok outcome => exact Leaves.pure here
  | error message =>
    have set : Leaves (fun _ => Kept source) (Kept source) (setStoreState env .vacuumPending none) fourth :=
      (leaves_setPending {} here fun none => by cases none).imp fun _ target same =>
        same ▸ here.stated {} fun none => by cases none
    refine (leaves_attempt set).bind fun state fifth here => Leaves.failed ?_
    cases state <;> exact here

/-- The end of a pending compaction, after its scrub. -/
theorem leaves_compact (cursor : PendingCursor) (scrubbed : Scrubbed source disk) :
    Leaves (fun _ => Kept source) (Kept source) (do
      let size ← storeSize env
      if policy.vacuumNowMaxBytes < size then return false
      if !(← vacuumFits env size policy) then
        setPending env cursor
        return false
      vacuum env
      checkpointTruncate env
      setStoreState env .ok none
      return true) disk := by
  refine (leaves_storeSize scrubbed).bind fun size first scrubbed => ?_
  refine Leaves.ite (fun _ => Leaves.pure scrubbed.toKept) fun _ => ?_
  refine (leaves_vacuumFits scrubbed).bind fun fits second scrubbed => ?_
  refine Leaves.ite (fun _ => ?_) fun _ => leaves_vacuum scrubbed
  refine (leaves_setPending cursor scrubbed.toKept fun _ => scrubbed.done).bind fun _ third same => ?_
  rw [same]
  exact Leaves.pure (scrubbed.toKept.stated cursor fun _ => scrubbed.done)

theorem leaves_runPendingVacuumWith (kept : Kept source disk) :
    Leaves (fun _ => Kept source) (Kept source) (runPendingVacuumWith env policy) disk := by
  refine (leaves_statement_id kept).bind fun _ first kept => ?_
  have read : Leaves (fun found target => target = first ∧ found = first) (Kept source) (readDisk env) first :=
    Leaves.readDisk (fun _ => kept) ⟨rfl, rfl⟩
  refine read.bind fun found second here => ?_
  obtain ⟨rfl, rfl⟩ := here
  cases recorded : found.record with
  | none => exact Leaves.pure kept
  | some row =>
    refine Leaves.ite (fun _ => Leaves.pure kept) fun pending => ?_
    refine Leaves.ite (fun _ => Leaves.pure kept) fun _ => ?_
    -- What the record says of the scrub is true until the compaction itself changes it.
    let held (target : Disk) := Kept source target ∧
      ((PendingCursor.parse row.cursor).scrubbed → target.traces.rewritten → target.traces.scrubbed)
    have start : held found := by
      refine ⟨kept, fun marked => kept.owes.scrubbed ?_⟩
      rw [scrubRecorded, recorded]
      exact decide_eq_true ⟨not_not.mp pending, marked⟩
    have secure : Leaves (fun _ => held) (Kept source) (requireSecureDelete env) found := by
      refine ((leaves_reach start).mono (fun _ _ here => here) fun _ here => here.1).bind fun point third here => ?_
      exact Leaves.ite (fun _ => Leaves.failed here.1) fun _ => Leaves.pure here
    refine secure.bind fun _ third here => ?_
    refine ((leaves_statement_id here).mono (fun _ _ here => here) fun _ here => here.1).bind fun _ fourth here => ?_
    have truncated := @leaves_checkpointTruncate env held fourth
      (fun _ here => ⟨here.1.noteTruncated, here.2⟩) here
    refine (truncated.mono (fun _ _ here => here.1) fun _ here => here.1).bind fun _ fifth here => ?_
    refine Leaves.ite (fun unscrubbed => ?_) fun marked => ?_
    · have scrub := @leaves_scrubFreelist env (Kept source) fifth policy (fun _ => Kept.noteTruncated)
        (fun _ => Kept.noteScrubbed) here.1
      refine scrub.bind fun filled sixth here => ?_
      have unscrubbed : (PendingCursor.parse row.cursor).scrubbed = false := by simpa using unscrubbed
      refine Leaves.ite (fun _ => ?_) fun some_ => ?_
      · have later := @leaves_setPending env source sixth
          { PendingCursor.parse row.cursor with lastAttempt := some env.now } here.1 fun marked =>
            absurd (unscrubbed.symm.trans marked) Bool.false_ne_true
        refine later.bind fun _ seventh same => Leaves.pure ?_
        rw [same]
        exact here.1.stated _ fun marked => absurd (unscrubbed.symm.trans marked) Bool.false_ne_true
      · have filled : filled.isSome := Option.isSome_iff_ne_none.mpr (by simpa using some_)
        have scrubbed : Scrubbed source sixth := ⟨here.1, fun _ => here.2 filled⟩
        refine (leaves_setPending { scrubbed := true } scrubbed.toKept fun _ => scrubbed.done).bind fun _ seventh same => ?_
        refine leaves_compact _ ⟨?_, ?_⟩
        · rw [same]
          exact scrubbed.toKept.stated _ fun _ => scrubbed.done
        · rw [same]
          exact scrubbed.done
    · have marked : (PendingCursor.parse row.cursor).scrubbed = true := by simpa using marked
      exact leaves_compact _ ⟨here.1, here.2 marked⟩

end Calls

section Migrations

variable {disk : Disk} {plan : ColumnPlan} {plans : List ColumnPlan} {report : MigrationReport}

/-- The compaction is pending with no scrub on record. -/
def Disk.Scrubless (disk : Disk) : Prop :=
  ∃ row, disk.record = some row ∧ row.state = .vacuumPending ∧ (PendingCursor.parse row.cursor).scrubbed = false

theorem Owes.of_scrubless (scrubless : disk.Scrubless) : Owes disk := by
  obtain ⟨row, recorded, pending, unscrubbed⟩ := scrubless
  refine .of_pending ⟨row, recorded, pending⟩ fun marked => ?_
  simp only [scrubRecorded, recorded, Option.any_some, unscrubbed, Bool.false_eq_true, and_false, decide_false] at marked

theorem scrubless_started (cursor : Option String) : (disk.started plan cursor).Scrubless := by
  refine ⟨owedRow disk.record, rfl, ?_⟩
  cases disk.record with
  | none => exact ⟨rfl, rfl⟩
  | some row =>
    rw [owedRow]
    cases state : row.state with
    | ok => exact ⟨rfl, rfl⟩
    | vacuumPending =>
      simp only
      split
      · exact ⟨rfl, scrubbed_parse_encode _⟩
      · next unmarked => exact ⟨state, Bool.eq_false_iff.mpr unmarked⟩

/-- No item of a migration rewrites a cell that is not owed. -/
theorem leaves_migrateItem_owes {wasRetired : Bool} (owes : Owes disk) :
    Leaves (fun _ => Owes) Owes (migrateItem crates env cipher wasRetired report plan) disk := by
  have ended (target : Disk) (scrubless : target.Scrubless) : Owes (target.finished plan) := by
    have same : (target.finished plan).Scrubless := scrubless
    exact .of_scrubless same
  refine @leaves_migrateItem crates env cipher plan Owes (fun _ _ _ target => target.Scrubless)
    (fun _ target => target.Scrubless) (fun _ => Owes) disk report wasRetired (fun _ => owes) (fun _ _ => owes)
    (fun _ _ _ => scrubless_started _) (fun _ _ _ _ scrubless _ => .of_scrubless scrubless)
    (fun _ _ _ _ _ scrubless _ => .of_scrubless scrubless) (fun _ _ _ scrubless => .of_scrubless scrubless) ?_
    (fun _ _ scrubless _ => .of_scrubless scrubless) ?_
  · intro fuel cursor report disk result after next scrubless batched
    have same : next.Scrubless := by rwa [Disk.Scrubless, batched.record]
    split <;> exact same
  · intro report target scrubless
    rw [Disk.closed]
    split
    · exact (ended target scrubless).recorded _
    · exact ended target scrubless

theorem leaves_migrateColumns_owes (owes : Owes disk) :
    Leaves (fun _ => Owes) Owes (migrateColumns crates env cipher plans) disk := by
  have noted := owes.noted plans
  refine (@leaves_migrateColumns crates env cipher Owes disk plans (fun _ _ _ => Owes) (fun _ => noted) (fun _ => noted)
    (fun _ => noted) (fun _ _ => noted.recorded _) (fun _ => noted) ?_ ?_).imp fun _ _ held => held.elim fun _ owes => owes
  · intro state target checked admitted
    cases state with
    | recorded => exact checked.2 ▸ noted.recorded _
    | current => exact checked.2 ▸ noted
    | retired => exact checked.2 ▸ noted
    | mismatch kcv => exact absurd rfl (admitted kcv)
  · exact fun wasRetired done plan rest report target _ here => leaves_migrateItem_owes here

end Migrations

section Runs

variable {disk : Disk} {call : StoreCall}

/-- Where a call ends is where its triple says. -/
theorem run_of_leaves {held : Disk → Prop} (leaves : Leaves (fun _ => held) held (call.act crates cipher env) disk) :
    held (call.run crates cipher env disk) := by
  have ends := leaves 0
  rw [Ends] at ends
  rw [StoreCall.run, outcome]
  cases acted : call.act crates cipher env ⟨disk, 0⟩ with
  | ok value target =>
    rw [acted] at ends
    exact ends
  | error stop target =>
    rw [acted] at ends
    exact ends

theorem owes_run (owes : Owes disk) : Owes (call.run crates cipher env disk) := by
  have kept : Kept disk disk := ⟨.refl disk, owes⟩
  refine run_of_leaves ?_
  cases call with
  | checkStoreKey =>
    have checked := @leaves_checkStoreKey env cipher Owes disk (fun _ => owes) (fun _ _ => owes.recorded _) fun _ => owes
    refine checked.bind fun state target checked => Leaves.pure ?_
    cases state with
    | recorded => exact checked.2 ▸ owes.recorded _
    | current => exact checked.2 ▸ owes
    | retired => exact checked.2 ▸ owes
    | mismatch kcv => exact checked.2 ▸ owes
  | resetItems plans =>
    exact leaves_resetItems (owes.noted plans) fun plan _ target owes => ⟨owes.pending, owes.scrubbed⟩
  | migrateColumns plans => exact (leaves_migrateColumns_owes owes).bind fun _ _ owes => Leaves.pure owes
  | finishStore policy =>
    have ends : Leaves (fun _ => Kept disk) (Kept disk) (StoreCall.act crates cipher env (.finishStore policy)) disk :=
      (leaves_finishStoreWith kept).bind fun _ _ kept => Leaves.pure kept
    exact ends.mono (fun _ _ kept => kept.owes) fun _ kept => kept.owes
  | runPendingVacuum policy =>
    have ends : Leaves (fun _ => Kept disk) (Kept disk) (StoreCall.act crates cipher env (.runPendingVacuum policy)) disk :=
      (leaves_runPendingVacuumWith kept).bind fun _ _ kept => Leaves.pure kept
    exact ends.mono (fun _ _ kept => kept.owes) fun _ kept => kept.owes

theorem owes_runCalls (calls : List (Environment × StoreCall)) (owes : Owes disk) :
    Owes (runCalls crates cipher calls disk) := by
  induction calls generalizing disk with
  | nil => exact owes
  | cons call rest ih => exact ih (owes_run owes)

end Runs

end RyuRooms.Crypto
