import RyuRooms.Runtime.Sound

/-! # What the runtime has published

Each step publishes the event its thread was about to publish, or nothing. Every event therefore names a
room id that `validate_room_id` took: the id of a snapshot, or the one a request to stop or close gave.
-/

namespace RyuRooms

open Foundation

theorem validateRoomId_ok_iff {value id : String} : validateRoomId value = .ok id ↔ id = trim value ∧
    13 ≤ (trim value).utf8ByteSize ∧ (trim value).utf8ByteSize ≤ 105 ∧ startsWith (trim value) "room_" ∧
      ∀ c ∈ (trim value).toList, isRoomIdChar c := by
  simp only [validateRoomId]
  split
  · next refused =>
    refine iff_of_false (fun taken => by cases taken) ?_
    rintro ⟨-, long, short, starts, plain⟩
    rcases refused with tooShort | tooLong | other | outside
    · exact long.not_gt tooShort
    · exact short.not_gt tooLong
    · exact other starts
    · obtain ⟨c, member, other⟩ := List.any_eq_true.mp outside
      simp [plain c member] at other
  · next taken =>
    simp only [not_or, not_lt, not_not] at taken
    obtain ⟨long, short, starts, plain⟩ := taken
    simp only [anyChar, List.any_eq_true, not_exists, not_and, Bool.not_eq_true', Bool.not_eq_false] at plain
    simp only [Except.ok.injEq, long, short, starts, true_and, @eq_comm _ id]
    exact ⟨fun same => ⟨same, plain⟩, And.left⟩

theorem visible_of_isRoomIdChar {c : Char} (plain : isRoomIdChar c) : isWhitespace c = false := by
  have codes : c.toNat = 45 ∨ (48 ≤ c.toNat ∧ c.toNat ≤ 57) ∨ (65 ≤ c.toNat ∧ c.toNat ≤ 95) ∨
      (97 ≤ c.toNat ∧ c.toNat ≤ 122) := by
    simp only [isRoomIdChar, Bool.or_eq_true, beq_iff_eq] at plain
    rcases plain with (letter | rfl) | rfl
    · delta Char.isAlphanum Char.isAlpha Char.isUpper Char.isLower Char.isDigit at letter
      simp only [UInt32.le_iff_toNat_le, Bool.or_eq_true, Bool.and_eq_true, decide_eq_true_eq] at letter
      change ((65 ≤ c.toNat ∧ c.toNat ≤ 90) ∨ (97 ≤ c.toNat ∧ c.toNat ≤ 122)) ∨ (48 ≤ c.toNat ∧ c.toNat ≤ 57) at letter
      omega
    · decide
    · decide
  simp only [isWhitespace, Bool.or_eq_false_iff, decide_eq_false_iff_not, beq_eq_false_iff_ne]
  omega

/-- A validated room id is its own. -/
theorem validateRoomId_idem {value id : String} (valid : validateRoomId value = .ok id) :
    validateRoomId id = .ok id := by
  obtain ⟨rfl, long, short, starts, plain⟩ := validateRoomId_ok_iff.mp valid
  rw [validateRoomId_ok_iff, trim_of_no_whitespace fun c member => visible_of_isRoomIdChar (plain c member)]
  exact ⟨rfl, long, short, starts, plain⟩

namespace Runtime

variable {store : RoomStore} {state next : Runtime} {label : Label}

/-- The event a thread publishes by its next step, and the room it names. -/
def emits : Thread → Option (String × RoomEvent)
  | .call _ (.publishAccepted accepted) =>
    some (accepted.snapshot.id, .turnAccepted accepted.run accepted.userMessage accepted.snapshot)
  | .call _ (.publishCanceled _ roomId runId snapshot) => some (roomId, .turnCanceled runId snapshot)
  | .call _ (.publishClosed roomId snapshot) => some (roomId, .roomClosed snapshot)
  | .task generation (.publishDelta delta) =>
    some (generation.roomId, .turnDelta generation.runId generation.requestId delta generation.partialText)
  | .task generation (.publishCompleted snapshot) =>
    some (generation.roomId, .turnCompleted generation.runId generation.requestId snapshot)
  | .task generation (.publishFailed code snapshot) =>
    some (generation.roomId, .turnFailed generation.runId generation.requestId code snapshot)
  | .call _ _ | .task _ _ => none

/-- A step publishes nothing, or what the thread it moves was about to. -/
theorem Step.published_cases (step : Step store state label next) : next.published = state.published ∨
    ∃ (k : ℕ) (thread : Thread) (entry : String × RoomEvent), (∃ draws fails, label = .advance k draws fails) ∧
      state.threads[k]? = some thread ∧ emits thread = some entry ∧ next.published = entry :: state.published := by
  have same {middle : Runtime} {k : ℕ} {thread : Thread} (logs : SameLogs state middle) :
      (middle.put k thread).published = state.published := by
    rw [put_published, logs.published]
  cases step with
  | begun => exact Or.inl rfl
  | dropped => exact Or.inl rfl
  | called held step =>
    cases step with
    | started => exact Or.inl (same startRun_logs)
    | signalled => exact Or.inl (same signal_logs)
    | removedStopped => exact Or.inl (same removeActive_logs)
    | publishedAccepted => exact Or.inr ⟨_, _, _, ⟨_, _, rfl⟩, held, rfl, rfl⟩
    | publishedCanceled => exact Or.inr ⟨_, _, _, ⟨_, _, rfl⟩, held, rfl, rfl⟩
    | publishedClosed => exact Or.inr ⟨_, _, _, ⟨_, _, rfl⟩, held, rfl, rfl⟩
    | _ => exact Or.inl rfl
  | ran held step =>
    cases step with
    | publishedDelta => exact Or.inr ⟨_, _, _, ⟨_, _, rfl⟩, held, rfl, rfl⟩
    | publishedCompleted => exact Or.inr ⟨_, _, _, ⟨_, _, rfl⟩, held, rfl, rfl⟩
    | publishedFailed => exact Or.inr ⟨_, _, _, ⟨_, _, rfl⟩, held, rfl, rfl⟩
    | removed => exact Or.inl (same removeActive_logs)
    | _ => exact Or.inl rfl
  | heard held step => cases step <;> exact Or.inl rfl
  | accessed fresh step => cases step <;> exact Or.inl rfl

/-- The room ids a thread publishes under, or hands on to be published under. -/
def publishesTo : Thread → Option String
  | .call _ (.accept _ snapshot) => some snapshot.id
  | .call _ (.publishAccepted accepted) | .call _ (.start accepted) => some accepted.snapshot.id
  | .call _ (.publishCanceled _ roomId _ _) | .call _ (.publishClosed roomId _) => some roomId
  | .task generation _ => some generation.roomId
  | .call _ _ => none

/-- Events are published under room ids that the store takes. -/
structure Named (state : Runtime) : Prop where
  threads : ∀ (k : ℕ) (thread : Thread), state.threads[k]? = some thread → ∀ roomId, publishesTo thread = some roomId →
    ∃ id, validateRoomId roomId = .ok id
  published : ∀ entry ∈ state.published, ∃ id, validateRoomId entry.1 = .ok id

namespace Named

theorem publishesTo_of_emits {thread : Thread} {entry : String × RoomEvent} (emitted : emits thread = some entry) :
    publishesTo thread = some entry.1 := by
  cases thread with
  | call request point => cases point <;> first | cases emitted; done | (cases emitted; rfl)
  | task generation point => cases point <;> first | cases emitted; done | (cases emitted; rfl)

theorem step (named : Named state) (step : Step store state label next) : Named next where
  published entry member := by
    rcases step.published_cases with same | ⟨k, thread, new, -, held, emitted, published⟩
    · exact named.published entry (same ▸ member)
    · rw [published, List.mem_cons] at member
      rcases member with rfl | old
      · exact named.threads k thread held _ (publishesTo_of_emits emitted)
      · exact named.published entry old
  threads := by
    refine step.each (fun _ thread => ∀ roomId, publishesTo thread = some roomId → ∃ id, validateRoomId roomId = .ok id)
      (fun _ thread => ∀ roomId, publishesTo thread = some roomId → ∃ id, validateRoomId roomId = .ok id)
      named.threads ?_ ?_ ?_ ?_ ?_ ?_ ?_
    · rintro k old found - keeps known
      cases keeps <;> exact known
    · rintro k request - roomId publishes
      cases request <;> cases publishes
    · exact fun k request roomId publishes => nomatch publishes
    · rintro index draws fails request point reached middle - - called - known roomId publishes
      have returns (closing : Bool) (id : String) (answer : Answer) :
          publishesTo (.call request (.afterStop closing id answer)) ≠ some roomId := by
        cases closing <;> nofun
      cases called with
      | readSnapshot valid shown =>
        obtain rfl : _ = roomId := Option.some.inj publishes
        rw [(RoomStore.snapshotFrom_currentRun shown).1]
        exact ⟨_, validateRoomId_idem valid⟩
      | accepted success =>
        obtain ⟨_, success⟩ := success
        obtain rfl : _ = roomId := Option.some.inj publishes
        rw [(RoomStore.acceptTurn_ok success).1]
        exact known _ rfl
      | publishedAccepted =>
        split at publishes
        · exact known _ publishes
        · cases publishes
      | readStopped valid shown => exact ⟨_, Option.some.inj publishes ▸ valid⟩
      | readClosed valid shown => exact ⟨_, Option.some.inj publishes ▸ valid⟩
      | publishedCanceled => exact absurd publishes (returns _ _ _)
      | refused refuses =>
        cases point with
        | stop closing id stopped => exact absurd publishes (returns _ _ _)
        | readStopped closing id stopped => exact absurd publishes (returns _ _ _)
        | _ => cases publishes
      | readClosing =>
        rw [closingPoint] at publishes
        split at publishes <;> cases publishes
      | _ => cases publishes
    · rintro index draws fails request accepted - - - - known
      exact known
    · rintro index draws fails generation point reached middle - - - - known
      exact known
    · rintro index received generation point changed reached middle - - heard - known
      cases heard <;> exact known

theorem initial (initial : Initial state) : Named state where
  threads k thread held := by simp [initial.threads] at held
  published entry member := by simp [initial.published] at member

end Named

end Runtime

end RyuRooms
