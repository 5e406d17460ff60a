import Mathlib.Data.List.Induction

/-! # Grants that later events end

Some events of a history grant something and some end what was granted. A grant is live after a
history when one of its events granted it and no event after that one ended it. The rule for one more
event is all that an implementation has to follow, and a grant that a longer history revives must have
been granted again.
-/

namespace RyuRooms.Foundation

variable {ε γ : Type*}

/-- `grant` was given by some event, and no event after it ended it. -/
def Live (grants : ε → Option γ) (ends : ε → γ → Prop) (past : List ε) (grant : γ) : Prop :=
  ∃ before event after, past = before ++ event :: after ∧ grants event = some grant ∧
    ∀ later ∈ after, ¬ ends later grant

variable {grants : ε → Option γ} {ends : ε → γ → Prop} {past more : List ε} {event : ε} {grant : γ}

theorem not_live_nil : ¬ Live grants ends [] grant := by
  rintro ⟨before, event, after, same, -⟩
  simp at same

/-- One more event either grants, or leaves live what it does not end. -/
theorem live_snoc_iff : Live grants ends (past ++ [event]) grant ↔
    grants event = some grant ∨ (Live grants ends past grant ∧ ¬ ends event grant) := by
  constructor
  · rintro ⟨before, origin, after, same, granted, kept⟩
    rcases after.eq_nil_or_concat with rfl | ⟨rest, last, rfl⟩
    · obtain ⟨-, rfl⟩ := List.append_inj' same rfl |>.imp id fun tail => (List.cons.inj tail).1
      exact Or.inl granted
    · rw [List.concat_eq_append, ← List.cons_append, ← List.append_assoc] at same
      obtain ⟨rfl, tail⟩ := List.append_inj' same rfl
      obtain rfl := (List.cons.inj tail).1
      exact Or.inr ⟨⟨before, origin, rest, rfl, granted, fun later member => kept later (by simp [member])⟩,
        kept event (by simp)⟩
  · rintro (granted | ⟨⟨before, origin, after, rfl, granted, kept⟩, spared⟩)
    · exact ⟨past, event, [], rfl, granted, by simp⟩
    · refine ⟨before, origin, after ++ [event], by simp, granted, ?_⟩
      intro later member
      rcases List.mem_append.mp member with earlier | last
      · exact kept later earlier
      · exact List.mem_singleton.mp last ▸ spared

/-- What is live after a longer history was live before, or is granted by the rest of it. -/
theorem Live.of_append (live : Live grants ends (past ++ more) grant) :
    Live grants ends past grant ∨ ∃ event ∈ more, grants event = some grant := by
  induction more using List.reverseRecOn with
  | nil => exact Or.inl (by simpa using live)
  | append_singleton rest last ih =>
    rw [← List.append_assoc, live_snoc_iff] at live
    rcases live with granted | ⟨earlier, -⟩
    · exact Or.inr ⟨last, by simp, granted⟩
    · exact (ih earlier).imp_right fun ⟨event, member, granted⟩ => ⟨event, by simp [member], granted⟩

theorem Live.mem (live : Live grants ends past grant) : ∃ event ∈ past, grants event = some grant := by
  obtain ⟨before, event, after, rfl, granted, -⟩ := live
  exact ⟨event, by simp, granted⟩

end RyuRooms.Foundation
