/- A task has at most one successor, and only once it is superseded. -/
import Fleet.Api.Effects

namespace Fleet.Api
open Fleet.Lib

def Task.Superseded (t : Task) : Prop := t.status = .retasked ∨ t.status = .redirected

/-- Every parent is superseded, and no two tasks share a parent. -/
structure Succession (s : Store) : Prop where
  superseded : ∀ t ∈ s.tasks, ∀ p, t.parentTaskId = some p →
    ∃ parent ∈ s.tasks, parent.id = p ∧ parent.Superseded
  only : ∀ t ∈ s.tasks, ∀ u ∈ s.tasks, t.parentTaskId ≠ none →
    t.parentTaskId = u.parentTaskId → t = u

/-- A superseded task stays superseded. -/
theorem Task.Superseded.kept {t t' : Task} (h : t.Superseded)
    (moved : t'.status = t.status ∨ t'.status ∈ validTransitions t.status) : t'.Superseded := by
  rcases moved with same | valid
  · unfold Task.Superseded
    rw [same]
    exact h
  · rw [superseded_final h] at valid
    cases valid

namespace Succession
variable {s s' : Store}

theorem of_blank (blank : s.Blank) : Succession s := by
  constructor <;> intro t member <;> exact absurd member (blank.not_mem t)

theorem of_carries (h : Succession s) {new : Option Task} (carries : Carries s s' new)
    (parent : ∀ t, new = some t → ∀ p, t.parentTaskId = some p →
      (∃ parent ∈ s'.tasks, parent.id = p ∧ parent.Superseded) ∧
        ∃ before ∈ s.tasks, before.id = p ∧ ¬ before.Superseded) : Succession s' := by
  have first : ∀ t, new = some t → ∀ p, t.parentTaskId = some p → ∀ u ∈ s.tasks,
      u.parentTaskId ≠ some p := by
    intro t added p link u stored link'
    obtain ⟨before, member, same, live⟩ := (parent t added p link).2
    obtain ⟨above, member', same', replaced⟩ := h.superseded u stored p link'
    exact live (Table.eq_of_key member' member (same'.trans same.symm) ▸ replaced)
  refine ⟨fun t member p link => ?_, fun t member u member' link same => ?_⟩
  · rcases carries.back t member with added | ⟨old, stored, origin⟩
    · exact (parent t added p link).1
    · obtain ⟨above, member', rfl, replaced⟩ :=
        h.superseded old stored p (origin.parent.symm.trans link)
      obtain ⟨above', member'', origin', moved⟩ := carries.forth above member'
      exact ⟨above', member'', origin'.id, replaced.kept moved⟩
  · obtain ⟨p, named⟩ := Option.ne_none_iff_exists'.mp link
    rcases carries.back t member with added | ⟨old, stored, origin⟩
    · rcases carries.back u member' with added' | ⟨old', stored', origin'⟩
      · exact Option.some.inj (added.symm.trans added')
      · have clash := first t added p named old' stored'
        exact absurd (by rw [← origin'.parent, ← same, named]) clash
    · rcases carries.back u member' with added' | ⟨old', stored', origin'⟩
      · have clash := first u added' p (same.symm.trans named) old stored
        exact absurd (by rw [← origin.parent, named]) clash
      · have merged : old = old' := by
          apply h.only old stored old' stored'
          · rw [← origin.parent]
            exact link
          · rw [← origin.parent, ← origin'.parent, same]
        subst merged
        exact Table.eq_of_key member member' (origin.id.trans origin'.id.symm)

theorem commit (h : Succession s) {env : Env} {quiet : TaskEvent → Prop} {w : Work}
    (change : Change env Persists quiet s w) (fresh : w.StatusFresh s)
    (committed : Store.flush w s = .ok s') : Succession s' := by
  have carries := change.carries fresh committed
  have status := Store.flush_status committed change.dirty_stored
  apply h.of_carries carries
  cases change with
  | move | note | inject => rintro t ⟨⟩
  | create task caller now top =>
      intro t new p link
      cases new
      rw [top.parent] at link
      cases link
  | succeed task task' e touched valid superseded =>
      rintro t ⟨⟩ p ⟨⟩
      obtain ⟨before, member, origin⟩ := touched.stored.stored
      have differs := moved_ne valid
      have found : s.tasks.find? task.id = some before := origin.id ▸ Table.find?_mem member
      have read : before.status = task.status := by
        have seen := (fresh _ rfl).resolve_left differs
        simpa [Store.status?, found] using seen
      have live : ¬ before.Superseded := by
        intro replaced
        rw [← read, superseded_final replaced] at valid
        cases valid
      refine ⟨?_, before, member, origin.id, live⟩
      have written := status task.id
      rw [Work.statusWrites_moved rfl differs] at written
      · obtain ⟨after, found', status'⟩ := Option.map_eq_some_iff.mp written
        obtain ⟨member', own⟩ := Table.find?_eq_some.mp found'
        refine ⟨after, member', own, ?_⟩
        unfold Task.Superseded
        rw [status']
        exact superseded
      · intro u new same
        have absent := carries.absent u new
        rw [same, found] at absent
        cases absent

end Succession
end Fleet.Api
