import Mathlib.Data.List.Induction

/-!
# Distinct elements in order of arrival

`List.eraseDups` keeps the first occurrence of every element. Requests and the keys of blocks are
counted this way: one more element comes last if it is new, and changes nothing otherwise
(`eraseDups_concat`).
-/

namespace AtomicRules

variable {α : Type} [DecidableEq α]

/-- One more element comes last if it is new, and changes nothing otherwise. -/
theorem eraseDups_concat (past : List α) (item : α) :
    (past ++ [item]).eraseDups =
      if item ∈ past then past.eraseDups else past.eraseDups ++ [item] := by
  rw [List.eraseDups_append]
  split
  · next hold => simp [List.removeAll, hold]
  · next hnew => simp [List.removeAll, hnew, List.eraseDups_cons]

/-- Later elements do not change the place of an earlier one. -/
theorem idxOf_eraseDups_append {past : List α} {item : α} (h : item ∈ past) (more : List α) :
    (past ++ more).eraseDups.idxOf item = past.eraseDups.idxOf item := by
  rw [List.eraseDups_append, List.idxOf_append, if_pos (List.mem_eraseDups.2 h)]

/-- The distinct elements are distinct. -/
theorem nodup_eraseDups (items : List α) : items.eraseDups.Nodup := by
  induction items using List.reverseRecOn with
  | nil => exact List.nodup_nil
  | append_singleton items item ih =>
      rw [eraseDups_concat]
      split
      · exact ih
      · next hnew =>
          rw [← List.mem_eraseDups] at hnew
          refine List.nodup_append.2 ⟨ih, List.nodup_cons.2 ⟨List.not_mem_nil, .nil⟩, ?_⟩
          rintro other hother _ hitem rfl
          exact hnew (List.mem_singleton.1 hitem ▸ hother)

/-- A list without repetitions is its own list of distinct elements. -/
theorem eraseDups_of_nodup {items : List α} (h : items.Nodup) : items.eraseDups = items := by
  induction items using List.reverseRecOn with
  | nil => rfl
  | append_singleton items item ih =>
      obtain ⟨hitems, -, hnew⟩ := List.nodup_append.1 h
      have hitem : item ∉ items := fun hmem => hnew item hmem item (by simp) rfl
      rw [eraseDups_concat, if_neg hitem, ih hitems]

end AtomicRules
