import Mathlib.Data.List.Basic

namespace Tablature

section Deduplication

variable {α β : Type} [BEq α] [BEq β]

/-- Induction along `eraseDups`: what holds once the later sights of the first member are gone holds with them. -/
theorem eraseDups_induct {motive : List α → Prop} (nil : motive [])
    (cons : ∀ x xs, motive (xs.filter fun y => !y == x) → motive (x :: xs)) : ∀ xs, motive xs
  | [] => nil
  | x :: xs => cons x xs (eraseDups_induct nil cons (xs.filter fun y => !y == x))
termination_by xs => xs.length
decreasing_by exact Nat.lt_succ_of_le (List.length_filter_le _ xs)

variable [LawfulBEq α] [LawfulBEq β]

theorem eraseDups_nodup (xs : List α) : xs.eraseDups.Nodup := by
  induction xs using eraseDups_induct with
  | nil => exact List.nodup_nil
  | cons x xs ih =>
    have fresh : x ∉ (xs.filter fun y => !y == x).eraseDups := by
      rw [List.mem_eraseDups, List.mem_filter]
      rintro ⟨_, other⟩
      simp only [BEq.rfl, Bool.not_true, Bool.false_eq_true] at other
    rw [List.eraseDups_cons]
    exact List.nodup_cons.mpr ⟨fresh, ih⟩

theorem eraseDups_of_nodup {xs : List α} (distinct : xs.Nodup) : xs.eraseDups = xs := by
  induction xs with
  | nil => rfl
  | cons x xs ih =>
    obtain ⟨fresh, rest⟩ := List.nodup_cons.mp distinct
    have others : (xs.filter fun y => !y == x) = xs := by
      refine List.filter_eq_self.mpr fun y member => ?_
      have different : y ≠ x := fun same => fresh (same ▸ member)
      simp only [beq_eq_false_iff_ne.mpr different, Bool.not_false]
    rw [List.eraseDups_cons, others, ih rest]

theorem eraseDups_idem (xs : List α) : xs.eraseDups.eraseDups = xs.eraseDups :=
  eraseDups_of_nodup (eraseDups_nodup xs)

/-- The first sights among some members are the first sights among all that are of these. -/
theorem eraseDups_filter (keep : α → Bool) (xs : List α) :
    (xs.filter keep).eraseDups = xs.eraseDups.filter keep := by
  induction xs using eraseDups_induct with
  | nil => rfl
  | cons x xs ih =>
    rw [List.filter_filter] at ih
    rw [List.eraseDups_cons]
    by_cases kept : keep x = true
    · rw [List.filter_cons_of_pos kept, List.filter_cons_of_pos kept, List.eraseDups_cons, List.filter_filter, ← ih]
      simp only [Bool.and_comm]
    · have other (y : α) : (keep y && !y == x) = keep y := by
        by_cases same : y = x
        · rw [same, Bool.not_eq_true _ |>.mp kept, Bool.false_and]
        · simp only [beq_eq_false_iff_ne.mpr same, Bool.not_false, Bool.and_true]
      rw [List.filter_cons_of_neg kept, List.filter_cons_of_neg kept, ← ih]
      simp only [other]

theorem removeAll_eraseDups (xs seen : List α) : xs.removeAll seen.eraseDups = xs.removeAll seen := by
  refine List.filter_congr fun x _ => ?_
  simp only [List.elem_eq_contains, List.contains_eq_mem, List.mem_eraseDups]

/-- Dropping what is seen again in either half first makes no difference. -/
theorem eraseDups_append_eraseDups (front back : List α) :
    (front.eraseDups ++ back.eraseDups).eraseDups = (front ++ back).eraseDups := by
  have unseen : (back.eraseDups.removeAll front).eraseDups = (back.removeAll front).eraseDups := by
    have filtered : (back.removeAll front).eraseDups = back.eraseDups.removeAll front := eraseDups_filter _ back
    rw [← filtered, eraseDups_idem]
  rw [List.eraseDups_append, List.eraseDups_append, removeAll_eraseDups, unseen, eraseDups_idem]

theorem eraseDups_append_congr {front front' back back' : List α} (first : front.eraseDups = front'.eraseDups)
    (second : back.eraseDups = back'.eraseDups) : (front ++ back).eraseDups = (front' ++ back').eraseDups := by
  rw [← eraseDups_append_eraseDups, first, second, eraseDups_append_eraseDups]

theorem eraseDups_flatten (groups : List (List α)) :
    (groups.map List.eraseDups).flatten.eraseDups = groups.flatten.eraseDups := by
  induction groups with
  | nil => rfl
  | cons group groups ih =>
    rw [List.map_cons, List.flatten_cons, List.flatten_cons]
    exact eraseDups_append_congr (eraseDups_idem group) ih

/-- Where a look tells all members apart, first sights are first sights of looks. -/
theorem eraseDups_map (look : α → β) {xs : List α} (apart : ∀ x ∈ xs, ∀ y ∈ xs, look x = look y → x = y) :
    (xs.map look).eraseDups = xs.eraseDups.map look := by
  induction xs using eraseDups_induct with
  | nil => rfl
  | cons x xs ih =>
    have inside {y : α} (member : y ∈ xs.filter fun y => !y == x) : y ∈ x :: xs :=
      List.mem_cons_of_mem x (List.mem_of_mem_filter member)
    have later := ih fun y inY z inZ => apart y (inside inY) z (inside inZ)
    have others : (xs.map look).filter (fun seen => !seen == look x) = (xs.filter fun y => !y == x).map look := by
      rw [List.filter_map]
      congr 1
      refine List.filter_congr fun y member => ?_
      by_cases same : y = x
      · simp only [same, Function.comp_apply, BEq.rfl]
      · have different : look y ≠ look x := fun alike =>
          same (apart y (List.mem_cons_of_mem x member) x List.mem_cons_self alike)
        simp only [Function.comp_apply, beq_eq_false_iff_ne.mpr same, beq_eq_false_iff_ne.mpr different]
    rw [List.map_cons, List.eraseDups_cons, others, later, List.eraseDups_cons, List.map_cons]

end Deduplication

end Tablature
