import Mathlib.Data.List.Basic

namespace DnsAnnounce.Separated

theorem intercalate_append {α : Type} {sep : α} {front back : List (List α)} (hf : front ≠ []) (hb : back ≠ []) :
    [sep].intercalate (front ++ back) = [sep].intercalate front ++ sep :: [sep].intercalate back := by
  induction front with
  | nil => contradiction
  | cons part front ih =>
    cases front with
    | nil => rw [List.singleton_append, List.intercalate_cons_of_ne_nil hb]; simp
    | cons next front =>
      rw [List.cons_append, List.intercalate_cons_of_ne_nil (by simp), ih (List.cons_ne_nil _ _),
        List.intercalate_cons_of_ne_nil (List.cons_ne_nil _ _)]
      simp

theorem not_of_mem_splitOnP {α : Type} {p : α → Bool} {t w : List α} (h : w ∈ t.splitOnP p) :
    ∀ c ∈ w, p c = false := by
  induction t generalizing w with
  | nil =>
    obtain rfl := List.mem_singleton.mp h
    exact List.forall_mem_nil _
  | cons c t ih =>
    rw [List.splitOnP_cons_eq_if_modifyHead] at h
    split_ifs at h with hc
    · obtain rfl | h := List.mem_cons.mp h
      · exact List.forall_mem_nil _
      · exact ih h
    · obtain ⟨w', ws, hs⟩ := List.exists_cons_of_ne_nil (List.splitOnP_ne_nil p t)
      rw [hs] at h ih
      obtain rfl | h := List.mem_cons.mp h
      · exact List.forall_mem_cons.mpr ⟨Bool.eq_false_iff.mpr hc, ih List.mem_cons_self⟩
      · exact ih (List.mem_cons_of_mem _ h)

section SplitOn

variable {α : Type} [DecidableEq α] {sep : α}

theorem splitOn_concat (s : List α) : (s ++ [sep]).splitOn sep = s.splitOn sep ++ [[]] := by
  rw [List.splitOn_append_cons_self, List.splitOn_nil]

theorem getLast_ne_of_parts {s : List α} (h : ∀ part ∈ s.splitOn sep, part ≠ []) : s.getLast? ≠ some sep := by
  intro hlast
  obtain ⟨init, rfl⟩ := List.getLast?_eq_some_iff.mp hlast
  rw [splitOn_concat] at h
  exact h [] (List.mem_append_right _ List.mem_cons_self) rfl

/-- A letterwise map that neither makes nor loses a separator leaves the parts where they are. -/
theorem splitOn_map {f : α → α} (hf : ∀ a, f a = sep ↔ a = sep) (s : List α) :
    (s.map f).splitOn sep = (s.splitOn sep).map (List.map f) := by
  induction s with
  | nil => rfl
  | cons a s ih =>
    have hiff : (f a == sep) = (a == sep) := by rw [Bool.eq_iff_iff, beq_iff_eq, beq_iff_eq, hf]
    rw [List.map_cons, List.splitOn_cons_eq_if_modifyHead, List.splitOn_cons_eq_if_modifyHead, hiff, ih]
    split_ifs with ha
    · rfl
    · obtain ⟨first, rest, hs⟩ := List.exists_cons_of_ne_nil (List.splitOn_ne_nil sep s)
      rw [hs]
      rfl

/-- The parts of `t` end those of `s` exactly if `t` is all of `s`, or stands in it behind a separator. -/
theorem suffix_splitOn_iff {s t : List α} :
    t.splitOn sep <:+ s.splitOn sep ↔ s = t ∨ ∃ front, s = front ++ sep :: t := by
  constructor
  · rintro ⟨front, hfront⟩
    have hs : [sep].intercalate (s.splitOn sep) = s := List.intercalate_splitOn sep
    rw [← hfront] at hs
    by_cases hnil : front = []
    · rw [hnil, List.nil_append, List.intercalate_splitOn] at hs
      exact .inl hs.symm
    · rw [intercalate_append hnil (List.splitOn_ne_nil _ _), List.intercalate_splitOn] at hs
      exact .inr ⟨_, hs.symm⟩
  · rintro (rfl | ⟨front, rfl⟩)
    · exact List.suffix_rfl
    · rw [List.splitOn_append_cons_self]
      exact List.suffix_append _ _

end SplitOn

end DnsAnnounce.Separated
