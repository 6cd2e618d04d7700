import Mathlib.Data.List.Destutter
import Mathlib.Data.List.Sort

namespace DnsAnnounce.Canonical

variable {α : Type} {r : α → α → Prop}

def Strict (r : α → α → Prop) (a b : α) : Prop := r a b ∧ a ≠ b

section Antisymm

variable [Std.Antisymm r]

theorem strict_of_isChain {l : List α} (hsorted : l.Pairwise r) (hchain : l.IsChain (· ≠ ·)) :
    l.Pairwise (Strict r) := by
  induction l with
  | nil => exact List.Pairwise.nil
  | cons a l ih =>
    obtain ⟨hfirst, hrest⟩ := List.pairwise_cons.mp hsorted
    refine List.pairwise_cons.mpr ⟨fun x hx => ⟨hfirst x hx, ?_⟩, ih hrest hchain.tail⟩
    rintro rfl
    cases l with
    | nil => exact List.not_mem_nil hx
    | cons b l =>
      have hne : a ≠ b := (List.isChain_cons_cons.mp hchain).1
      obtain rfl | hx := List.mem_cons.mp hx
      · exact hne rfl
      · exact hne (antisymm (hfirst b List.mem_cons_self) ((List.pairwise_cons.mp hrest).1 a hx))

theorem eq_of_strict {l l' : List α} (h : l.Pairwise (Strict r)) (h' : l'.Pairwise (Strict r))
    (hmem : ∀ a, a ∈ l ↔ a ∈ l') : l = l' := by
  have hperm : l.Perm l' := (List.perm_ext_iff_of_nodup (h.imp And.right) (h'.imp And.right)).mpr hmem
  exact List.Perm.eq_of_pairwise' (h.imp And.left) (h'.imp And.left) hperm

end Antisymm

variable [DecidableEq α]

theorem mem_destutter' (l : List α) (a b : α) : b ∈ l.destutter' (· ≠ ·) a ↔ b = a ∨ b ∈ l := by
  induction l generalizing a with
  | nil =>
    rw [List.destutter'_nil, List.mem_singleton]
    exact (or_iff_left List.not_mem_nil).symm
  | cons c l ih =>
    by_cases h : a ≠ c
    · rw [List.destutter'_cons_pos _ h, List.mem_cons, ih, List.mem_cons]
    · obtain rfl := not_not.mp h
      rw [List.destutter'_cons_neg _ h, ih, List.mem_cons, or_self_left]

theorem mem_destutter {l : List α} {a : α} : a ∈ l.destutter (· ≠ ·) ↔ a ∈ l := by
  cases l with
  | nil => rfl
  | cons b l => rw [List.destutter_cons', mem_destutter', List.mem_cons]

variable [DecidableRel r]

/-- Sort, then remove the repetitions, which are next to each other. -/
def canonical (r : α → α → Prop) [DecidableRel r] (l : List α) : List α :=
  (l.insertionSort r).destutter (· ≠ ·)

theorem mem_canonical {l : List α} {a : α} : a ∈ canonical r l ↔ a ∈ l := by
  rw [canonical, mem_destutter, List.mem_insertionSort]

theorem canonical_of_strict {l : List α} (h : l.Pairwise (Strict r)) : canonical r l = l := by
  have hsorted : l.Pairwise r := h.imp And.left
  have hdistinct : l.Pairwise (· ≠ ·) := h.imp And.right
  rw [canonical, hsorted.insertionSort_eq, List.destutter_of_isChain _ _ hdistinct.isChain]

variable [Std.Antisymm r] [Std.Total r] [IsTrans α r]

theorem strict_canonical (l : List α) : (canonical r l).Pairwise (Strict r) := by
  apply strict_of_isChain
  · exact (List.pairwise_insertionSort r l).sublist (List.destutter_sublist _ _)
  · exact List.isChain_destutter _ _

theorem canonical_eq_iff (l l' : List α) : canonical r l = canonical r l' ↔ ∀ a, a ∈ l ↔ a ∈ l' := by
  constructor
  · intro h a
    rw [← mem_canonical (r := r), h, mem_canonical]
  · intro h
    apply eq_of_strict (strict_canonical l) (strict_canonical l')
    intro a
    rw [mem_canonical, mem_canonical, h]

end DnsAnnounce.Canonical
