import Mathlib.Data.List.Basic

namespace DnsAnnounce.LengthPrefixed

structure IsLabel (label : List UInt8) : Prop where
  nonempty : label ≠ []
  short : label.length ≤ 63

/-- Labels behind their lengths, and a zero byte that ends the name. -/
def encodeName (labels : List (List UInt8)) : List UInt8 :=
  labels.flatMap (fun label => UInt8.ofNat label.length :: label) ++ [0]

theorem length_drop_lt_cons {α : Type} (n : Nat) (a : α) (rest : List α) :
    (rest.drop n).length < (a :: rest).length := by
  rw [List.length_drop, List.length_cons]
  omega

def readName : List UInt8 → Option (List (List UInt8) × List UInt8)
  | [] => none
  | len :: rest =>
    if len = 0 then some ([], rest)
    else if 63 < len.toNat ∨ rest.length < len.toNat then none
    else (readName (rest.drop len.toNat)).map fun (labels, tail) => (rest.take len.toNat :: labels, tail)
termination_by buf => buf.length
decreasing_by exact length_drop_lt_cons ..

theorem length_of_readName {buf tail : List UInt8} {labels : List (List UInt8)}
    (h : readName buf = some (labels, tail)) : tail.length < buf.length := by
  induction buf using readName.induct generalizing labels with
  | case1 =>
    rw [readName] at h
    contradiction
  | case2 rest =>
    rw [readName, if_pos rfl] at h
    obtain ⟨-, rfl⟩ := Prod.mk.inj (Option.some.inj h)
    exact Nat.lt_succ_self _
  | case3 len rest hlen hlong =>
    rw [readName, if_neg hlen, if_pos hlong] at h
    contradiction
  | case4 len rest hlen hlong ih =>
    rw [readName, if_neg hlen, if_neg hlong] at h
    obtain ⟨⟨labels', tail'⟩, hread, heq⟩ := Option.map_eq_some_iff.mp h
    obtain ⟨-, rfl⟩ := Prod.mk.inj heq
    have hdrop := ih hread
    rw [List.length_drop] at hdrop
    rw [List.length_cons]
    omega

/-- Names up to the padding, which begins with a zero byte where a name would begin. -/
def readNames (buf : List UInt8) : Option (List (List (List UInt8)) × List UInt8) :=
  if buf.head? = some 0 ∨ buf = [] then some ([], buf)
  else match _h : readName buf with
    | none => none
    | some (labels, tail) => (readNames tail).map fun (names, padding) => (labels :: names, padding)
termination_by buf.length
decreasing_by exact length_of_readName _h

theorem toNat_length {label : List UInt8} (h : label.length ≤ 63) :
    (UInt8.ofNat label.length).toNat = label.length := by
  rw [UInt8.toNat_ofNat', Nat.mod_eq_of_lt (by omega)]

theorem length_ne_zero {label : List UInt8} (h : IsLabel label) : UInt8.ofNat label.length ≠ 0 := by
  intro hzero
  have hlen := toNat_length h.short
  rw [hzero, UInt8.toNat_zero] at hlen
  exact h.nonempty (List.length_eq_zero_iff.mp hlen.symm)

theorem readName_encodeName {labels : List (List UInt8)} (h : ∀ label ∈ labels, IsLabel label)
    (rest : List UInt8) : readName (encodeName labels ++ rest) = some (labels, rest) := by
  induction labels with
  | nil =>
    rw [encodeName, List.flatMap_nil, List.nil_append, List.singleton_append, readName, if_pos rfl]
  | cons label labels ih =>
    have hlabel := h label List.mem_cons_self
    have hlen := toNat_length hlabel.short
    have hcons : encodeName (label :: labels) ++ rest =
        UInt8.ofNat label.length :: (label ++ (encodeName labels ++ rest)) := by
      simp [encodeName]
    have hfits : ¬ (63 < label.length ∨
        (label ++ (encodeName labels ++ rest)).length < label.length) := by
      rw [List.length_append]
      have hshort := hlabel.short
      omega
    rw [hcons, readName, if_neg (length_ne_zero hlabel), hlen, if_neg hfits, List.drop_left,
      List.take_left, ih fun l hl => h l (List.mem_cons_of_mem label hl)]
    rfl

theorem readNames_append {labels : List (List UInt8)} (hne : labels ≠ [])
    (hlabels : ∀ label ∈ labels, IsLabel label) (rest : List UInt8) :
    readNames (encodeName labels ++ rest) =
      (readNames rest).map fun (names, padding) => (labels :: names, padding) := by
  have hread := readName_encodeName hlabels rest
  have hstart : ¬ ((encodeName labels ++ rest).head? = some 0 ∨ encodeName labels ++ rest = []) := by
    obtain ⟨label, labels, rfl⟩ := List.exists_cons_of_ne_nil hne
    have hnonzero := length_ne_zero (hlabels label List.mem_cons_self)
    simp [encodeName, hnonzero]
  rw [readNames, if_neg hstart]
  split
  · rename_i hnone
    rw [hread] at hnone
    contradiction
  · rename_i labels' tail hsome
    obtain ⟨rfl, rfl⟩ := Prod.mk.inj (Option.some.inj (hread.symm.trans hsome))
    rfl

theorem readNames_encodeName {names : List (List (List UInt8))}
    (h : ∀ labels ∈ names, labels ≠ [] ∧ ∀ label ∈ labels, IsLabel label) {padding : List UInt8}
    (hpadding : padding.head? = some 0 ∨ padding = []) :
    readNames (names.flatMap encodeName ++ padding) = some (names, padding) := by
  induction names with
  | nil => rw [List.flatMap_nil, List.nil_append, readNames, if_pos hpadding]
  | cons labels names ih =>
    obtain ⟨hne, hlabels⟩ := h labels List.mem_cons_self
    rw [List.flatMap_cons, List.append_assoc, readNames_append hne hlabels,
      ih fun l hl => h l (List.mem_cons_of_mem _ hl)]
    rfl

/-- The second byte counts the option's own units of eight bytes. -/
structure IsOption (opt : List UInt8) : Prop where
  nonempty : opt ≠ []
  length : opt.length = 8 * (opt.getD 1 0).toNat

/-- Split into options, each as long as its length byte says. -/
def splitOptions (buf : List UInt8) : Option (List (List UInt8)) :=
  if buf = [] then some []
  else
    let len := 8 * (buf.getD 1 0).toNat
    if len = 0 ∨ buf.length < len then none
    else (splitOptions (buf.drop len)).map (buf.take len :: ·)
termination_by buf.length
decreasing_by
  rw [List.length_drop]
  omega

theorem splitOptions_append {opt : List UInt8} (h : IsOption opt) (rest : List UInt8) :
    splitOptions (opt ++ rest) = (splitOptions rest).map (opt :: ·) := by
  have hlen := h.length
  have hpos : 0 < opt.length := List.length_pos_iff.mpr h.nonempty
  have hunits : (opt ++ rest).getD 1 0 = opt.getD 1 0 := by
    rw [List.getD_eq_getElem?_getD, List.getElem?_append_left (by omega), List.getD_eq_getElem?_getD]
  have hne : ¬ opt ++ rest = [] := by
    rw [List.append_eq_nil_iff]
    exact fun hnil => h.nonempty hnil.1
  rw [splitOptions, if_neg hne, hunits, ← hlen]
  dsimp only
  rw [if_neg (by rw [List.length_append]; omega), List.drop_left, List.take_left]

theorem splitOptions_flatten {opts : List (List UInt8)} (h : ∀ opt ∈ opts, IsOption opt) :
    splitOptions opts.flatten = some opts := by
  induction opts with
  | nil => rw [List.flatten_nil, splitOptions, if_pos rfl]
  | cons opt opts ih =>
    rw [List.flatten_cons, splitOptions_append (h opt List.mem_cons_self),
      ih fun o ho => h o (List.mem_cons_of_mem opt ho), Option.map_some]

end DnsAnnounce.LengthPrefixed
