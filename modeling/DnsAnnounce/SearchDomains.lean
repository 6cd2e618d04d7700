import DnsAnnounce.RaReceiver
import DnsAnnounce.Str

namespace DnsAnnounce.SearchDomains

open DnsAnnounce.Utf8 DnsAnnounce.Str DnsAnnounce.Separated DnsAnnounce.LengthPrefixed
open DnsAnnounce.RouterAdvert DnsAnnounce.RaReceiver

def Dotted (domain : Text) : Prop := domain.getLast? = some '.'

instance (domain : Text) : Decidable (Dotted domain) :=
  inferInstanceAs (Decidable (domain.getLast? = some '.'))

/-- The two spellings of a domain, without and with the dot at its end. -/
def Spelled (domain : Text) : Prop := ∃ base, IsDomain base ∧ (domain = base ∨ domain = base ++ ['.'])

/-- RFC 8106 section 5.2: names up to the padding, whatever the padding holds. -/
def searchList (opt : Bytes) : Option (List Text) :=
  if opt.getD 0 0 ≠ optDnssl ∨ opt.length ≠ 8 * (opt.getD 1 0).toNat then none
  else (readNames (opt.drop 8)).bind fun (names, _) => names.mapM readDomain

/-- The domains that are read back: nothing after one that is written with a dot. -/
def heard : List Text → List Text
  | [] => []
  | domain :: domains =>
    if Dotted domain then [trimEndMatches '.' domain]
    else trimEndMatches '.' domain :: heard domains

theorem dotted_concat (base : Text) : Dotted (base ++ ['.']) := List.getLast?_concat

theorem not_dotted_of_isDomain {base : Text} (h : IsDomain base) : ¬ Dotted base :=
  getLast_ne_of_parts fun label hlabel => (h label hlabel).1

theorem trim_of_isDomain {base : Text} (h : IsDomain base) : trimEndMatches '.' base = base :=
  trimEndMatches_eq_self (not_dotted_of_isDomain h)

theorem labelsOf_dotted (base : Text) : labelsOf (base ++ ['.']) = labelsOf base ++ [[]] := by
  rw [labelsOf, splitOn_concat, List.map_append]
  rfl

theorem encodeName_dotted (base : Text) :
    encodeName (labelsOf (base ++ ['.'])) = encodeName (labelsOf base) ++ [0] := by
  rw [labelsOf_dotted, encodeName, encodeName, List.flatMap_append]
  rfl

theorem readNames_zero (rest : List UInt8) : readNames (0 :: rest) = some ([], 0 :: rest) := by
  rw [readNames, if_pos (.inl rfl)]

theorem readNames_domains {domains : List Text} (h : ∀ domain ∈ domains, Spelled domain) (k : Nat) :
    ∃ padding, readNames ((domains.map labelsOf).flatMap encodeName ++ List.replicate k 0) =
      some ((heard domains).map labelsOf, padding) := by
  induction domains with
  | nil =>
    refine ⟨List.replicate k 0, ?_⟩
    rw [List.map_nil, List.flatMap_nil, List.nil_append, readNames, if_pos]
    · rfl
    · cases k with
      | zero => exact .inr rfl
      | succ k => exact .inl rfl
  | cons domain domains ih =>
    rw [List.forall_mem_cons] at h
    obtain ⟨⟨base, hbase, hspelled⟩, hdomains⟩ := h
    obtain ⟨hne, hlabels⟩ := isLabel_labelsOf hbase
    rw [List.map_cons, List.flatMap_cons, List.append_assoc, heard]
    obtain rfl | rfl := hspelled
    · obtain ⟨padding, hread⟩ := ih hdomains
      refine ⟨padding, ?_⟩
      rw [readNames_append hne hlabels, hread, if_neg (not_dotted_of_isDomain hbase),
        trim_of_isDomain hbase]
      rfl
    · refine ⟨0 :: ((domains.map labelsOf).flatMap encodeName ++ List.replicate k 0), ?_⟩
      rw [encodeName_dotted, List.append_assoc, List.singleton_append, readNames_append hne hlabels,
        readNames_zero, if_pos (dotted_concat base), trimEndMatches_concat, trim_of_isDomain hbase]
      rfl

theorem searchList_build {domains : List Text} {lifetime : UInt32}
    (hdomains : ∀ domain ∈ domains, Spelled domain)
    (hfit : (buildDnsslOption domains lifetime).length ≤ 2040) :
    searchList (buildDnsslOption domains lifetime) = some (heard domains) := by
  have hlength := (isOption_dnssl lifetime hfit).length
  obtain ⟨k, -, units, -, hbuild⟩ := buildDnsslOption_eq domains lifetime
  have hkind : (buildDnsslOption domains lifetime).getD 0 0 = optDnssl := by
    rw [hbuild]
    rfl
  have hbody : (buildDnsslOption domains lifetime).drop 8 =
      (domains.map labelsOf).flatMap encodeName ++ List.replicate k 0 := by
    rw [hbuild, encodeDnsslNames_eq]
    rfl
  obtain ⟨padding, hread⟩ := readNames_domains hdomains k
  rw [searchList]
  rw [if_neg (not_or.mpr ⟨not_not.mpr hkind, not_not.mpr hlength⟩), hbody, hread, Option.bind_some]
  exact mapM_map_eq_some readDomain_labelsOf _

theorem heard_eq_map_iff (domains : List Text) :
    heard domains = domains.map (trimEndMatches '.') ↔ ∀ domain ∈ domains.dropLast, ¬ Dotted domain := by
  induction domains with
  | nil => exact iff_of_true rfl (List.forall_mem_nil _)
  | cons domain domains ih =>
    rw [heard, List.map_cons]
    cases domains with
    | nil =>
      refine iff_of_true ?_ (List.forall_mem_nil _)
      split_ifs <;> rfl
    | cons next domains =>
      rw [List.dropLast_cons_cons, List.forall_mem_cons]
      split_ifs with hdot
      · refine iff_of_false (fun heq => ?_) fun h => h.1 hdot
        exact absurd (List.cons.inj heq).2.symm (List.cons_ne_nil _ _)
      · rw [List.cons_inj_right, ih]
        exact (and_iff_right hdot).symm

/-- A decoder gets all of the search domains exactly if none but the last is
written with a dot. -/
theorem searchList_iff (domains : List Text) (lifetime : UInt32)
    (hdomains : ∀ domain ∈ domains, Spelled domain)
    (hfit : (buildDnsslOption domains lifetime).length ≤ 2040) :
    searchList (buildDnsslOption domains lifetime) = some (domains.map (trimEndMatches '.')) ↔
      ∀ domain ∈ domains.dropLast, ¬ Dotted domain := by
  rw [searchList_build hdomains hfit, Option.some.injEq, heard_eq_map_iff]

theorem last_dot_read_back : searchList (buildDnsslOption ["a".toList, "b.c.".toList] 3600) =
    some ["a".toList, "b.c".toList] := by
  have hspelled : ∀ domain ∈ ["a".toList, "b.c.".toList], Spelled domain := by
    rw [List.forall_mem_cons, List.forall_mem_singleton]
    exact ⟨⟨"a".toList, by decide +kernel, .inl rfl⟩, ⟨"b.c".toList, by decide +kernel, .inr rfl⟩⟩
  have hfit : (buildDnsslOption ["a".toList, "b.c.".toList] 3600).length ≤ 2040 := by
    rw [buildDnsslOption, padOption_eq]
    decide +kernel
  exact (searchList_iff _ 3600 hspelled hfit).mpr (by decide +kernel)

/-- The dot of the first of two domains hides the second. -/
theorem first_dot_hides : (∀ domain ∈ ["a.".toList, "b".toList], Spelled domain) ∧
    (buildDnsslOption ["a.".toList, "b".toList] 3600).length ≤ 2040 ∧
    searchList (buildDnsslOption ["a.".toList, "b".toList] 3600) ≠ some ["a".toList, "b".toList] := by
  have hspelled : ∀ domain ∈ ["a.".toList, "b".toList], Spelled domain := by
    rw [List.forall_mem_cons, List.forall_mem_singleton]
    exact ⟨⟨"a".toList, by decide +kernel, .inr rfl⟩, ⟨"b".toList, by decide +kernel, .inl rfl⟩⟩
  have hfit : (buildDnsslOption ["a.".toList, "b".toList] 3600).length ≤ 2040 := by
    rw [buildDnsslOption, padOption_eq]
    decide +kernel
  refine ⟨hspelled, hfit, ?_⟩
  rw [searchList_build hspelled hfit]
  decide +kernel

end DnsAnnounce.SearchDomains
