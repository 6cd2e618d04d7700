import DnsAnnounce.Canonical
import DnsAnnounce.Route
import DnsAnnounce.Str

namespace DnsAnnounce.RouteConfig

open DnsAnnounce.Utf8 DnsAnnounce.Str DnsAnnounce.Separated DnsAnnounce.Canonical
open DnsAnnounce.Address DnsAnnounce.Route

inductive ConfigError
  | NoServers
  | InvalidDomain (domain : Text)
  deriving DecidableEq

def isAsciiAlphanumeric (c : Char) : Bool :=
  let n := c.toNat
  (0x30 ≤ n && n ≤ 0x39) || (0x41 ≤ n && n ≤ 0x5A) || (0x61 ≤ n && n ≤ 0x7A)

def isValidDomain (domain : Text) : Bool :=
  let trimmed := trimEndMatches '.' domain
  !trimmed.isEmpty && (trimmed.splitOn '.').all fun label =>
    !label.isEmpty && label.all fun c => isAsciiAlphanumeric c || c = '-'

def clean (domain : Text) : Text := (trimEndMatches '.' domain).map Char.toLower

/-- The order of strings, which is that of their bytes. -/
def byteLe (a b : Text) : Prop := encode a ≤ encode b

instance : DecidableRel byteLe := fun a b => inferInstanceAs (Decidable (encode a ≤ encode b))

def normalizeDomains (domains : List Text) : List Text :=
  let cleaned := domains.map clean
  (cleaned.insertionSort byteLe).destutter (· ≠ ·)

def new (servers : List IpAddr) (routingDomains : List Text) : Except ConfigError DnsRouteConfig :=
  if servers.isEmpty then .error .NoServers
  else match routingDomains.find? fun domain => !isValidDomain domain with
    | some domain => .error (.InvalidDomain domain)
    | none => .ok ⟨servers, normalizeDomains routingDomains⟩

def IsLabel (label : Text) : Prop := label ≠ [] ∧ ∀ c ∈ label, isAsciiAlphanumeric c = true ∨ c = '-'

instance (label : Text) : Decidable (IsLabel label) :=
  @instDecidableAnd _ _ _ (List.decidableBAll _ label)

instance : Std.Total byteLe := ⟨fun a b => List.le_total (encode a) (encode b)⟩

instance : IsTrans Text byteLe := ⟨fun _ _ _ hab hbc => List.le_trans hab hbc⟩

instance : Std.Antisymm byteLe := ⟨fun _ _ hab hba => encode_injective (List.le_antisymm hab hba)⟩

theorem lt_of_strict {a b : Text} (h : Strict byteLe a b) : encode a < encode b := by
  rw [← List.not_le]
  exact fun hba => h.2 (antisymm h.1 hba)

theorem normalizeDomains_eq (domains : List Text) :
    normalizeDomains domains = canonical byteLe (domains.map clean) := rfl

theorem isValidDomain_iff {domain : Text} : isValidDomain domain = true ↔
    ∀ label ∈ (trimEndMatches '.' domain).splitOn '.', IsLabel label := by
  have hempty : (∀ label ∈ (trimEndMatches '.' domain).splitOn '.', IsLabel label) →
      trimEndMatches '.' domain ≠ [] := by
    intro h hnil
    rw [hnil] at h
    exact (h [] List.mem_cons_self).1 rfl
  simp only [isValidDomain, Bool.and_eq_true, Bool.not_eq_true', List.isEmpty_eq_false_iff, List.all_eq_true,
    Bool.or_eq_true, decide_eq_true_eq]
  exact ⟨And.right, fun h => ⟨hempty h, h⟩⟩

theorem new_eq_ok {servers : List IpAddr} {domains : List Text} {config : DnsRouteConfig} :
    new servers domains = .ok config ↔ servers ≠ [] ∧ (∀ domain ∈ domains, isValidDomain domain = true) ∧
      config = ⟨servers, normalizeDomains domains⟩ := by
  rw [new]
  split_ifs with hnone
  · rw [List.isEmpty_iff] at hnone
    exact iff_of_false (by simp) fun h => h.1 hnone
  · rw [List.isEmpty_iff] at hnone
    split
    · rename_i domain hfind
      have hbad := List.find?_some hfind
      rw [Bool.not_eq_true'] at hbad
      refine iff_of_false (by simp) fun h => ?_
      rw [h.2.1 domain (List.mem_of_find?_eq_some hfind)] at hbad
      contradiction
    · rename_i hfind
      simp only [List.find?_eq_none, Bool.not_eq_true', Bool.not_eq_false] at hfind
      rw [Except.ok.injEq, eq_comm]
      exact ⟨fun h => ⟨hnone, hfind, h⟩, fun h => h.2.2⟩

section Canonical

theorem trimEndMatches_clean (domain : Text) : trimEndMatches '.' (clean domain) = clean domain := by
  apply trimEndMatches_eq_self
  rw [clean, List.getLast?_map]
  intro hlast
  obtain ⟨c, hc, hlow⟩ := Option.map_eq_some_iff.mp hlast
  rw [toLower_eq_dot] at hlow
  rw [hlow] at hc
  exact getLast_trimEndMatches _ _ hc

theorem toLower_toLower (c : Char) : c.toLower.toLower = c.toLower := by
  rw [← Char.toNat_inj, toNat_toLower, toNat_toLower]
  split_ifs <;> omega

theorem clean_clean (domain : Text) : clean (clean domain) = clean domain := by
  rw [clean, trimEndMatches_clean]
  rw [clean, List.map_map]
  exact List.map_congr_left fun c _ => toLower_toLower c

theorem isAsciiAlphanumeric_toLower {c : Char} (h : isAsciiAlphanumeric c = true) :
    isAsciiAlphanumeric c.toLower = true := by
  simp only [isAsciiAlphanumeric, Bool.or_eq_true, Bool.and_eq_true, decide_eq_true_eq] at h ⊢
  rw [toNat_toLower]
  split_ifs <;> omega

theorem isLabel_map_toLower {label : Text} (h : IsLabel label) : IsLabel (label.map Char.toLower) := by
  refine ⟨fun hnil => h.1 (List.map_eq_nil_iff.mp hnil), fun c hc => ?_⟩
  obtain ⟨d, hd, rfl⟩ := List.mem_map.mp hc
  obtain hd | rfl := h.2 d hd
  · exact .inl (isAsciiAlphanumeric_toLower hd)
  · exact .inr rfl

theorem isValidDomain_clean {domain : Text} (h : isValidDomain domain = true) :
    isValidDomain (clean domain) = true := by
  rw [isValidDomain_iff] at h ⊢
  rw [trimEndMatches_clean, clean, splitOn_map toLower_eq_dot]
  intro label hlabel
  obtain ⟨written, hwritten, rfl⟩ := List.mem_map.mp hlabel
  exact isLabel_map_toLower (h written hwritten)

/-- The domains that a list stands for, whatever their letter case and their
trailing dots. -/
def denoted (domains : List Text) : Set Text := {domain | ∃ written ∈ domains, clean written = domain}

theorem mem_normalizeDomains {domains : List Text} {domain : Text} :
    domain ∈ normalizeDomains domains ↔ domain ∈ denoted domains := by
  rw [normalizeDomains_eq, mem_canonical]
  exact List.mem_map

theorem strict_normalizeDomains (domains : List Text) :
    (normalizeDomains domains).Pairwise (Strict byteLe) :=
  strict_canonical _

theorem normalizeDomains_idempotent (domains : List Text) :
    normalizeDomains (normalizeDomains domains) = normalizeDomains domains := by
  have hclean : (normalizeDomains domains).map clean = normalizeDomains domains := by
    have hself : ∀ domain ∈ normalizeDomains domains, clean domain = id domain := by
      intro domain hdomain
      obtain ⟨written, -, rfl⟩ := mem_normalizeDomains.mp hdomain
      exact clean_clean written
    rw [List.map_congr_left hself, List.map_id]
  rw [normalizeDomains_eq (normalizeDomains domains), hclean]
  exact canonical_of_strict (strict_normalizeDomains domains)

theorem normalizeDomains_eq_iff (domains domains' : List Text) :
    normalizeDomains domains = normalizeDomains domains' ↔ denoted domains = denoted domains' := by
  rw [normalizeDomains_eq, normalizeDomains_eq, canonical_eq_iff, Set.ext_iff]
  exact forall_congr' fun domain => iff_congr List.mem_map List.mem_map

/-- An accepted configuration is the normal form of what was asked for. -/
theorem new_canonical {servers : List IpAddr} {domains domains' : List Text} {config config' : DnsRouteConfig}
    (h : new servers domains = .ok config) (h' : new servers domains' = .ok config') :
    (config = config' ↔ denoted domains = denoted domains') ∧
    config.routingDomains.Pairwise (fun a b => encode a < encode b) ∧
    (∀ domain, domain ∈ config.routingDomains ↔ domain ∈ denoted domains) ∧
    config.servers = servers ∧
    new config.servers config.routingDomains = .ok config := by
  obtain ⟨hservers, hvalid, rfl⟩ := new_eq_ok.mp h
  obtain ⟨-, -, rfl⟩ := new_eq_ok.mp h'
  refine ⟨?_, (strict_normalizeDomains domains).imp lt_of_strict, fun domain => mem_normalizeDomains,
    rfl, new_eq_ok.mpr ⟨hservers, ?_, ?_⟩⟩
  · rw [DnsRouteConfig.mk.injEq, normalizeDomains_eq_iff, and_iff_right rfl]
  · intro domain hdomain
    obtain ⟨written, hwritten, rfl⟩ := mem_normalizeDomains.mp hdomain
    exact isValidDomain_clean (hvalid written hwritten)
  · rw [normalizeDomains_idempotent]

example : normalizeDomains ["b.example".toList, "a.example".toList, "b.example".toList] =
    ["a.example".toList, "b.example".toList] := by decide +kernel

def localhost : IpAddr := .V6 ⟨List.replicate 15 0 ++ [1], rfl⟩

theorem spellings_agree :
    denoted ["b.example".toList, "A.Example.".toList] = denoted ["a.example".toList, "B.EXAMPLE".toList] := by
  have h : new [localhost] ["b.example".toList, "A.Example.".toList] =
      .ok ⟨[localhost], ["a.example".toList, "b.example".toList]⟩ :=
    new_eq_ok.mpr ⟨List.cons_ne_nil _ _, by decide +kernel, by decide +kernel⟩
  have h' : new [localhost] ["a.example".toList, "B.EXAMPLE".toList] =
      .ok ⟨[localhost], ["a.example".toList, "b.example".toList]⟩ :=
    new_eq_ok.mpr ⟨List.cons_ne_nil _ _, by decide +kernel, by decide +kernel⟩
  exact (new_canonical h h').1.mp rfl

end Canonical

section Grammar

def Joined (base : Text) : Prop :=
  ∃ labels, labels ≠ [] ∧ (∀ label ∈ labels, IsLabel label) ∧ base = ['.'].intercalate labels

/-- What the documentation asks of a routing domain. -/
def Grammatical (domain : Text) : Prop := Joined domain ∨ ∃ base, Joined base ∧ domain = base ++ ['.']

/-- Two or more dots at the end. -/
def Overdotted (domain : Text) : Prop :=
  ∃ base n, Joined base ∧ domain = base ++ List.replicate (n + 2) '.'

structure MeetsGrammar (servers : List IpAddr) (domains : List Text) : Prop where
  accepts : (∃ config, new servers domains = .ok config) ↔ ∀ domain ∈ domains, Grammatical domain
  names : ∀ front domain back, domains = front ++ domain :: back → (∀ d ∈ front, Grammatical d) →
    ¬ Grammatical domain → new servers domains = .error (.InvalidDomain domain)

theorem joined_iff {base : Text} : Joined base ↔ ∀ label ∈ base.splitOn '.', IsLabel label := by
  constructor
  · rintro ⟨labels, hne, hlabels, rfl⟩
    have hdot : ∀ label ∈ labels, '.' ∉ label := by
      intro label hlabel hmem
      exact absurd ((hlabels label hlabel).2 '.' hmem) (by decide)
    rw [List.splitOn_intercalate '.' hdot hne]
    exact hlabels
  · exact fun h => ⟨_, List.splitOn_ne_nil _ _, h, (List.intercalate_splitOn _).symm⟩

theorem trimEndMatches_of_joined {base : Text} (h : Joined base) : trimEndMatches '.' base = base :=
  trimEndMatches_eq_self (getLast_ne_of_parts fun label hlabel => (joined_iff.mp h label hlabel).1)

theorem isValidDomain_iff_dots {domain : Text} : isValidDomain domain = true ↔
    ∃ base n, Joined base ∧ domain = base ++ List.replicate n '.' := by
  rw [isValidDomain_iff, ← joined_iff]
  constructor
  · intro h
    have hdots : domain.rtakeWhile (· = '.') = List.replicate (domain.rtakeWhile (· = '.')).length '.' :=
      List.eq_replicate_iff.mpr ⟨rfl, fun c hc =>
        of_decide_eq_true (List.mem_rtakeWhile_imp (p := fun c => decide (c = '.')) hc)⟩
    refine ⟨_, (domain.rtakeWhile (· = '.')).length, h, ?_⟩
    rw [← hdots, trimEndMatches, List.rdropWhile_append_rtakeWhile]
  · rintro ⟨base, n, hbase, rfl⟩
    rwa [trimEndMatches_replicate, trimEndMatches_of_joined hbase]

theorem isValidDomain_iff_grammatical {domain : Text} :
    isValidDomain domain = true ↔ Grammatical domain ∨ Overdotted domain := by
  rw [isValidDomain_iff_dots]
  constructor
  · rintro ⟨base, n, hbase, rfl⟩
    obtain _ | _ | n := n
    · exact .inl (.inl (by rwa [List.replicate_zero, List.append_nil]))
    · exact .inl (.inr ⟨base, hbase, rfl⟩)
    · exact .inr ⟨base, n, hbase, rfl⟩
  · rintro ((h | ⟨base, h, rfl⟩) | ⟨base, n, h, rfl⟩)
    · exact ⟨domain, 0, h, (List.append_nil _).symm⟩
    · exact ⟨base, 1, h, rfl⟩
    · exact ⟨base, n + 2, h, rfl⟩

theorem not_grammatical_of_overdotted {domain : Text} (h : Overdotted domain) : ¬ Grammatical domain := by
  obtain ⟨base, n, hbase, hdots⟩ := h
  have htrim : trimEndMatches '.' domain = base := by
    rw [hdots, trimEndMatches_replicate, trimEndMatches_of_joined hbase]
  have hlen := congrArg List.length hdots
  rw [List.length_append, List.length_replicate] at hlen
  rintro (h | ⟨base', h, rfl⟩)
  · rw [trimEndMatches_of_joined h] at htrim
    rw [htrim] at hlen
    omega
  · rw [trimEndMatches_concat, trimEndMatches_of_joined h] at htrim
    rw [htrim, List.length_append, List.length_singleton] at hlen
    omega

theorem new_eq_error {servers : List IpAddr} (hservers : servers ≠ []) {front back : List Text}
    {domain : Text} (hfront : ∀ d ∈ front, isValidDomain d = true) (hdomain : isValidDomain domain = false) :
    new servers (front ++ domain :: back) = .error (.InvalidDomain domain) := by
  have hfind : (front ++ domain :: back).find? (fun d => !isValidDomain d) = some domain := by
    rw [List.find?_eq_some_iff_append]
    refine ⟨by rw [hdomain]; rfl, front, back, rfl, fun d hd => ?_⟩
    rw [hfront d hd]
    rfl
  rw [new, if_neg (mt List.isEmpty_iff.mp hservers), hfind]

theorem not_valid_of_error {servers : List IpAddr} {domains : List Text} {domain : Text}
    (h : new servers domains = .error (.InvalidDomain domain)) : isValidDomain domain = false := by
  rw [new] at h
  split_ifs at h with hnone
  · exact absurd (Except.error.inj h) (by simp)
  · split at h
    · rename_i found hfind
      have hbad := List.find?_some hfind
      obtain rfl := ConfigError.InvalidDomain.inj (Except.error.inj h)
      rwa [Bool.not_eq_true'] at hbad
    · contradiction

theorem exists_first {α : Type} {p : α → Prop} {l : List α} (h : ¬ ∀ a ∈ l, p a) :
    ∃ front a back, l = front ++ a :: back ∧ (∀ b ∈ front, p b) ∧ ¬ p a := by
  induction l with
  | nil => exact absurd (List.forall_mem_nil _) h
  | cons a l ih =>
    by_cases ha : p a
    · rw [List.forall_mem_cons, and_iff_right ha] at h
      obtain ⟨front, b, back, rfl, hfront, hb⟩ := ih h
      exact ⟨a :: front, b, back, rfl, List.forall_mem_cons.mpr ⟨ha, hfront⟩, hb⟩
    · exact ⟨[], a, l, rfl, List.forall_mem_nil _, ha⟩

/-- Domains are accepted and rejected as documented exactly if the first that
is not as documented has not just dots too many. -/
theorem meetsGrammar_iff {servers : List IpAddr} (hservers : servers ≠ []) (domains : List Text) :
    MeetsGrammar servers domains ↔ ∀ front domain back, domains = front ++ domain :: back →
      (∀ d ∈ front, Grammatical d) → ¬ Overdotted domain := by
  constructor
  · rintro h front domain back rfl hfront hdots
    have hbad := not_valid_of_error (h.names front domain back rfl hfront (not_grammatical_of_overdotted hdots))
    rw [isValidDomain_iff_grammatical.mpr (.inr hdots)] at hbad
    contradiction
  · intro h
    have hnames : ∀ front domain back, domains = front ++ domain :: back → (∀ d ∈ front, Grammatical d) →
        ¬ Grammatical domain → new servers domains = .error (.InvalidDomain domain) := by
      rintro front domain back rfl hfront hbad
      refine new_eq_error hservers (fun d hd => isValidDomain_iff_grammatical.mpr (.inl (hfront d hd))) ?_
      rw [Bool.eq_false_iff, Ne, isValidDomain_iff_grammatical, not_or]
      exact ⟨hbad, h front domain back rfl hfront⟩
    refine ⟨⟨?_, fun hall => ?_⟩, hnames⟩
    · rintro ⟨config, hok⟩
      by_contra hall
      obtain ⟨front, domain, back, hsplit, hfront, hbad⟩ := exists_first hall
      rw [hnames front domain back hsplit hfront hbad] at hok
      contradiction
    · exact ⟨_, new_eq_ok.mpr ⟨hservers, fun d hd => isValidDomain_iff_grammatical.mpr (.inl (hall d hd)), rfl⟩⟩

theorem first_bad_named : MeetsGrammar [localhost] ["vpn.".toList, "my vpn".toList] := by
  refine (meetsGrammar_iff (List.cons_ne_nil _ _) _).mpr fun front domain back hsplit _ hdots => ?_
  have hmem : domain ∈ ["vpn.".toList, "my vpn".toList] := by
    rw [hsplit]
    exact List.mem_append_right _ List.mem_cons_self
  obtain rfl | hmem := List.mem_cons.mp hmem
  · exact not_grammatical_of_overdotted hdots (.inr ⟨"vpn".toList, joined_iff.mpr (by decide +kernel), rfl⟩)
  · obtain rfl := List.mem_singleton.mp hmem
    exact absurd (isValidDomain_iff_grammatical.mpr (.inr hdots)) (by decide +kernel)

theorem two_dots_accepted : ¬ MeetsGrammar [localhost] ["a..".toList] := by
  have hdots : Overdotted "a..".toList := ⟨"a".toList, 0, joined_iff.mpr (by decide +kernel), rfl⟩
  intro h
  have hall := h.accepts.mp ⟨_, new_eq_ok.mpr ⟨List.cons_ne_nil _ _, by decide +kernel, rfl⟩⟩
  exact not_grammatical_of_overdotted hdots (hall _ List.mem_cons_self)

end Grammar

end DnsAnnounce.RouteConfig
