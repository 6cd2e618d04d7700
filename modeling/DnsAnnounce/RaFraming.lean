import DnsAnnounce.RaReceiver

namespace DnsAnnounce.RaFraming

open DnsAnnounce.Utf8 DnsAnnounce.Address DnsAnnounce.LengthPrefixed DnsAnnounce.Packet
open DnsAnnounce.RouterAdvert DnsAnnounce.UdpCodec DnsAnnounce.RaReceiver

/-- The Length field of an option is its size in units of eight bytes, and not zero. -/
def LengthExact (opt : Bytes) : Prop := opt.getD 1 0 ≠ 0 ∧ 8 * (opt.getD 1 0).toNat = opt.length

/-- No length of an advertisement has wrapped, and its options are found where they are. -/
structure WellFramed (cfg : RaConfig) (dst : Ipv6Addr) : Prop where
  payload : declaredLen (buildRouterAdvertisement cfg dst) =
    ((buildRouterAdvertisement cfg dst).drop ipv6HeaderLen).length
  options : (buildRouterAdvertisement cfg dst).drop (ipv6HeaderLen + 16) = (optionsOf cfg).flatten
  lengths : ∀ opt ∈ optionsOf cfg, LengthExact opt
  walk : splitOptions ((buildRouterAdvertisement cfg dst).drop (ipv6HeaderLen + 16)) = some (optionsOf cfg)

def namesLength (domains : List Text) : Nat := (domains.map fun domain => (encode domain).length + 2).sum

theorem isOption_of_lengthExact {opt : Bytes} (h : LengthExact opt) : IsOption opt := by
  refine ⟨?_, h.2.symm⟩
  rintro rfl
  exact h.1 rfl

theorem lengthExact_iff {opt : Bytes} {units : Nat} (hfield : opt.getD 1 0 = UInt8.ofNat units)
    (hlen : opt.length = 8 * units) (hpos : 0 < units) : LengthExact opt ↔ units ≤ 255 := by
  rw [LengthExact, hfield, hlen, UInt8.toNat_ofNat', Ne, ← UInt8.toNat_inj, UInt8.toNat_ofNat',
    UInt8.toNat_zero]
  omega

theorem lengthExact_rdnss_iff (servers : List Ipv6Addr) (lifetime : UInt32) :
    LengthExact (buildRdnssOption servers lifetime) ↔ servers.length ≤ 127 := by
  have hfield : (buildRdnssOption servers lifetime).getD 1 0 = UInt8.ofNat (1 + 2 * servers.length) := rfl
  rw [lengthExact_iff hfield (length_rdnss servers lifetime) (by omega)]
  omega

/-- A domain's labels take one byte more than the domain: every dot gives way to
a length byte, and there is one in front. -/
theorem length_encodeLabels (domain : Text) :
    ((domain.splitOn '.').flatMap encodeLabel).length = (encode domain).length + 1 := by
  induction domain with
  | nil => rfl
  | cons c domain ih =>
    rw [List.splitOn_cons_eq_if_modifyHead]
    have hcons : encode (c :: domain) = String.utf8EncodeChar c ++ encode domain := List.flatMap_cons
    split_ifs with hdot
    · obtain rfl := beq_iff_eq.mp hdot
      rw [List.flatMap_cons, List.length_append, ih, hcons, List.length_append]
      change 1 + _ = 1 + _ + 1
      omega
    · obtain ⟨first, rest, hsplit⟩ := List.exists_cons_of_ne_nil (List.splitOn_ne_nil '.' domain)
      have hfirst : encode (c :: first) = String.utf8EncodeChar c ++ encode first := List.flatMap_cons
      rw [hsplit, List.flatMap_cons, List.length_append, encodeLabel, List.length_cons] at ih
      rw [hsplit, List.modifyHead_cons, List.flatMap_cons, List.length_append, encodeLabel,
        List.length_cons, hfirst, hcons, List.length_append, List.length_append]
      omega

theorem length_encodeDnsslNames (domains : List Text) :
    (encodeDnsslNames domains).length = namesLength domains := by
  induction domains with
  | nil => rfl
  | cons domain domains ih =>
    rw [encodeDnsslNames] at ih
    rw [encodeDnsslNames, List.flatMap_cons, List.length_append, ih, List.length_append,
      length_encodeLabels, namesLength, namesLength, List.map_cons, List.sum_cons]
    rfl

theorem lengthExact_dnssl_iff (domains : List Text) (lifetime : UInt32) :
    LengthExact (buildDnsslOption domains lifetime) ↔ namesLength domains ≤ 2032 := by
  obtain ⟨k, hk, units, hunits, hlength, hfield⟩ := units_dnssl domains lifetime
  rw [lengthExact_iff hfield hlength (by omega)]
  rw [length_encodeDnsslNames] at hunits
  omega

theorem lengthExact_optionsOf_iff (cfg : RaConfig) :
    (∀ opt ∈ optionsOf cfg, LengthExact opt) ↔
      cfg.dnsServers.length ≤ 127 ∧ namesLength cfg.searchDomains ≤ 2032 := by
  rw [optionsOf, List.forall_mem_cons, lengthExact_rdnss_iff]
  split_ifs with hnone
  · rw [List.isEmpty_iff.mp hnone]
    exact and_congr_right fun _ => ⟨fun _ => Nat.zero_le _, fun _ => List.forall_mem_nil _⟩
  · rw [List.forall_mem_singleton, lengthExact_dnssl_iff]

theorem length_optionsOf {cfg : RaConfig} (h : ∀ opt ∈ optionsOf cfg, LengthExact opt) :
    (advertOptions cfg).length ≤ 4080 := by
  have hopt : ∀ opt ∈ optionsOf cfg, opt.length ≤ 2040 := by
    intro opt hmem
    have hexact := (h opt hmem).2
    have hbyte := (opt.getD 1 0).toNat_lt
    omega
  rw [← flatten_optionsOf]
  rw [optionsOf] at hopt ⊢
  rw [List.forall_mem_cons] at hopt
  rw [List.flatten_cons, List.length_append]
  split_ifs at hopt ⊢
  · rw [List.flatten_nil, List.length_nil]
    omega
  · rw [List.forall_mem_singleton] at hopt
    rw [List.flatten_cons, List.flatten_nil, List.append_nil]
    omega

theorem drop_advertisement (cfg : RaConfig) (dst : Ipv6Addr) :
    (buildRouterAdvertisement cfg dst).drop (ipv6HeaderLen + 16) = advertOptions cfg := by
  rw [buildRouterAdvertisement_message, ← List.drop_drop, drop_header]
  rfl

theorem declaredLen_advertisement {cfg : RaConfig} (dst : Ipv6Addr)
    (h : (advertOptions cfg).length ≤ 4080) : declaredLen (buildRouterAdvertisement cfg dst) =
      ((buildRouterAdvertisement cfg dst).drop ipv6HeaderLen).length := by
  rw [declaredLen, buildRouterAdvertisement_message, getD_header_length, drop_header, length_advertMessage,
    UInt16.toNat_ofNat', Nat.mod_eq_of_lt (by omega)]

/-- An advertisement is framed as it should be exactly if its servers and its
search domains fit the length bytes of their options. -/
theorem wellFramed_iff (cfg : RaConfig) (dst : Ipv6Addr) :
    WellFramed cfg dst ↔ cfg.dnsServers.length ≤ 127 ∧
      (cfg.searchDomains.map fun domain => (encode domain).length + 2).sum ≤ 2032 := by
  rw [← namesLength, ← lengthExact_optionsOf_iff]
  refine ⟨WellFramed.lengths, fun hexact => ?_⟩
  have hoptions := (drop_advertisement cfg dst).trans (flatten_optionsOf cfg).symm
  refine ⟨declaredLen_advertisement dst (length_optionsOf hexact), hoptions, hexact, ?_⟩
  rw [hoptions]
  exact splitOptions_flatten fun opt hopt => isOption_of_lengthExact (hexact opt hopt)

def manyServers : RaConfig := ⟨host, List.replicate 128 host, [], 3600, 1800⟩

/-- The length byte of 128 servers reads as eight bytes. -/
theorem many_servers_wrap : (∀ domain ∈ manyServers.searchDomains,
      ∀ label ∈ domain.splitOn '.', (encode label).length ≤ 63) ∧
    ¬ WellFramed manyServers allNodesMulticast := by
  refine ⟨List.forall_mem_nil _, fun h => ?_⟩
  have hfits : manyServers.dnsServers.length ≤ 127 :=
    (lengthExact_rdnss_iff _ _).mp (h.lengths _ List.mem_cons_self)
  have hcount : manyServers.dnsServers.length = 128 := List.length_replicate
  omega

end DnsAnnounce.RaFraming
