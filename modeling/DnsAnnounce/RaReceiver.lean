import DnsAnnounce.Checksum
import DnsAnnounce.LengthPrefixed
import DnsAnnounce.UdpCodec

namespace DnsAnnounce.RaReceiver

open DnsAnnounce.Utf8 DnsAnnounce.Address DnsAnnounce.OnesComplement DnsAnnounce.LengthPrefixed
open DnsAnnounce.Packet DnsAnnounce.UdpCodec DnsAnnounce.RouterAdvert DnsAnnounce.Checksum

inductive NdOption
  | rdnss (lifetime : UInt32) (servers : List Ipv6Addr)
  | dnssl (lifetime : UInt32) (domains : List Text) (padding : Bytes)
  | other (opt : Bytes)
  deriving DecidableEq

/-- An advertisement as a host understands it. -/
structure Advertisement where
  src : Ipv6Addr
  dst : Ipv6Addr
  nextHeader : UInt8
  hopLimit : UInt8
  type : UInt8
  code : UInt8
  routerLifetime : UInt16
  options : List NdOption
  deriving DecidableEq

def fromBeBytes32 (a b c d : UInt8) : UInt32 :=
  UInt32.ofNat (a.toNat * 16777216 + b.toNat * 65536 + c.toNat * 256 + d.toNat)

def readAddrs (buf : Bytes) : Option (List Ipv6Addr) :=
  if buf = [] then some []
  else (ipv6OfSlice (buf.take 16)).bind fun addr => (readAddrs (buf.drop 16)).map (addr :: ·)
termination_by buf.length
decreasing_by
  have hpos := List.length_pos_iff.mpr ‹_›
  rw [List.length_drop]
  omega

def readDomain (labels : List Bytes) : Option Text :=
  (labels.mapM decode).map ['.'].intercalate

/-- RFC 8106 sections 5.1 and 5.2. -/
def readOption (opt : Bytes) : Option NdOption :=
  let lifetime := fromBeBytes32 (opt.getD 4 0) (opt.getD 5 0) (opt.getD 6 0) (opt.getD 7 0)
  if opt.getD 0 0 = optRdnss then
    if opt.length < 24 then none else (readAddrs (opt.drop 8)).map (.rdnss lifetime)
  else if opt.getD 0 0 = optDnssl then
    (readNames (opt.drop 8)).bind fun (names, padding) =>
      if padding.all (· = 0) then (names.mapM readDomain).map (.dnssl lifetime · padding) else none
  else some (.other opt)

/-- A host receives a packet that an advertisement fills to its end
(RFC 4861 section 6.1.2). -/
def receive (pkt : Bytes) : Option Advertisement :=
  if pkt.length < ipv6HeaderLen + 16 ∨ ipv6HeaderLen + declaredLen pkt ≠ pkt.length then none
  else if pkt.getD 0 0 >>> 4 ≠ 6 then none
  else
    (ipv6OfSlice (slice pkt 8 24)).bind fun src =>
    (ipv6OfSlice (slice pkt 24 40)).bind fun dst =>
      let icmp := pkt.drop ipv6HeaderLen
      if total 65536 (words (pseudoHeader src dst icmpv6NextHeader icmp.length ++ icmp)) ≠ 65535 then none
      else
        (splitOptions (icmp.drop 16)).bind fun opts =>
        (opts.mapM readOption).map fun options =>
          { src, dst, nextHeader := pkt.getD 6 0, hopLimit := pkt.getD 7 0, type := icmp.getD 0 0,
            code := icmp.getD 1 0, routerLifetime := fromBeBytes (icmp.getD 6 0) (icmp.getD 7 0), options }

def labelsOf (domain : Text) : List Bytes := (domain.splitOn '.').map encode

theorem fromBeBytes32_toBeBytes32 (n : UInt32) :
    fromBeBytes32 (UInt8.ofNat (n.toNat / 16777216)) (UInt8.ofNat (n.toNat / 65536))
      (UInt8.ofNat (n.toNat / 256)) (UInt8.ofNat n.toNat) = n := by
  have hn := n.toNat_lt
  apply UInt32.toNat_inj.mp
  rw [fromBeBytes32, UInt32.toNat_ofNat', UInt8.toNat_ofNat', UInt8.toNat_ofNat', UInt8.toNat_ofNat',
    UInt8.toNat_ofNat']
  omega

theorem readAddrs_octets (servers : List Ipv6Addr) :
    readAddrs (servers.flatMap (·.octets)) = some servers := by
  induction servers with
  | nil => rw [List.flatMap_nil, readAddrs, if_pos rfl]
  | cons addr servers ih =>
    have hne : ¬ addr.octets ++ servers.flatMap (·.octets) = [] := by
      intro hnil
      have hlen := addr.octets_length
      rw [(List.append_eq_nil_iff.mp hnil).1] at hlen
      contradiction
    rw [List.flatMap_cons, readAddrs, if_neg hne, List.take_left' addr.octets_length,
      List.drop_left' addr.octets_length, ipv6OfSlice_octets, ih]
    rfl

theorem length_octets (servers : List Ipv6Addr) :
    (servers.flatMap (·.octets)).length = 16 * servers.length := by
  induction servers with
  | nil => rfl
  | cons addr servers ih =>
    rw [List.flatMap_cons, List.length_append, ih, addr.octets_length, List.length_cons]
    omega

theorem padOption_eq (opt : Bytes) :
    padOption opt = opt ++ List.replicate ((8 - opt.length % 8) % 8) 0 := by
  induction opt using padOption.induct with
  | case1 opt hmod ih =>
    have hcount : (8 - opt.length % 8) % 8 = (8 - (opt ++ [0]).length % 8) % 8 + 1 := by
      rw [List.length_append, List.length_singleton]
      omega
    rw [padOption, if_pos hmod, ih, hcount, List.replicate_succ, List.append_assoc,
      List.singleton_append]
  | case2 opt hmod =>
    have hcount : (8 - opt.length % 8) % 8 = 0 := by omega
    rw [padOption, if_neg hmod, hcount, List.replicate_zero, List.append_nil]

theorem mapM_map_eq_some {α β : Type} {f : α → β} {g : β → Option α} (h : ∀ a, g (f a) = some a)
    (l : List α) : (l.map f).mapM g = some l := by
  induction l with
  | nil => rfl
  | cons a l ih =>
    rw [List.map_cons, List.mapM_cons, h, ih]
    rfl

theorem readDomain_labelsOf (domain : Text) : readDomain (labelsOf domain) = some domain := by
  rw [readDomain, labelsOf, mapM_map_eq_some decode_encode, Option.map_some, List.intercalate_splitOn]

theorem encodeDnsslNames_eq (domains : List Text) :
    encodeDnsslNames domains = (domains.map labelsOf).flatMap encodeName := by
  rw [encodeDnsslNames, List.flatMap_map]
  congr 1
  funext domain
  rw [encodeName, labelsOf, List.flatMap_map]
  rfl

theorem readOption_cons (kind units : UInt8) (lifetime : UInt32) (body : Bytes) :
    readOption ([kind, units, 0, 0] ++ toBeBytes32 lifetime ++ body) =
      if kind = optRdnss then
        if 8 + body.length < 24 then none else (readAddrs body).map (.rdnss lifetime)
      else if kind = optDnssl then
        (readNames body).bind fun (names, padding) =>
          if padding.all (· = 0) then (names.mapM readDomain).map (.dnssl lifetime · padding) else none
      else some (.other ([kind, units, 0, 0] ++ toBeBytes32 lifetime ++ body)) := by
  have hlength : ([kind, units, 0, 0] ++ toBeBytes32 lifetime ++ body).length = 8 + body.length := by
    simp [toBeBytes32]
    omega
  have hkind : ([kind, units, 0, 0] ++ toBeBytes32 lifetime ++ body).getD 0 0 = kind := rfl
  have hbody : ([kind, units, 0, 0] ++ toBeBytes32 lifetime ++ body).drop 8 = body := rfl
  have hlifetime : fromBeBytes32 (([kind, units, 0, 0] ++ toBeBytes32 lifetime ++ body).getD 4 0)
      (([kind, units, 0, 0] ++ toBeBytes32 lifetime ++ body).getD 5 0)
      (([kind, units, 0, 0] ++ toBeBytes32 lifetime ++ body).getD 6 0)
      (([kind, units, 0, 0] ++ toBeBytes32 lifetime ++ body).getD 7 0) = lifetime :=
    fromBeBytes32_toBeBytes32 lifetime
  rw [readOption]
  rw [hlength, hkind, hbody, hlifetime]

section Rdnss

variable {servers : List Ipv6Addr} (lifetime : UInt32)

variable (servers) in
theorem length_rdnss : (buildRdnssOption servers lifetime).length = 8 * (1 + 2 * servers.length) := by
  have hlen : (buildRdnssOption servers lifetime).length = 8 + (servers.flatMap (·.octets)).length := by
    rw [buildRdnssOption, List.length_append]
    rfl
  rw [hlen, length_octets]
  omega

theorem isOption_rdnss (hmax : servers.length ≤ 127) : IsOption (buildRdnssOption servers lifetime) := by
  refine ⟨List.cons_ne_nil _ _, ?_⟩
  have hunits : (buildRdnssOption servers lifetime).getD 1 0 = UInt8.ofNat (1 + 2 * servers.length) := rfl
  rw [hunits, UInt8.toNat_ofNat', Nat.mod_eq_of_lt (by omega), length_rdnss]

theorem readOption_rdnss (hmin : 1 ≤ servers.length) :
    readOption (buildRdnssOption servers lifetime) = some (.rdnss lifetime servers) := by
  rw [buildRdnssOption]
  rw [readOption_cons, if_pos rfl, length_octets, if_neg (by omega), readAddrs_octets]
  rfl

end Rdnss

/-- Dot-separated non-empty labels of at most 63 bytes. -/
def IsDomain (domain : Text) : Prop :=
  ∀ label ∈ domain.splitOn '.', label ≠ [] ∧ (encode label).length ≤ 63

instance (domain : Text) : Decidable (IsDomain domain) :=
  inferInstanceAs (Decidable (∀ label ∈ domain.splitOn '.', label ≠ [] ∧ (encode label).length ≤ 63))

theorem isLabel_labelsOf {domain : Text} (h : IsDomain domain) :
    labelsOf domain ≠ [] ∧ ∀ label ∈ labelsOf domain, IsLabel label := by
  constructor
  · rw [labelsOf, Ne, List.map_eq_nil_iff]
    exact List.splitOn_ne_nil _ _
  · intro bytes hbytes
    obtain ⟨label, hlabel, rfl⟩ := List.mem_map.mp hbytes
    obtain ⟨hne, hshort⟩ := h label hlabel
    exact ⟨fun hnil => hne (encode_injective hnil), hshort⟩

section Dnssl

variable {domains : List Text} (lifetime : UInt32)

variable (domains) in
theorem buildDnsslOption_eq :
    ∃ k < 8, ∃ units, 8 * units = 8 + (encodeDnsslNames domains).length + k ∧
      buildDnsslOption domains lifetime = [optDnssl, UInt8.ofNat units, 0, 0] ++
        toBeBytes32 lifetime ++ (encodeDnsslNames domains ++ List.replicate k 0) := by
  let opt := [optDnssl, 0, 0, 0] ++ toBeBytes32 lifetime ++ encodeDnsslNames domains
  have hlength : opt.length = 8 + (encodeDnsslNames domains).length := by
    simp [opt, toBeBytes32]
    omega
  let k := (8 - opt.length % 8) % 8
  have hpadded : (opt ++ List.replicate k 0).length = 8 + (encodeDnsslNames domains).length + k := by
    rw [List.length_append, hlength, List.length_replicate]
  refine ⟨k, by omega, (opt ++ List.replicate k 0).length / 8, by omega, ?_⟩
  rw [buildDnsslOption, padOption_eq]
  rw [← List.append_assoc]
  rfl

variable (domains) in
theorem units_dnssl : ∃ k < 8, ∃ units, 8 * units = 8 + (encodeDnsslNames domains).length + k ∧
    (buildDnsslOption domains lifetime).length = 8 * units ∧
    (buildDnsslOption domains lifetime).getD 1 0 = UInt8.ofNat units := by
  obtain ⟨k, hk, units, hunits, hbuild⟩ := buildDnsslOption_eq domains lifetime
  refine ⟨k, hk, units, hunits, ?_, ?_⟩
  · rw [hbuild, hunits]
    simp [toBeBytes32]
    omega
  · rw [hbuild]
    rfl

theorem isOption_dnssl (hmax : (buildDnsslOption domains lifetime).length ≤ 2040) :
    IsOption (buildDnsslOption domains lifetime) := by
  obtain ⟨k, hk, units, hunits, hlength, hfield⟩ := units_dnssl domains lifetime
  refine ⟨?_, ?_⟩
  · apply List.ne_nil_of_length_pos
    omega
  · rw [hfield, UInt8.toNat_ofNat', Nat.mod_eq_of_lt (by omega), hlength]

theorem readOption_dnssl (hdomains : ∀ domain ∈ domains, IsDomain domain) :
    ∃ k < 8, readOption (buildDnsslOption domains lifetime) =
      some (.dnssl lifetime domains (List.replicate k 0)) := by
  obtain ⟨k, hk, units, -, hbuild⟩ := buildDnsslOption_eq domains lifetime
  have hnames : readNames (encodeDnsslNames domains ++ List.replicate k 0) =
      some (domains.map labelsOf, List.replicate k 0) := by
    rw [encodeDnsslNames_eq]
    apply readNames_encodeName
    · intro labels hlabels
      obtain ⟨domain, hdomain, rfl⟩ := List.mem_map.mp hlabels
      exact isLabel_labelsOf (hdomains domain hdomain)
    · cases k with
      | zero => exact .inr rfl
      | succ k => exact .inl rfl
  have hread := mapM_map_eq_some readDomain_labelsOf domains
  refine ⟨k, hk, ?_⟩
  rw [hbuild, readOption_cons, if_neg (by decide), if_pos rfl, hnames, Option.bind_some]
  dsimp only
  rw [if_pos (by simp), hread]
  rfl

end Dnssl

def optionsOf (cfg : RaConfig) : List Bytes :=
  buildRdnssOption cfg.dnsServers cfg.lifetimeSecs ::
    if cfg.searchDomains.isEmpty then [] else [buildDnsslOption cfg.searchDomains cfg.lifetimeSecs]

theorem flatten_optionsOf (cfg : RaConfig) : (optionsOf cfg).flatten = advertOptions cfg := by
  rw [optionsOf, advertOptions, List.flatten_cons]
  split_ifs
  · rfl
  · rw [List.flatten_cons, List.flatten_nil, List.append_nil]

section Receive

variable {cfg : RaConfig} (hmin : 1 ≤ cfg.dnsServers.length) (hmax : cfg.dnsServers.length ≤ 127)
  (hdomains : ∀ domain ∈ cfg.searchDomains, IsDomain domain)
  (hfit : (buildDnsslOption cfg.searchDomains cfg.lifetimeSecs).length ≤ 2040)

include hmax hfit in
theorem length_advertOptions : (advertOptions cfg).length ≤ 4080 := by
  rw [advertOptions, List.length_append, length_rdnss]
  split_ifs
  · rw [List.length_nil]
    omega
  · omega

include hmax hfit in
theorem splitOptions_advertOptions : splitOptions (advertOptions cfg) = some (optionsOf cfg) := by
  rw [← flatten_optionsOf]
  apply splitOptions_flatten
  intro opt hopt
  obtain rfl | hopt := List.mem_cons.mp hopt
  · exact isOption_rdnss _ hmax
  · split_ifs at hopt
    · contradiction
    · rw [List.mem_singleton.mp hopt]
      exact isOption_dnssl _ hfit

include hmin hdomains in
theorem mapM_readOption :
    ∃ k < 8, (optionsOf cfg).mapM readOption = some (.rdnss cfg.lifetimeSecs cfg.dnsServers ::
      if cfg.searchDomains.isEmpty then []
      else [.dnssl cfg.lifetimeSecs cfg.searchDomains (List.replicate k 0)]) := by
  obtain ⟨k, hk, hdnssl⟩ := readOption_dnssl cfg.lifetimeSecs hdomains
  refine ⟨k, hk, ?_⟩
  rw [optionsOf, List.mapM_cons, readOption_rdnss _ hmin]
  split_ifs
  · rfl
  · rw [List.mapM_cons, hdnssl]
    rfl

include hmin hmax hdomains hfit in
/-- A host gets back from an advertisement what it was configured with. -/
theorem receive_advertisement (dst : Ipv6Addr) :
    ∃ k < 8, receive (buildRouterAdvertisement cfg dst) = some
      { src := cfg.linkLocalSrc, dst := dst, nextHeader := 58, hopLimit := 255, type := 134, code := 0,
        routerLifetime := cfg.routerLifetimeSecs
        options := .rdnss cfg.lifetimeSecs cfg.dnsServers ::
          if cfg.searchDomains.isEmpty then []
          else [.dnssl cfg.lifetimeSecs cfg.searchDomains (List.replicate k 0)] } := by
  have hopts := length_advertOptions hmax hfit
  obtain ⟨k, hk, hread⟩ := mapM_readOption hmin hdomains
  refine ⟨k, hk, ?_⟩
  have hbuild := buildRouterAdvertisement_message cfg dst
  generalize hcsum : upperLayerChecksum cfg.linkLocalSrc dst icmpv6NextHeader (advertMessage cfg 0) = csum
    at hbuild
  have hlength := length_advertMessage cfg csum
  have hfield : (UInt16.ofNat (16 + (advertOptions cfg).length)).toNat =
      16 + (advertOptions cfg).length := by
    rw [UInt16.toNat_ofNat', Nat.mod_eq_of_lt (by omega)]
  have htotal : (buildRouterAdvertisement cfg dst).length =
      ipv6HeaderLen + (16 + (advertOptions cfg).length) := by
    rw [hbuild, List.length_append, length_buildIpv6Header, hlength]
    rfl
  have hverifies := advertisement_verifies cfg dst (by omega)
  have hdeclared : declaredLen (buildRouterAdvertisement cfg dst) = 16 + (advertOptions cfg).length := by
    rw [declaredLen, hbuild, getD_header_length, hfield]
  have hlifetime : fromBeBytes ((advertMessage cfg csum).getD 6 0) ((advertMessage cfg csum).getD 7 0) =
      cfg.routerLifetimeSecs := fromBeBytes_toBeBytes _
  have hrest : (advertMessage cfg csum).drop 16 = advertOptions cfg := rfl
  rw [receive]
  rw [if_neg (by omega)]
  rw [hbuild] at hverifies ⊢
  rw [drop_header, Verifies] at hverifies
  rw [if_neg (not_not.mpr (version_header ..)), slice_header_src, slice_header_dst, ipv6OfSlice_octets,
    ipv6OfSlice_octets, Option.bind_some, Option.bind_some, drop_header]
  dsimp only
  rw [if_neg (not_not.mpr hverifies), hrest, splitOptions_advertOptions hmax hfit, Option.bind_some, hread,
    hlifetime]
  rfl

end Receive

def sample : RaConfig :=
  ⟨host, [host, allNodesMulticast], ["myvpn".toList, "corp.example".toList], 3600, 1800⟩

theorem sample_read_back :
    ∃ k < 8, receive (buildRouterAdvertisement sample allNodesMulticast) = some
      ⟨host, allNodesMulticast, 58, 255, 134, 0, 1800, [.rdnss 3600 [host, allNodesMulticast],
        .dnssl 3600 ["myvpn".toList, "corp.example".toList] (List.replicate k 0)]⟩ := by
  have hfit : (buildDnsslOption sample.searchDomains sample.lifetimeSecs).length ≤ 2040 := by
    rw [buildDnsslOption, padOption_eq]
    decide +kernel
  exact receive_advertisement (by decide) (by decide) (by decide +kernel) hfit allNodesMulticast

end DnsAnnounce.RaReceiver
