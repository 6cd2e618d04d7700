import DnsAnnounce.Packet

namespace DnsAnnounce.RouterAdvert

open DnsAnnounce.Utf8 DnsAnnounce.Address DnsAnnounce.Packet

def allNodesMulticast : Ipv6Addr := ⟨[0xff, 2, 0, 0, 0, 0, 0, 0, 0, 0, 0, 0, 0, 0, 0, 1], rfl⟩

def icmpv6RtrSolicit : UInt8 := 133

def icmpv6RtrAdvert : UInt8 := 134

def raHopLimit : UInt8 := 255

def optRdnss : UInt8 := 25

def optDnssl : UInt8 := 31

structure RaConfig where
  linkLocalSrc : Ipv6Addr
  dnsServers : List Ipv6Addr
  searchDomains : List Text
  lifetimeSecs : UInt32
  routerLifetimeSecs : UInt16

def toBeBytes32 (n : UInt32) : Bytes :=
  [UInt8.ofNat (n.toNat / 16777216), UInt8.ofNat (n.toNat / 65536), UInt8.ofNat (n.toNat / 256),
    UInt8.ofNat n.toNat]

def encodeLabel (label : Text) : Bytes :=
  let bytes := encode label
  UInt8.ofNat bytes.length :: bytes

def encodeDnsslNames (domains : List Text) : Bytes :=
  domains.flatMap fun domain => (domain.splitOn '.').flatMap encodeLabel ++ [0]

def buildRdnssOption (servers : List Ipv6Addr) (lifetimeSecs : UInt32) : Bytes :=
  let lenUnits := UInt8.ofNat (1 + 2 * servers.length)
  [optRdnss, lenUnits, 0, 0] ++ toBeBytes32 lifetimeSecs ++ servers.flatMap (·.octets)

/-- Pad with zeroes to a multiple of eight bytes. -/
def padOption (opt : Bytes) : Bytes :=
  if opt.length % 8 ≠ 0 then padOption (opt ++ [0]) else opt
termination_by (8 - opt.length % 8) % 8
decreasing_by
  rw [List.length_append, List.length_singleton]
  omega

def buildDnsslOption (domains : List Text) (lifetimeSecs : UInt32) : Bytes :=
  let opt := padOption
    ([optDnssl, 0, 0, 0] ++ toBeBytes32 lifetimeSecs ++ encodeDnsslNames domains)
  opt.set 1 (UInt8.ofNat (opt.length / 8))

def buildRouterAdvertisement (cfg : RaConfig) (dst : Ipv6Addr) : Bytes :=
  let icmp := [icmpv6RtrAdvert, 0, 0, 0, 64, 0] ++ toBeBytes cfg.routerLifetimeSecs ++
    toBeBytes32 0 ++ toBeBytes32 0 ++ buildRdnssOption cfg.dnsServers cfg.lifetimeSecs ++
    (if cfg.searchDomains.isEmpty then [] else buildDnsslOption cfg.searchDomains cfg.lifetimeSecs)
  let csum := upperLayerChecksum cfg.linkLocalSrc dst 58 icmp
  let icmp := copyFromSlice icmp 2 (toBeBytes csum)
  buildIpv6Header cfg.linkLocalSrc dst 58 raHopLimit (UInt16.ofNat icmp.length) ++ icmp

def isRouterSolicitation (pkt : Bytes) : Bool :=
  if pkt.length < ipv6HeaderLen + 8 then false
  else
    let hopLimit := pkt.getD 7 0
    let nextHeader := pkt.getD 6 0
    hopLimit = 255 && nextHeader = 58 && pkt.getD ipv6HeaderLen 0 = icmpv6RtrSolicit

def solicitationSrc (pkt : Bytes) : Option Ipv6Addr :=
  if pkt.length < 24 then none else ipv6OfSlice (slice pkt 8 24)

theorem isRouterSolicitation_iff {pkt : Bytes} :
    isRouterSolicitation pkt = true ↔ ipv6HeaderLen + 8 ≤ pkt.length ∧ pkt.getD 6 0 = icmpv6NextHeader ∧
      pkt.getD 7 0 = 255 ∧ pkt.getD ipv6HeaderLen 0 = icmpv6RtrSolicit := by
  rw [isRouterSolicitation]
  split_ifs with hlen
  · refine iff_of_false not_false fun h => ?_
    exact absurd h.1 (not_le.mpr hlen)
  · simp only [Bool.and_eq_true, decide_eq_true_eq, icmpv6NextHeader, not_lt.mp hlen, true_and]
    rw [and_assoc, and_left_comm]

theorem solicitationSrc_eq {pkt : Bytes} (h : isRouterSolicitation pkt = true) :
    solicitationSrc pkt = ipv6OfSlice (slice pkt 8 24) := by
  have hlen := (isRouterSolicitation_iff.mp h).1
  rw [ipv6HeaderLen] at hlen
  exact if_neg (by omega)

theorem buildRouterAdvertisement_eq (cfg : RaConfig) (dst : Ipv6Addr) :
    ∃ body, buildRouterAdvertisement cfg dst =
      buildIpv6Header cfg.linkLocalSrc dst icmpv6NextHeader raHopLimit
        (UInt16.ofNat (icmpv6RtrAdvert :: body).length) ++ icmpv6RtrAdvert :: body :=
  ⟨_, rfl⟩

def advertOptions (cfg : RaConfig) : Bytes :=
  buildRdnssOption cfg.dnsServers cfg.lifetimeSecs ++
    if cfg.searchDomains.isEmpty then [] else buildDnsslOption cfg.searchDomains cfg.lifetimeSecs

/-- An advertisement as it is on the wire. -/
def advertMessage (cfg : RaConfig) (csum : UInt16) : Bytes :=
  [icmpv6RtrAdvert, 0] ++ toBeBytes csum ++
    ([64, 0] ++ toBeBytes cfg.routerLifetimeSecs ++ toBeBytes32 0 ++ toBeBytes32 0 ++ advertOptions cfg)

theorem length_advertMessage (cfg : RaConfig) (csum : UInt16) :
    (advertMessage cfg csum).length = 16 + (advertOptions cfg).length := by
  simp [advertMessage, toBeBytes32]
  omega

/-- What `build_router_advertisement` sends, its checksum in place. -/
theorem buildRouterAdvertisement_message (cfg : RaConfig) (dst : Ipv6Addr) :
    buildRouterAdvertisement cfg dst =
      buildIpv6Header cfg.linkLocalSrc dst icmpv6NextHeader raHopLimit
        (UInt16.ofNat (16 + (advertOptions cfg).length)) ++
      advertMessage cfg
        (upperLayerChecksum cfg.linkLocalSrc dst icmpv6NextHeader (advertMessage cfg 0)) := by
  let post := [64, 0] ++ toBeBytes cfg.routerLifetimeSecs ++ toBeBytes32 0 ++ toBeBytes32 0 ++
    advertOptions cfg
  have hmessage : [icmpv6RtrAdvert, 0, 0, 0, 64, 0] ++ toBeBytes cfg.routerLifetimeSecs ++
      toBeBytes32 0 ++ toBeBytes32 0 ++ buildRdnssOption cfg.dnsServers cfg.lifetimeSecs ++
      (if cfg.searchDomains.isEmpty then []
        else buildDnsslOption cfg.searchDomains cfg.lifetimeSecs) = advertMessage cfg 0 := by
    rw [List.append_assoc _ (buildRdnssOption _ _)]
    rfl
  have hcopy (csum : UInt16) :
      copyFromSlice (advertMessage cfg 0) 2 (toBeBytes csum) = advertMessage cfg csum :=
    copyFromSlice_append [icmpv6RtrAdvert, 0] [0, 0] (toBeBytes csum) post rfl
  rw [buildRouterAdvertisement]
  rw [hmessage, hcopy, length_advertMessage]
  rfl

theorem isRouterSolicitation_advertisement (cfg : RaConfig) (dst : Ipv6Addr) :
    isRouterSolicitation (buildRouterAdvertisement cfg dst) = false := by
  obtain ⟨body, hbuild⟩ := buildRouterAdvertisement_eq cfg dst
  have htype : (buildRouterAdvertisement cfg dst).getD ipv6HeaderLen 0 = icmpv6RtrAdvert := by
    rw [hbuild]
    exact getD_header_append _ _ _ _ _ _ 0
  rw [isRouterSolicitation]
  split_ifs
  · rfl
  · rw [htype]
    simp [icmpv6RtrAdvert, icmpv6RtrSolicit]

theorem parseIpv6Udp_advertisement (cfg : RaConfig) (dst : Ipv6Addr) :
    parseIpv6Udp (buildRouterAdvertisement cfg dst) = none := by
  obtain ⟨body, hbuild⟩ := buildRouterAdvertisement_eq cfg dst
  rw [hbuild]
  exact parseIpv6Udp_other _ _ _ _ _ _ (by decide)

theorem isRouterSolicitation_of_parse {pkt : Bytes} {udp : UdpV6} (h : parseIpv6Udp pkt = some udp) :
    isRouterSolicitation pkt = false := by
  rw [isRouterSolicitation]
  split_ifs
  · rfl
  · rw [nextHeader_of_parse h]
    simp [udpNextHeader]

end DnsAnnounce.RouterAdvert
