import DnsAnnounce.Stack
import DnsAnnounce.UdpCodec

namespace DnsAnnounce.Solicitation

open DnsAnnounce.Utf8 DnsAnnounce.Address DnsAnnounce.Effect DnsAnnounce.Packet DnsAnnounce.SimpleDns
open DnsAnnounce.DnsServer DnsAnnounce.UdpCodec DnsAnnounce.RouterAdvert DnsAnnounce.Stack

/-- What `is_router_solicitation` looks at. -/
structure Checked (pkt : Bytes) : Prop where
  length : ipv6HeaderLen + 8 ≤ pkt.length
  nextHeader : pkt.getD 6 0 = icmpv6NextHeader
  hopLimit : pkt.getD 7 0 = 255
  type : pkt.getD ipv6HeaderLen 0 = icmpv6RtrSolicit

/-- What `is_router_solicitation` leaves unchecked. -/
structure Unchecked (pkt : Bytes) : Prop where
  version : pkt.getD 0 0 >>> 4 = 6
  declared : 8 ≤ declaredLen pkt ∧ ipv6HeaderLen + declaredLen pkt ≤ pkt.length
  code : pkt.getD (ipv6HeaderLen + 1) 0 = 0
  checksum : ∃ src dst, ipv6OfSlice (slice pkt 8 24) = some src ∧ ipv6OfSlice (slice pkt 24 40) = some dst ∧
    Verifies src dst icmpv6NextHeader (slice pkt ipv6HeaderLen (ipv6HeaderLen + declaredLen pkt))

/-- A valid Router Solicitation, as RFC 4861 section 6.1.1 has it. -/
structure Valid (pkt : Bytes) : Prop where
  version : pkt.getD 0 0 >>> 4 = 6
  nextHeader : pkt.getD 6 0 = icmpv6NextHeader
  hopLimit : pkt.getD 7 0 = 255
  declared : 8 ≤ declaredLen pkt ∧ ipv6HeaderLen + declaredLen pkt ≤ pkt.length
  type : pkt.getD ipv6HeaderLen 0 = icmpv6RtrSolicit
  code : pkt.getD (ipv6HeaderLen + 1) 0 = 0
  checksum : ∃ src dst, ipv6OfSlice (slice pkt 8 24) = some src ∧ ipv6OfSlice (slice pkt 24 40) = some dst ∧
    Verifies src dst icmpv6NextHeader (slice pkt ipv6HeaderLen (ipv6HeaderLen + declaredLen pkt))

theorem isRouterSolicitation_checked {pkt : Bytes} : isRouterSolicitation pkt = true ↔ Checked pkt := by
  rw [isRouterSolicitation_iff]
  exact ⟨fun ⟨hlen, hnext, hhop, htype⟩ => ⟨hlen, hnext, hhop, htype⟩,
    fun h => ⟨h.length, h.nextHeader, h.hopLimit, h.type⟩⟩

/-- Only valid solicitations are taken for one, except where a check that the
code leaves out would have failed. -/
theorem solicitation_valid_iff (pkt : Bytes) :
    (isRouterSolicitation pkt = true → Valid pkt) ↔ (Checked pkt → Unchecked pkt) := by
  rw [isRouterSolicitation_checked]
  constructor
  · intro hvalid hchecked
    have h := hvalid hchecked
    exact ⟨h.version, h.declared, h.code, h.checksum⟩
  · intro hrest hchecked
    have h := hrest hchecked
    exact ⟨h.version, hchecked.nextHeader, hchecked.hopLimit, h.declared, hchecked.type, h.code,
      h.checksum⟩

def unspecified : Ipv6Addr := ⟨[0, 0, 0, 0, 0, 0, 0, 0, 0, 0, 0, 0, 0, 0, 0, 0], rfl⟩

def IsMulticast (addr : Ipv6Addr) : Prop := addr.octets.getD 0 0 = 0xff

/-- The destinations that RFC 4861 section 6.2.6 allows for the answer. -/
structure Usable (cfg : RaConfig) (src : Ipv6Addr) (out : Option Bytes) : Prop where
  unicast : src ≠ unspecified → ¬ IsMulticast src → out = some (buildRouterAdvertisement cfg src)
  unspecified : src = unspecified → out = some (buildRouterAdvertisement cfg allNodesMulticast)
  multicast : IsMulticast src → out = none
  destination : ∀ p, out = some p → ∃ dst, ipv6OfSlice (slice p 24 40) = some dst ∧
    dst ≠ Solicitation.unspecified ∧ (IsMulticast dst → dst = allNodesMulticast)

theorem destination_advertisement (cfg : RaConfig) (dst : Ipv6Addr) :
    ipv6OfSlice (slice (buildRouterAdvertisement cfg dst) 24 40) = some dst := by
  rw [buildRouterAdvertisement_message, slice_header_dst, ipv6OfSlice_octets]

variable {Name Header Data : Type} {D : SimpleDns Name Header Data}

/-- The answer to a solicitation goes where it may exactly if the source, which
it is sent to unseen, is a unicast address. -/
theorem solicited_usable_iff (stack : DnsStack) {pkt : Bytes} {src : Ipv6Addr}
    (h : isRouterSolicitation pkt = true) (hsrc : ipv6OfSlice (slice pkt 8 24) = some src) :
    ∃ out, dispatch D stack pkt = .ret out ∧
      (Usable stack.raCfg src out ↔ src ≠ unspecified ∧ ¬ IsMulticast src) := by
  refine ⟨some (buildRouterAdvertisement stack.raCfg src), ?_, fun husable => ⟨?_, ?_⟩,
    fun ⟨hne, hunicast⟩ => ⟨?_, ?_, ?_, ?_⟩⟩
  · rw [dispatch_solicitation stack h, hsrc]
    rfl
  · rintro rfl
    obtain ⟨dst, hdst, hne, -⟩ := husable.destination _ rfl
    rw [destination_advertisement] at hdst
    exact hne (Option.some.inj hdst).symm
  · intro hmulticast
    exact Option.some_ne_none _ (husable.multicast hmulticast)
  · exact fun _ _ => rfl
  · exact fun heq => absurd heq hne
  · exact fun hmulticast => absurd hmulticast hunicast
  · rintro p ⟨rfl⟩
    refine ⟨src, destination_advertisement stack.raCfg src, hne, ?_⟩
    exact fun hmulticast => absurd hmulticast hunicast

section Sample

def allRouters : Ipv6Addr := ⟨[0xff, 2, 0, 0, 0, 0, 0, 0, 0, 0, 0, 0, 0, 0, 0, 2], rfl⟩

def stack : DnsStack := ⟨⟨host, [host], [], 3600, 0⟩, ⟨host⟩⟩

def solicitFrom (src : Ipv6Addr) : Bytes :=
  buildIpv6Header src allRouters icmpv6NextHeader 255 8 ++
    ([icmpv6RtrSolicit, 0] ++
      toBeBytes (upperLayerChecksum src allRouters icmpv6NextHeader
        ([icmpv6RtrSolicit, 0] ++ [0, 0] ++ [0, 0, 0, 0])) ++ [0, 0, 0, 0])

def ipv4Packet : Bytes :=
  [0x45, 0, 0, 48, 0, 0, 58, 255] ++ List.replicate 32 0 ++ [icmpv6RtrSolicit, 0, 0, 0, 0, 0, 0, 0]

theorem unchecked_solicitFrom (src : Ipv6Addr) : Unchecked (solicitFrom src) := by
  have hdeclared : declaredLen (solicitFrom src) = 8 :=
    congrArg UInt16.toNat (getD_header_length src allRouters icmpv6NextHeader 255 8 _)
  refine ⟨?_, ?_, ?_, src, allRouters, ?_, ?_, ?_⟩
  · rw [solicitFrom, version_header]
  · rw [hdeclared, solicitFrom, List.length_append, length_buildIpv6Header]
    exact ⟨le_rfl, le_rfl⟩
  · exact getD_header_append _ _ _ _ _ _ 1
  · rw [solicitFrom, slice_header_src, ipv6OfSlice_octets]
  · rw [solicitFrom, slice_header_dst, ipv6OfSlice_octets]
  · have hmessage := slice_header_append src allRouters icmpv6NextHeader 255 8
      ([icmpv6RtrSolicit, 0] ++ toBeBytes (upperLayerChecksum src allRouters icmpv6NextHeader
        ([icmpv6RtrSolicit, 0] ++ [0, 0] ++ [0, 0, 0, 0])) ++ [0, 0, 0, 0]) 0 8
    rw [hdeclared, solicitFrom, ← Nat.add_zero ipv6HeaderLen, hmessage]
    exact verifies_checksum src allRouters icmpv6NextHeader [icmpv6RtrSolicit, 0] [0, 0, 0, 0]
      (by decide) (by decide) (.inl rfl)

theorem source_solicitFrom (src : Ipv6Addr) : ipv6OfSlice (slice (solicitFrom src) 8 24) = some src := by
  rw [solicitFrom, slice_header_src, ipv6OfSlice_octets]

theorem isRouterSolicitation_solicitFrom (src : Ipv6Addr) :
    isRouterSolicitation (solicitFrom src) = true := by
  refine isRouterSolicitation_iff.mpr ⟨?_, rfl, rfl, getD_header_append _ _ _ _ _ _ 0⟩
  rw [solicitFrom, List.length_append, length_buildIpv6Header]
  exact le_rfl

theorem dispatch_solicitFrom (src : Ipv6Addr) :
    dispatch simpleDns stack (solicitFrom src) =
      .ret (some (buildRouterAdvertisement stack.raCfg src)) := by
  rw [dispatch_solicitation stack (isRouterSolicitation_solicitFrom src), source_solicitFrom]
  rfl

end Sample

theorem ipv4_packet_answered :
    isRouterSolicitation ipv4Packet = true ∧ ¬ Valid ipv4Packet ∧
      ∃ p, dispatch simpleDns stack ipv4Packet = .ret (some p) := by
  have haccepted : isRouterSolicitation ipv4Packet = true := by decide +kernel
  have hsrc : ipv6OfSlice (slice ipv4Packet 8 24) = some unspecified := by decide +kernel
  refine ⟨haccepted, fun h => absurd h.version (by decide +kernel),
    buildRouterAdvertisement stack.raCfg unspecified, ?_⟩
  rw [dispatch_solicitation stack haccepted, hsrc]
  rfl

theorem host_solicitation_valid : Valid (solicitFrom host) :=
  (solicitation_valid_iff (solicitFrom host)).mpr (fun _ => unchecked_solicitFrom host)
    (isRouterSolicitation_solicitFrom host)

/-- A host that has no address yet gets an advertisement addressed to `::`, and
a multicast source gets one addressed to its group. -/
theorem unusable_destinations :
    (∃ p, dispatch simpleDns stack (solicitFrom unspecified) = .ret (some p) ∧
      ipv6OfSlice (slice p 24 40) = some unspecified ∧ ¬ Usable stack.raCfg unspecified (some p)) ∧
    ∃ p, dispatch simpleDns stack (solicitFrom allRouters) = .ret (some p) ∧
      ipv6OfSlice (slice p 24 40) = some allRouters ∧ ¬ Usable stack.raCfg allRouters (some p) := by
  have hdst := destination_advertisement stack.raCfg
  refine ⟨⟨_, dispatch_solicitFrom unspecified, hdst unspecified, fun h => ?_⟩,
    ⟨_, dispatch_solicitFrom allRouters, hdst allRouters, fun h => ?_⟩⟩
  · obtain ⟨dst, heq, hne, -⟩ := h.destination _ rfl
    rw [hdst] at heq
    exact hne (Option.some.inj heq).symm
  · exact Option.some_ne_none _ (h.multicast rfl)

theorem host_answered :
    ∃ out, dispatch simpleDns stack (solicitFrom host) = .ret out ∧ Usable stack.raCfg host out := by
  obtain ⟨out, hout, hiff⟩ := solicited_usable_iff stack (D := simpleDns)
    (isRouterSolicitation_solicitFrom host) (source_solicitFrom host)
  refine ⟨out, hout, hiff.mpr ⟨by decide, ?_⟩⟩
  rw [IsMulticast]
  decide

end DnsAnnounce.Solicitation
