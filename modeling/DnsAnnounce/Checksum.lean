import DnsAnnounce.RouterAdvert

namespace DnsAnnounce.Checksum

open DnsAnnounce.Utf8 DnsAnnounce.Address DnsAnnounce.OnesComplement DnsAnnounce.Packet
open DnsAnnounce.RouterAdvert

/-- `a + b` where an overflow is an error. -/
def checkedAdd (a b : UInt32) : Option UInt32 :=
  if a.toNat + b.toNat < 2 ^ 32 then some (a + b) else none

def checkedAccumulate : UInt32 → Bytes → Option UInt32
  | sum, hi :: lo :: rest =>
    (checkedAdd sum (fromBeBytes hi lo).toUInt32).bind fun sum => checkedAccumulate sum rest
  | sum, [last] => checkedAdd sum (last.toUInt32 <<< 8)
  | sum, [] => some sum

def checkedFinish (sum : UInt32) : Option UInt16 :=
  if sum >>> 16 ≠ 0 then
    if (sum &&& (0xffff : UInt32)).toNat + (sum >>> 16).toNat < 2 ^ 32 then
      checkedFinish ((sum &&& (0xffff : UInt32)) + (sum >>> 16))
    else none
  else some (~~~ sum.toUInt16)
termination_by sum.toNat
decreasing_by
  rw [toNat_folded]
  exact fold_lt (by omega) ((carry_iff sum).mp ‹_›)

/-- `upper_layer_checksum` with every addition checked. -/
def checkedUpperLayerChecksum (src dst : Ipv6Addr) (nextHeader : UInt8) (upperLayerPacket : Bytes) :
    Option UInt16 := do
  let sum ← checkedAccumulate 0 src.octets
  let sum ← checkedAccumulate sum dst.octets
  let len := UInt32.ofNat upperLayerPacket.length
  let sum ← checkedAdd sum ((len >>> 16) &&& (0xffff : UInt32))
  let sum ← checkedAdd sum (len &&& (0xffff : UInt32))
  let sum ← checkedAdd sum nextHeader.toUInt32
  let sum ← checkedAccumulate sum upperLayerPacket
  checkedFinish sum

theorem checkedAdd_eq {a b : UInt32} (h : a.toNat + b.toNat < 2 ^ 32) : checkedAdd a b = some (a + b) :=
  if_pos h

theorem toNat_uadd {a b : UInt32} (h : a.toNat + b.toNat < 2 ^ 32) :
    (a + b).toNat = a.toNat + b.toNat := by
  rw [UInt32.toNat_add, Nat.mod_eq_of_lt h]

theorem checkedAccumulate_eq {sum : UInt32} {data : Bytes}
    (h : sum.toNat + (words data).sum < 2 ^ 32) :
    checkedAccumulate sum data = some (checksumAccumulate sum data) := by
  induction data using words.induct generalizing sum with
  | case1 hi lo rest ih =>
    have hword : (fromBeBytes hi lo).toUInt32.toNat = hi.toNat * 256 + lo.toNat := by
      rw [UInt16.toNat_toUInt32, toNat_fromBeBytes]
    rw [words, List.sum_cons, ← hword] at h
    have hadd : sum.toNat + (fromBeBytes hi lo).toUInt32.toNat < 2 ^ 32 := by omega
    rw [checkedAccumulate, checkedAdd_eq hadd, Option.bind_some, checksumAccumulate]
    apply ih
    rw [toNat_uadd hadd]
    omega
  | case2 last =>
    have hl := last.toNat_lt
    have hshift : (last.toUInt32 <<< 8).toNat = last.toNat * 256 := by
      rw [UInt32.toNat_shiftLeft, UInt8.toNat_toUInt32, Nat.shiftLeft_eq]
      simp only [UInt32.reduceToNat, Nat.reduceMod, Nat.reducePow]
      omega
    rw [words, List.sum_singleton, ← hshift] at h
    exact checkedAdd_eq h
  | case3 => rfl

theorem checkedFinish_eq (sum : UInt32) : checkedFinish sum = some (checksumFinish sum) := by
  induction sum using checksumFinish.induct with
  | case1 sum hcarry ih =>
    have hs := sum.toNat_lt
    have hlow := toNat_low sum
    have hhigh := toNat_high sum
    rw [checkedFinish, checksumFinish, if_pos hcarry, if_pos hcarry, if_pos (by omega), ih]
  | case2 sum hcarry => rw [checkedFinish, checksumFinish, if_neg hcarry, if_neg hcarry]

theorem checkedUpperLayerChecksum_eq {packet : Bytes} (hlen : packet.length ≤ 65535)
    (src dst : Ipv6Addr) (nextHeader : UInt8) :
    checkedUpperLayerChecksum src dst nextHeader packet =
      some (upperLayerChecksum src dst nextHeader packet) := by
  have hs := sum_words_octets_le src
  have hd := sum_words_octets_le dst
  have hp := sum_words_le packet
  have hn := nextHeader.toNat_lt
  have hhigh := toNat_length32_high hlen
  have hlow := toNat_length32_low hlen
  have hnext : nextHeader.toUInt32.toNat = nextHeader.toNat := UInt8.toNat_toUInt32 nextHeader
  let afterSrc := checksumAccumulate 0 src.octets
  have hsrc : afterSrc.toNat = (words src.octets).sum := by
    rw [toNat_checksumAccumulate, UInt32.toNat_zero]
    omega
  let afterDst := checksumAccumulate afterSrc dst.octets
  have hdst : afterDst.toNat = (words src.octets).sum + (words dst.octets).sum := by
    rw [toNat_checksumAccumulate, hsrc]
    omega
  let afterHigh := afterDst + ((UInt32.ofNat packet.length >>> 16) &&& (0xffff : UInt32))
  have hafterHigh : afterHigh.toNat = afterDst.toNat := by
    rw [toNat_uadd (by omega), hhigh, Nat.add_zero]
  let afterLow := afterHigh + (UInt32.ofNat packet.length &&& (0xffff : UInt32))
  have hafterLow : afterLow.toNat = afterDst.toNat + packet.length := by
    rw [toNat_uadd (by omega), hlow, hafterHigh]
  let afterNext := afterLow + nextHeader.toUInt32
  have hafterNext : afterNext.toNat = afterDst.toNat + packet.length + nextHeader.toNat := by
    rw [toNat_uadd (by omega), hafterLow, hnext]
  have h1 : checkedAccumulate 0 src.octets = some afterSrc :=
    checkedAccumulate_eq (by rw [UInt32.toNat_zero]; omega)
  have h2 : checkedAccumulate afterSrc dst.octets = some afterDst := checkedAccumulate_eq (by omega)
  have h3 : checkedAdd afterDst ((UInt32.ofNat packet.length >>> 16) &&& (0xffff : UInt32)) =
      some afterHigh := checkedAdd_eq (by omega)
  have h4 : checkedAdd afterHigh (UInt32.ofNat packet.length &&& (0xffff : UInt32)) = some afterLow :=
    checkedAdd_eq (by omega)
  have h5 : checkedAdd afterLow nextHeader.toUInt32 = some afterNext := checkedAdd_eq (by omega)
  have h6 : checkedAccumulate afterNext packet = some (checksumAccumulate afterNext packet) :=
    checkedAccumulate_eq (by omega)
  rw [checkedUpperLayerChecksum]
  simp only [Option.bind_eq_bind, h1, h2, h3, h4, h5, h6, Option.bind_some, checkedFinish_eq]
  rfl

/-- The complement of the one's complement sum over pseudo-header and packet. -/
theorem upperLayerChecksum_eq {packet : Bytes} (hlen : packet.length ≤ 65535) (src dst : Ipv6Addr)
    (nextHeader : UInt8) :
    upperLayerChecksum src dst nextHeader packet =
      ~~~ UInt16.ofNat (total 65536 (words (pseudoHeader src dst nextHeader packet.length ++ packet))) := by
  have htotal := total_eq_residue (B := 65536) (by omega)
    (words_lt (pseudoHeader src dst nextHeader packet.length ++ packet))
  have hlt := residue_lt (B := 65536) (by omega)
    (words (pseudoHeader src dst nextHeader packet.length ++ packet)).sum
  apply UInt16.toNat_inj.mp
  rw [toNat_upperLayerChecksum src dst nextHeader packet hlen, htotal, UInt16.toNat_not,
    UInt16.toNat_ofNat', Nat.mod_eq_of_lt hlt]
  rfl

theorem advertisement_verifies (cfg : RaConfig) (dst : Ipv6Addr)
    (hlen : (buildRouterAdvertisement cfg dst).length ≤ ipv6HeaderLen + 65535) :
    Verifies cfg.linkLocalSrc dst icmpv6NextHeader
      ((buildRouterAdvertisement cfg dst).drop ipv6HeaderLen) := by
  rw [buildRouterAdvertisement_message] at hlen ⊢
  rw [List.length_append, length_buildIpv6Header, length_advertMessage, ipv6HeaderLen] at hlen
  rw [drop_header]
  apply verifies_checksum _ _ _ _ _ (show 2 ∣ [icmpv6RtrAdvert, 0].length by decide) _ (.inl rfl)
  rw [show (0 : UInt8) :: [0] = toBeBytes 0 from rfl, ← advertMessage, length_advertMessage]
  omega

/-- Checksums are what the pseudo-header and the packet make them, without an
overflow on the way, and whatever is sent verifies at the receiver. -/
theorem checksums_verify :
    (∀ (src dst : Ipv6Addr) (nextHeader : UInt8) (packet : Bytes), packet.length ≤ 65535 →
      checkedUpperLayerChecksum src dst nextHeader packet =
        some (upperLayerChecksum src dst nextHeader packet) ∧
      upperLayerChecksum src dst nextHeader packet = ~~~ UInt16.ofNat
        (total 65536 (words (pseudoHeader src dst nextHeader packet.length ++ packet)))) ∧
    (∀ (src dst : Ipv6Addr) (srcPort dstPort : UInt16) (payload : Bytes) (hopLimit : UInt8),
      payload.length ≤ 65527 →
      Verifies src dst udpNextHeader
        ((buildUdpPacket src dst srcPort dstPort payload hopLimit).drop ipv6HeaderLen) ∧
      fromBeBytes
        ((buildUdpPacket src dst srcPort dstPort payload hopLimit).getD (ipv6HeaderLen + 6) 0)
        ((buildUdpPacket src dst srcPort dstPort payload hopLimit).getD (ipv6HeaderLen + 7) 0) ≠ 0) ∧
    ∀ (cfg : RaConfig) (dst : Ipv6Addr),
      (buildRouterAdvertisement cfg dst).length ≤ ipv6HeaderLen + 65535 →
      Verifies cfg.linkLocalSrc dst icmpv6NextHeader
        ((buildRouterAdvertisement cfg dst).drop ipv6HeaderLen) := by
  refine ⟨fun src dst nextHeader packet hlen => ?_, fun src dst srcPort dstPort payload hopLimit hlen => ?_,
    advertisement_verifies⟩
  · exact ⟨checkedUpperLayerChecksum_eq hlen src dst nextHeader,
      upperLayerChecksum_eq hlen src dst nextHeader⟩
  · obtain ⟨csum, hne, hbuild, hverifies⟩ :=
      buildUdpPacket_eq src dst srcPort dstPort payload hopLimit
    rw [hbuild, drop_header, getD_header_append, getD_header_append, csum_datagram]
    exact ⟨hverifies hlen, hne⟩

theorem odd_packet_verifies :
    (checkedUpperLayerChecksum allNodesMulticast allNodesMulticast udpNextHeader [1, 2, 3]).isSome ∧
      Verifies allNodesMulticast allNodesMulticast udpNextHeader
        ((buildUdpPacket allNodesMulticast allNodesMulticast 53 53 [1, 2, 3] 64).drop ipv6HeaderLen) ∧
      Verifies allNodesMulticast allNodesMulticast icmpv6NextHeader
        ((buildRouterAdvertisement ⟨allNodesMulticast, [allNodesMulticast], ["vpn".toList], 60, 0⟩
          allNodesMulticast).drop ipv6HeaderLen) :=
  ⟨Option.isSome_iff_exists.mpr
      ⟨_, (checksums_verify.1 allNodesMulticast allNodesMulticast udpNextHeader [1, 2, 3] (by decide)).1⟩,
    (checksums_verify.2.1 allNodesMulticast allNodesMulticast 53 53 [1, 2, 3] 64 (by decide)).1,
    checksums_verify.2.2 ⟨allNodesMulticast, [allNodesMulticast], ["vpn".toList], 60, 0⟩ allNodesMulticast
      (by decide +kernel)⟩

end DnsAnnounce.Checksum
