import DnsAnnounce.Address
import DnsAnnounce.OnesComplement
import Mathlib.Data.List.GetD

namespace DnsAnnounce.Packet

open DnsAnnounce.Utf8 DnsAnnounce.Address DnsAnnounce.OnesComplement

def ipv6HeaderLen : Nat := 40

def icmpv6NextHeader : UInt8 := 58

def udpNextHeader : UInt8 := 17

def toBeBytes (n : UInt16) : Bytes := [UInt8.ofNat (n.toNat / 256), UInt8.ofNat n.toNat]

def fromBeBytes (hi lo : UInt8) : UInt16 := UInt16.ofNat (hi.toNat * 256 + lo.toNat)

/-- `&buf[start..stop]`. -/
def slice (buf : Bytes) (start stop : Nat) : Bytes := (buf.take stop).drop start

/-- `buf[start..start + src.len()].copy_from_slice(src)`. -/
def copyFromSlice (buf : Bytes) (start : Nat) (src : Bytes) : Bytes :=
  buf.take start ++ src ++ buf.drop (start + src.length)

def ipv6OfSlice (bytes : Bytes) : Option Ipv6Addr :=
  if h : bytes.length = 16 then some ⟨bytes, h⟩ else none

def buildIpv6Header (src dst : Ipv6Addr) (nextHeader hopLimit : UInt8) (payloadLen : UInt16) : Bytes :=
  [0x60, 0, 0, 0] ++ toBeBytes payloadLen ++ [nextHeader, hopLimit] ++ src.octets ++ dst.octets

def checksumAccumulate : UInt32 → Bytes → UInt32
  | sum, hi :: lo :: rest => checksumAccumulate (sum + (fromBeBytes hi lo).toUInt32) rest
  | sum, [last] => sum + last.toUInt32 <<< 8
  | sum, [] => sum

theorem toNat_high (sum : UInt32) : (sum >>> 16).toNat = sum.toNat / 65536 := by
  rw [UInt32.toNat_shiftRight]
  exact Nat.shiftRight_eq_div_pow sum.toNat 16

theorem toNat_low (sum : UInt32) : (sum &&& (0xffff : UInt32)).toNat = sum.toNat % 65536 := by
  rw [UInt32.toNat_and]
  exact Nat.and_two_pow_sub_one_eq_mod sum.toNat 16

theorem toNat_folded (sum : UInt32) :
    ((sum &&& (0xffff : UInt32)) + (sum >>> 16)).toNat = fold 65536 sum.toNat := by
  have hs := sum.toNat_lt
  rw [UInt32.toNat_add, toNat_low, toNat_high, fold]
  omega

theorem carry_iff (sum : UInt32) : sum >>> 16 ≠ 0 ↔ 65536 ≤ sum.toNat := by
  rw [Ne, ← UInt32.toNat_inj, toNat_high, UInt32.toNat_zero]
  omega

def checksumFinish (sum : UInt32) : UInt16 :=
  if sum >>> 16 ≠ 0 then checksumFinish ((sum &&& (0xffff : UInt32)) + (sum >>> 16))
  else ~~~ sum.toUInt16
termination_by sum.toNat
decreasing_by
  rw [toNat_folded]
  exact fold_lt (by omega) ((carry_iff sum).mp ‹_›)

def upperLayerChecksum (src dst : Ipv6Addr) (nextHeader : UInt8) (upperLayerPacket : Bytes) : UInt16 :=
  let sum := checksumAccumulate 0 src.octets
  let sum := checksumAccumulate sum dst.octets
  let len := UInt32.ofNat upperLayerPacket.length
  let sum := sum + ((len >>> 16) &&& (0xffff : UInt32))
  let sum := sum + (len &&& (0xffff : UInt32))
  let sum := sum + nextHeader.toUInt32
  checksumFinish (checksumAccumulate sum upperLayerPacket)

def buildUdpPacket (srcIp dstIp : Ipv6Addr) (srcPort dstPort : UInt16) (payload : Bytes)
    (hopLimit : UInt8) : Bytes :=
  let udpLen := 8 + payload.length
  let udp := toBeBytes srcPort ++ toBeBytes dstPort ++ toBeBytes (UInt16.ofNat udpLen) ++ [0, 0] ++
    payload
  let csum := upperLayerChecksum srcIp dstIp udpNextHeader udp
  let csum := if csum = 0 then 0xffff else csum
  let udp := copyFromSlice udp 6 (toBeBytes csum)
  buildIpv6Header srcIp dstIp udpNextHeader hopLimit (UInt16.ofNat udpLen) ++ udp

structure UdpV6 where
  srcIp : Ipv6Addr
  dstIp : Ipv6Addr
  srcPort : UInt16
  dstPort : UInt16
  payload : Bytes
  deriving DecidableEq

def parseIpv6Udp (pkt : Bytes) : Option UdpV6 :=
  if pkt.length < ipv6HeaderLen + 8 then none
  else if pkt.getD 0 0 >>> 4 ≠ 6 then none
  else if pkt.getD 6 0 ≠ udpNextHeader then none
  else do
    let payloadLen := (fromBeBytes (pkt.getD 4 0) (pkt.getD 5 0)).toNat
    let srcIp ← ipv6OfSlice (slice pkt 8 24)
    let dstIp ← ipv6OfSlice (slice pkt 24 40)
    let udp := pkt.drop ipv6HeaderLen
    if udp.length < 8 ∨ udp.length < payloadLen then none
    else
      some ⟨srcIp, dstIp, fromBeBytes (udp.getD 0 0) (udp.getD 1 0),
        fromBeBytes (udp.getD 2 0) (udp.getD 3 0), slice udp 8 (max payloadLen 8)⟩

@[simp] theorem length_toBeBytes (n : UInt16) : (toBeBytes n).length = 2 := rfl

theorem fromBeBytes_toBeBytes (n : UInt16) :
    fromBeBytes (UInt8.ofNat (n.toNat / 256)) (UInt8.ofNat n.toNat) = n := by
  have hn := n.toNat_lt
  apply UInt16.toNat_inj.mp
  rw [fromBeBytes, UInt16.toNat_ofNat', UInt8.toNat_ofNat', UInt8.toNat_ofNat']
  omega

theorem toNat_fromBeBytes (hi lo : UInt8) : (fromBeBytes hi lo).toNat = hi.toNat * 256 + lo.toNat := by
  have h1 := hi.toNat_lt
  have h2 := lo.toNat_lt
  rw [fromBeBytes, UInt16.toNat_ofNat', Nat.mod_eq_of_lt (by omega)]

theorem words_toBeBytes (n : UInt16) (rest : Bytes) :
    words (toBeBytes n ++ rest) = n.toNat :: words rest := by
  have hn := n.toNat_lt
  rw [toBeBytes, List.cons_append, List.singleton_append, words, UInt8.toNat_ofNat', UInt8.toNat_ofNat']
  congr 1
  omega

@[simp] theorem length_buildIpv6Header (src dst : Ipv6Addr) (nextHeader hopLimit : UInt8)
    (payloadLen : UInt16) : (buildIpv6Header src dst nextHeader hopLimit payloadLen).length = 40 := by
  simp [buildIpv6Header, src.octets_length, dst.octets_length]

theorem ipv6OfSlice_octets (addr : Ipv6Addr) : ipv6OfSlice addr.octets = some addr :=
  dif_pos addr.octets_length

theorem copyFromSlice_append (pre old src post : Bytes) (h : old.length = src.length) :
    copyFromSlice (pre ++ old ++ post) pre.length src = pre ++ src ++ post := by
  rw [copyFromSlice, ← h, ← List.length_append, List.drop_left, List.append_assoc pre old post,
    List.take_left]

theorem toNat_checksumAccumulate (sum : UInt32) (data : Bytes) :
    (checksumAccumulate sum data).toNat = (sum.toNat + (words data).sum) % 2 ^ 32 := by
  induction data using words.induct generalizing sum with
  | case1 hi lo rest ih =>
    rw [checksumAccumulate, ih, words, List.sum_cons, UInt32.toNat_add, UInt16.toNat_toUInt32,
      toNat_fromBeBytes]
    omega
  | case2 last =>
    have hl := last.toNat_lt
    rw [checksumAccumulate, words, List.sum_singleton, UInt32.toNat_add, UInt32.toNat_shiftLeft,
      UInt8.toNat_toUInt32, Nat.shiftLeft_eq]
    simp only [UInt32.reduceToNat, Nat.reduceMod, Nat.reducePow]
    omega
  | case3 =>
    have hs := sum.toNat_lt
    rw [checksumAccumulate, words, List.sum_nil, Nat.add_zero, Nat.mod_eq_of_lt hs]

theorem toNat_checksumFinish (sum : UInt32) :
    (checksumFinish sum).toNat = 65535 - residue 65536 sum.toNat := by
  induction sum using checksumFinish.induct with
  | case1 sum hcarry ih =>
    rw [checksumFinish, if_pos hcarry, ih, toNat_folded, residue_fold (by omega)]
  | case2 sum hcarry =>
    rw [carry_iff, Nat.not_le] at hcarry
    rw [checksumFinish, if_neg (by rw [carry_iff]; omega), residue_of_lt hcarry, UInt16.toNat_not,
      UInt32.toNat_toUInt16, Nat.mod_eq_of_lt hcarry]
    rfl

section Checksum

variable (src dst : Ipv6Addr) (nextHeader : UInt8)

/-- What the checksum covers in front of the packet (RFC 8200 section 8.1). -/
def pseudoHeader (len : Nat) : Bytes :=
  src.octets ++ dst.octets ++ toBeBytes (UInt16.ofNat (len / 65536)) ++ toBeBytes (UInt16.ofNat len) ++
    [0, 0, 0, nextHeader]

/-- The receiver's check: the one's complement sum over all of it is all ones. -/
def Verifies (packet : Bytes) : Prop :=
  total 65536 (words (pseudoHeader src dst nextHeader packet.length ++ packet)) = 65535

theorem sum_words_append {a : Bytes} (b : Bytes) (ha : 2 ∣ a.length) :
    (words (a ++ b)).sum = (words a).sum + (words b).sum := by
  rw [words_append b ha, List.sum_append]

theorem sum_words_pseudoHeader (len : Nat) :
    (words (pseudoHeader src dst nextHeader len)).sum = (words src.octets).sum +
      (words dst.octets).sum + len / 65536 % 65536 + len % 65536 + nextHeader.toNat := by
  have hs : 2 ∣ src.octets.length := by rw [src.octets_length]; decide
  have hd : 2 ∣ dst.octets.length := by rw [dst.octets_length]; decide
  have hlast : (words [0, 0, 0, nextHeader]).sum = nextHeader.toNat := by
    simp [words]
  rw [pseudoHeader]
  rw [List.append_assoc, List.append_assoc, List.append_assoc, sum_words_append _ hs,
    sum_words_append _ hd, words_toBeBytes, words_toBeBytes, List.sum_cons, List.sum_cons, hlast,
    UInt16.toNat_ofNat', UInt16.toNat_ofNat']
  omega

theorem sum_words_pseudoHeader_append (packet : Bytes) :
    (words (pseudoHeader src dst nextHeader packet.length ++ packet)).sum =
      (words (pseudoHeader src dst nextHeader packet.length)).sum + (words packet).sum := by
  refine sum_words_append _ ⟨20, ?_⟩
  simp [pseudoHeader, src.octets_length, dst.octets_length]

theorem verifies_iff (packet : Bytes) :
    Verifies src dst nextHeader packet ↔
      residue 65536 (words (pseudoHeader src dst nextHeader packet.length ++ packet)).sum = 65535 := by
  rw [Verifies, total_eq_residue (by omega) (words_lt _)]

theorem sum_words_octets_le (addr : Ipv6Addr) : (words addr.octets).sum ≤ 8 * 65535 := by
  have h := sum_words_le addr.octets
  rwa [addr.octets_length] at h

theorem toNat_length32 {packet : Bytes} (hlen : packet.length ≤ 65535) :
    (UInt32.ofNat packet.length).toNat = packet.length := by
  rw [UInt32.toNat_ofNat', Nat.mod_eq_of_lt (by omega)]

theorem toNat_length32_high {packet : Bytes} (hlen : packet.length ≤ 65535) :
    ((UInt32.ofNat packet.length >>> 16) &&& (0xffff : UInt32)).toNat = 0 := by
  rw [toNat_low, toNat_high, toNat_length32 hlen]
  omega

theorem toNat_length32_low {packet : Bytes} (hlen : packet.length ≤ 65535) :
    (UInt32.ofNat packet.length &&& (0xffff : UInt32)).toNat = packet.length := by
  rw [toNat_low, toNat_length32 hlen, Nat.mod_eq_of_lt (by omega)]

theorem toNat_upperLayerChecksum (packet : Bytes) (hlen : packet.length ≤ 65535) :
    (upperLayerChecksum src dst nextHeader packet).toNat = 65535 -
      residue 65536 (words (pseudoHeader src dst nextHeader packet.length ++ packet)).sum := by
  have hs := sum_words_octets_le src
  have hd := sum_words_octets_le dst
  have hp := sum_words_le packet
  have hn := nextHeader.toNat_lt
  rw [upperLayerChecksum]
  rw [toNat_checksumFinish, toNat_checksumAccumulate, UInt32.toNat_add, UInt32.toNat_add,
    UInt32.toNat_add, toNat_length32_high hlen, toNat_length32_low hlen, toNat_checksumAccumulate,
    toNat_checksumAccumulate, UInt8.toNat_toUInt32, UInt32.toNat_zero, sum_words_pseudoHeader_append,
    sum_words_pseudoHeader]
  congr 2
  omega

/-- A packet with its checksum in place of two zero bytes verifies; all ones
do as well as a checksum of zero. -/
theorem verifies_checksum (pre post : Bytes) (hpre : 2 ∣ pre.length)
    (hlen : (pre ++ [0, 0] ++ post).length ≤ 65535) {csum : UInt16}
    (hcsum : csum = upperLayerChecksum src dst nextHeader (pre ++ [0, 0] ++ post) ∨
      csum = 0xffff ∧ upperLayerChecksum src dst nextHeader (pre ++ [0, 0] ++ post) = 0) :
    Verifies src dst nextHeader (pre ++ toBeBytes csum ++ post) := by
  have hlength : (pre ++ toBeBytes csum ++ post).length = (pre ++ [0, 0] ++ post).length := by
    rw [List.length_append, List.length_append, length_toBeBytes, List.length_append, List.length_append]
    rfl
  have hsum : ∀ n : UInt16,
      (words (pre ++ toBeBytes n ++ post)).sum = (words pre).sum + n.toNat + (words post).sum := by
    intro n
    rw [List.append_assoc, sum_words_append _ hpre, words_toBeBytes, List.sum_cons]
    omega
  have hup := toNat_upperLayerChecksum src dst nextHeader _ hlen
  have hzero := hsum 0
  rw [show toBeBytes 0 = [0, 0] from rfl, UInt16.toNat_zero] at hzero
  rw [sum_words_pseudoHeader_append] at hup
  rw [verifies_iff, sum_words_pseudoHeader_append, hlength, hsum]
  generalize hn : (words (pseudoHeader src dst nextHeader (pre ++ [0, 0] ++ post).length)).sum +
    (words (pre ++ [0, 0] ++ post)).sum = n at hup
  have hgoal : residue 65536 (n + csum.toNat) = 65535 := by
    obtain rfl | ⟨rfl, h0⟩ := hcsum
    · rw [hup]
      exact residue_add_complement (by omega) n
    · rw [h0, UInt16.toNat_zero] at hup
      exact residue_add_ones (by omega) hup.symm
  rw [← hgoal, ← hn, hzero]
  congr 1
  omega

end Checksum

section Parse

variable (src dst : Ipv6Addr) (nextHeader hopLimit : UInt8) (payloadLen : UInt16) (udp : Bytes)

theorem version_header :
    (buildIpv6Header src dst nextHeader hopLimit payloadLen ++ udp).getD 0 0 >>> 4 = 6 := by
  change (0x60 : UInt8) >>> 4 = 6
  decide

theorem getD_header_length :
    fromBeBytes ((buildIpv6Header src dst nextHeader hopLimit payloadLen ++ udp).getD 4 0)
      ((buildIpv6Header src dst nextHeader hopLimit payloadLen ++ udp).getD 5 0) = payloadLen :=
  fromBeBytes_toBeBytes payloadLen

theorem slice_header_src :
    slice (buildIpv6Header src dst nextHeader hopLimit payloadLen ++ udp) 8 24 = src.octets := by
  simp [slice, buildIpv6Header, toBeBytes, src.octets_length]

theorem slice_header_dst :
    slice (buildIpv6Header src dst nextHeader hopLimit payloadLen ++ udp) 24 40 = dst.octets := by
  simp [slice, buildIpv6Header, toBeBytes, List.take_append, src.octets_length, dst.octets_length]

theorem drop_header :
    (buildIpv6Header src dst nextHeader hopLimit payloadLen ++ udp).drop ipv6HeaderLen = udp :=
  List.drop_left' (length_buildIpv6Header ..)

theorem getD_header_append (n : Nat) :
    (buildIpv6Header src dst nextHeader hopLimit payloadLen ++ udp).getD (ipv6HeaderLen + n) 0 =
      udp.getD n 0 := by
  rw [List.getD_append_right _ _ _ _ (by simp [ipv6HeaderLen]), length_buildIpv6Header, ipv6HeaderLen,
    Nat.add_sub_cancel_left]

theorem parseIpv6Udp_other (h : nextHeader ≠ udpNextHeader) :
    parseIpv6Udp (buildIpv6Header src dst nextHeader hopLimit payloadLen ++ udp) = none := by
  have hnext : (buildIpv6Header src dst nextHeader hopLimit payloadLen ++ udp).getD 6 0 = nextHeader :=
    rfl
  rw [parseIpv6Udp]
  rw [hnext, if_pos h, ite_self, ite_self]

theorem nextHeader_of_parse {pkt : Bytes} {udp : UdpV6} (h : parseIpv6Udp pkt = some udp) :
    pkt.getD 6 0 = udpNextHeader := by
  rw [parseIpv6Udp] at h
  split_ifs at h with _ _ hnext
  exact not_not.mp hnext

theorem parseIpv6Udp_header (h8 : 8 ≤ udp.length) (hfit : payloadLen.toNat ≤ udp.length) :
    parseIpv6Udp (buildIpv6Header src dst udpNextHeader hopLimit payloadLen ++ udp) =
      some ⟨src, dst, fromBeBytes (udp.getD 0 0) (udp.getD 1 0),
        fromBeBytes (udp.getD 2 0) (udp.getD 3 0), slice udp 8 (max payloadLen.toNat 8)⟩ := by
  let header := buildIpv6Header src dst udpNextHeader hopLimit payloadLen
  have hlen : ¬ (header ++ udp).length < ipv6HeaderLen + 8 := by
    rw [List.length_append, length_buildIpv6Header, ipv6HeaderLen]
    omega
  have hversion : ¬ (header ++ udp).getD 0 0 >>> 4 ≠ 6 := not_not.mpr (version_header ..)
  have hnext : ¬ (header ++ udp).getD 6 0 ≠ udpNextHeader := not_not.mpr rfl
  rw [parseIpv6Udp]
  rw [if_neg hlen, if_neg hversion, if_neg hnext, slice_header_src, slice_header_dst, drop_header,
    getD_header_length, ipv6OfSlice_octets, ipv6OfSlice_octets]
  exact if_neg (by omega)

end Parse

section Udp

variable (srcIp dstIp : Ipv6Addr) (srcPort dstPort csum : UInt16) (payload : Bytes) (hopLimit : UInt8)

def datagram : Bytes :=
  toBeBytes srcPort ++ toBeBytes dstPort ++ toBeBytes (UInt16.ofNat (8 + payload.length)) ++
    toBeBytes csum ++ payload

theorem length_datagram : (datagram srcPort dstPort csum payload).length = 8 + payload.length := by
  simp only [datagram, List.length_append, length_toBeBytes]

theorem csum_datagram : fromBeBytes ((datagram srcPort dstPort csum payload).getD 6 0)
    ((datagram srcPort dstPort csum payload).getD 7 0) = csum :=
  fromBeBytes_toBeBytes csum

theorem slice_datagram_append (padding : Bytes) :
    slice (datagram srcPort dstPort csum payload ++ padding) 8 (8 + payload.length) = payload := by
  rw [slice, List.take_left' (length_datagram ..)]
  exact List.drop_left' rfl

theorem slice_datagram :
    slice (datagram srcPort dstPort csum payload) 8 (8 + payload.length) = payload := by
  have h := slice_datagram_append srcPort dstPort csum payload []
  rwa [List.append_nil] at h

/-- The parser goes by the length in the IPv6 header, and looks at nothing else
behind the ports. -/
theorem parseIpv6Udp_datagram (padding : Bytes) :
    parseIpv6Udp (buildIpv6Header srcIp dstIp udpNextHeader hopLimit (UInt16.ofNat (8 + payload.length)) ++
        (datagram srcPort dstPort csum payload ++ padding)) =
      some ⟨srcIp, dstIp, srcPort, dstPort, slice (datagram srcPort dstPort csum payload ++ padding) 8
        (max ((8 + payload.length) % 65536) 8)⟩ := by
  have hfield : (UInt16.ofNat (8 + payload.length)).toNat = (8 + payload.length) % 65536 :=
    UInt16.toNat_ofNat'
  have hlen : (datagram srcPort dstPort csum payload ++ padding).length =
      8 + payload.length + padding.length := by
    rw [List.length_append, length_datagram]
  have hsrcPort : fromBeBytes ((datagram srcPort dstPort csum payload ++ padding).getD 0 0)
      ((datagram srcPort dstPort csum payload ++ padding).getD 1 0) = srcPort :=
    fromBeBytes_toBeBytes srcPort
  have hdstPort : fromBeBytes ((datagram srcPort dstPort csum payload ++ padding).getD 2 0)
      ((datagram srcPort dstPort csum payload ++ padding).getD 3 0) = dstPort :=
    fromBeBytes_toBeBytes dstPort
  rw [parseIpv6Udp_header srcIp dstIp hopLimit _ _ (by omega) (by omega), hsrcPort, hdstPort, hfield]

/-- What `build_udp_packet` sends: a datagram whose checksum is not zero and verifies. -/
theorem buildUdpPacket_eq :
    ∃ csum : UInt16, csum ≠ 0 ∧
      buildUdpPacket srcIp dstIp srcPort dstPort payload hopLimit =
        buildIpv6Header srcIp dstIp udpNextHeader hopLimit (UInt16.ofNat (8 + payload.length)) ++
          datagram srcPort dstPort csum payload ∧
      (payload.length ≤ 65527 →
        Verifies srcIp dstIp udpNextHeader (datagram srcPort dstPort csum payload)) := by
  let front := toBeBytes srcPort ++ toBeBytes dstPort ++ toBeBytes (UInt16.ofNat (8 + payload.length))
  let computed := upperLayerChecksum srcIp dstIp udpNextHeader (front ++ [0, 0] ++ payload)
  let csum := if computed = 0 then 0xffff else computed
  have hcsum : csum = computed ∨ csum = 0xffff ∧ computed = 0 := by
    by_cases h0 : computed = 0
    · exact .inr ⟨if_pos h0, h0⟩
    · exact .inl (if_neg h0)
  refine ⟨csum, ?_, ?_, fun hlen => ?_⟩
  · dsimp only [csum]
    split_ifs with h0
    · decide
    · exact h0
  · have hcopy := copyFromSlice_append front [0, 0] (toBeBytes csum) payload rfl
    exact congrArg
      (buildIpv6Header srcIp dstIp udpNextHeader hopLimit (UInt16.ofNat (8 + payload.length)) ++ ·) hcopy
  · refine verifies_checksum srcIp dstIp udpNextHeader front payload ⟨3, rfl⟩ ?_ hcsum
    have hl : (front ++ [0, 0] ++ payload).length = 8 + payload.length := by
      simp only [front, List.length_append, length_toBeBytes, List.length_cons, List.length_nil]
    omega

/-- Parsing gives back the addresses and ports of any datagram, and its payload
when the length fits its field. -/
theorem parseIpv6Udp_buildUdpPacket :
    ∃ received, parseIpv6Udp (buildUdpPacket srcIp dstIp srcPort dstPort payload hopLimit) =
        some ⟨srcIp, dstIp, srcPort, dstPort, received⟩ ∧
      (payload.length ≤ 65527 → received = payload) := by
  obtain ⟨csum, -, hbuild, -⟩ := buildUdpPacket_eq srcIp dstIp srcPort dstPort payload hopLimit
  have hparse := parseIpv6Udp_datagram srcIp dstIp srcPort dstPort csum payload hopLimit []
  rw [List.append_nil] at hparse
  refine ⟨_, hbuild ▸ hparse, fun hlen => ?_⟩
  rw [Nat.mod_eq_of_lt (by omega), Nat.max_eq_left (by omega), slice_datagram]

end Udp

end DnsAnnounce.Packet
