import DnsAnnounce.Checksum
import DnsAnnounce.DnsServer
import DnsAnnounce.UdpCodec

namespace DnsAnnounce.Framing

open DnsAnnounce.Utf8 DnsAnnounce.Address DnsAnnounce.Effect DnsAnnounce.Packet DnsAnnounce.SimpleDns
open DnsAnnounce.DnsServer DnsAnnounce.Checksum DnsAnnounce.UdpCodec DnsAnnounce.RouterAdvert

section Udp

variable (srcIp dstIp : Ipv6Addr) (srcPort dstPort : UInt16) (payload : Bytes) (hopLimit : UInt8)

def checkedBuildUdpPacket : Option Bytes :=
  let udpLen := 8 + payload.length
  let udp := datagram srcPort dstPort 0 payload
  (checkedUpperLayerChecksum srcIp dstIp udpNextHeader udp).map fun csum =>
    let csum := if csum = 0 then 0xffff else csum
    buildIpv6Header srcIp dstIp udpNextHeader hopLimit (UInt16.ofNat udpLen) ++
      copyFromSlice udp 6 (toBeBytes csum)

/-- Both lengths are the real one, the whole payload comes out at the receiver,
and computing the checksum did not overflow. -/
structure Framed (pkt : Bytes) : Prop where
  payloadLen : declaredLen pkt = (pkt.drop ipv6HeaderLen).length
  udpLen : udpLen pkt = (pkt.drop ipv6HeaderLen).length
  parsed : parseIpv6Udp pkt = some ⟨srcIp, dstIp, srcPort, dstPort, payload⟩
  checked : checkedBuildUdpPacket srcIp dstIp srcPort dstPort payload hopLimit = some pkt

theorem checkedBuildUdpPacket_eq (hlen : payload.length ≤ 65527) :
    checkedBuildUdpPacket srcIp dstIp srcPort dstPort payload hopLimit =
      some (buildUdpPacket srcIp dstIp srcPort dstPort payload hopLimit) := by
  have hl := length_datagram srcPort dstPort 0 payload
  have hchecked := checkedUpperLayerChecksum_eq
    (show (datagram srcPort dstPort 0 payload).length ≤ 65535 by omega) srcIp dstIp udpNextHeader
  rw [checkedBuildUdpPacket]
  rw [hchecked]
  rfl

theorem declaredLen_buildUdpPacket :
    declaredLen (buildUdpPacket srcIp dstIp srcPort dstPort payload hopLimit) =
      (8 + payload.length) % 65536 := by
  obtain ⟨csum, -, hbuild, -⟩ := buildUdpPacket_eq srcIp dstIp srcPort dstPort payload hopLimit
  rw [hbuild, declaredLen, getD_header_length, UInt16.toNat_ofNat']

theorem udpLen_buildUdpPacket :
    udpLen (buildUdpPacket srcIp dstIp srcPort dstPort payload hopLimit) =
      (8 + payload.length) % 65536 := by
  obtain ⟨csum, -, hbuild, -⟩ := buildUdpPacket_eq srcIp dstIp srcPort dstPort payload hopLimit
  have hfield : fromBeBytes ((datagram srcPort dstPort csum payload).getD 4 0)
      ((datagram srcPort dstPort csum payload).getD 5 0) = UInt16.ofNat (8 + payload.length) :=
    fromBeBytes_toBeBytes _
  rw [hbuild, udpLen, getD_header_append, getD_header_append, hfield, UInt16.toNat_ofNat']

theorem length_drop_buildUdpPacket :
    ((buildUdpPacket srcIp dstIp srcPort dstPort payload hopLimit).drop ipv6HeaderLen).length =
      8 + payload.length := by
  obtain ⟨csum, -, hbuild, -⟩ := buildUdpPacket_eq srcIp dstIp srcPort dstPort payload hopLimit
  rw [hbuild, drop_header, length_datagram]

/-- The length of the datagram is cast to sixteen bits; that is all that can go wrong. -/
theorem framed_iff :
    Framed srcIp dstIp srcPort dstPort payload hopLimit
      (buildUdpPacket srcIp dstIp srcPort dstPort payload hopLimit) ↔ payload.length ≤ 65527 := by
  have hdeclared := declaredLen_buildUdpPacket srcIp dstIp srcPort dstPort payload hopLimit
  have hudp := udpLen_buildUdpPacket srcIp dstIp srcPort dstPort payload hopLimit
  have hlength := length_drop_buildUdpPacket srcIp dstIp srcPort dstPort payload hopLimit
  constructor
  · intro h
    have hreal := h.payloadLen
    omega
  · intro hlen
    refine ⟨by omega, by omega, ?_, checkedBuildUdpPacket_eq _ _ _ _ _ _ hlen⟩
    have hparse := parseIpv6Udp_padded srcIp dstIp srcPort dstPort payload hopLimit [] hlen
    rwa [List.append_nil] at hparse

end Udp

variable {Name Header Data S : Type} (D : SimpleDns Name Header Data)

def isV4 : IpAddr → Bool
  | .V4 _ => true
  | .V6 _ => false

def isARecord (record : ResourceRecord Name Data) : Bool :=
  match record.rdata with
  | .A _ => true
  | _ => false

/-- The crate spends at least sixteen bytes on an A record. -/
def SixteenPerRecord : Prop :=
  ∀ message bytes, D.buildBytesVecCompressed message = some bytes →
    16 * message.answers.countP isARecord ≤ bytes.length

variable {D}

theorem countP_recordsFor {question : Question Name} (hq : question.qtype = .TYPE .A)
    (addrs : List IpAddr) :
    (recordsFor question addrs : List (ResourceRecord Name Data)).countP isARecord =
      addrs.countP isV4 := by
  induction addrs with
  | nil =>
    rw [recordsFor]
    simp only [hq]
    rfl
  | cons addr addrs ih =>
    have hone : (recordsFor question [addr] : List (ResourceRecord Name Data)).countP isARecord =
        [addr].countP isV4 := by
      rw [recordsFor]
      simp only [hq]
      cases addr <;> rfl
    rw [recordsFor_cons, List.countP_append, hone, ih, ← List.countP_append, List.singleton_append]

theorem sixteen_per_address (hD : SixteenPerRecord D) {message : Packet Name Header Data}
    {question : Question Name} (hq : question.qtype = .TYPE .A) {addrs : List IpAddr} {payload : Bytes}
    (hbuild : D.buildBytesVecCompressed (replyTo D message question (.Answer (.Addrs addrs))) =
      some payload) :
    16 * addrs.countP isV4 ≤ payload.length := by
  have hsize := hD _ _ hbuild
  rw [replyTo, finishReply, foldl_pushAddr] at hsize
  rw [List.countP_append, countP_recordsFor hq] at hsize
  omega

/-- A reply is framed correctly exactly if the message, as the crate serialises
it, fits a datagram. Four thousand and ninety-six addresses never do. -/
theorem reply_framed_iff {cfg : DnsConfig} {pkt p : Bytes} (h : Resolver S) (s : S)
    (hp : (exec h (handlePacket D cfg pkt) s).1 = some p) :
    ∃ udp message question payload, Asks D cfg pkt udp message question ∧
      D.buildBytesVecCompressed (replyTo D message question (h (queryOf D question) s).1) = some payload ∧
      (Framed cfg.serverAddr udp.srcIp dnsPort udp.srcPort payload 64 p ↔ payload.length ≤ 65527) ∧
      (SixteenPerRecord D → question.qtype = .TYPE .A → ∀ addrs,
        (h (queryOf D question) s).1 = .Answer (.Addrs addrs) → 4096 ≤ addrs.countP isV4 →
        ¬ Framed cfg.serverAddr udp.srcIp dnsPort udp.srcPort payload 64 p) := by
  by_cases hasks : ∃ udp message question, Asks D cfg pkt udp message question
  · obtain ⟨udp, message, question, hasks⟩ := hasks
    rw [exec_handlePacket hasks] at hp
    obtain ⟨payload, hpayload, rfl⟩ := Option.map_eq_some_iff.mp hp
    have hiff := framed_iff cfg.serverAddr udp.srcIp dnsPort udp.srcPort payload 64
    refine ⟨udp, message, question, payload, hasks, hpayload, hiff, ?_⟩
    intro hsixteen hq addrs haddrs hmany
    rw [haddrs] at hpayload
    have hsize := sixteen_per_address hsixteen hq hpayload
    rw [hiff]
    omega
  · rw [handlePacket_silent hasks] at hp
    contradiction

section Sample

def encodeRecord (record : ResourceRecord Text Empty) : Bytes :=
  match record.rdata with
  | .A v4 => [0xc0, 0x0c, 0, 1, 0, 1] ++ toBeBytes32 record.ttl ++ [0, 4] ++ v4.octets
  | .AAAA v6 => [0xc0, 0x0c, 0, 28, 0, 1] ++ toBeBytes32 record.ttl ++ [0, 16] ++ v6.octets

def encodeMessage (message : SimpleDns.Packet Text PlainHeader Empty) : Bytes :=
  toBeBytes message.header.id ++ [0x81, 0x80] ++ toBeBytes (UInt16.ofNat message.questions.length) ++
    toBeBytes (UInt16.ofNat message.answers.length) ++ [0, 0, 0, 0] ++ DnsServer.question ++
    message.answers.flatMap encodeRecord

/-- The crate as it serialises any answer about one name. -/
def serialising : SimpleDns Text PlainHeader Empty :=
  { simpleDns with buildBytesVecCompressed := fun message => some (encodeMessage message) }

theorem sixteen_serialising : SixteenPerRecord serialising := by
  rintro message bytes ⟨rfl⟩
  have hrecords : ∀ answers : List (ResourceRecord Text Empty),
      16 * answers.countP isARecord ≤ (answers.flatMap encodeRecord).length := by
    intro answers
    induction answers with
    | nil => exact le_rfl
    | cons record records ih =>
      have hone : 16 * [record].countP isARecord ≤ (encodeRecord record).length := by
        obtain ⟨name, class_, ttl, v4 | v6 | data, cacheFlush⟩ := record
        · simp [isARecord, encodeRecord, toBeBytes32, v4.octets_length]
        · simp [isARecord, encodeRecord, toBeBytes32, v6.octets_length]
        · exact data.elim
      rw [← List.singleton_append, List.countP_append, List.flatMap_append, List.flatMap_singleton,
        List.length_append]
      omega
  have hanswers := hrecords message.answers
  rw [encodeMessage, List.length_append]
  omega

def manyAddresses : List IpAddr := List.replicate 4096 (.V4 ⟨[10, 9, 8, 7], rfl⟩)

def manyHosts : Resolver Unit := fun _ s => (.Answer (.Addrs manyAddresses), s)

theorem asks_serialising (src : Ipv6Addr) (srcPort : UInt16) :
    ∃ udp, Asks serialising ⟨server⟩ (queryFrom src srcPort) udp asking foo ∧
      udp.srcIp = src ∧ udp.srcPort = srcPort := by
  obtain ⟨udp, hasks, haddr⟩ := asks_queryFrom src srcPort
  exact ⟨udp, ⟨hasks.datagram, hasks.addressed, hasks.port, hasks.parsed, hasks.first⟩, haddr⟩

end Sample

theorem many_addresses_misframed :
    (∀ message, (serialising.buildBytesVecCompressed message).isSome) ∧ SixteenPerRecord serialising ∧
    ∃ p payload, (exec manyHosts (handlePacket serialising ⟨server⟩ (queryFrom peer 40000)) ()).1 = some p ∧
      serialising.buildBytesVecCompressed
        (replyTo serialising asking foo (manyHosts (queryOf serialising foo) ()).1) = some payload ∧
      ¬ Framed server peer dnsPort 40000 payload 64 p := by
  obtain ⟨udp, hasks, hsrc, hport⟩ := asks_serialising peer 40000
  have hexec := exec_handlePacket hasks manyHosts ()
  rw [hsrc, hport] at hexec
  let payload := encodeMessage (replyTo serialising asking foo (.Answer (.Addrs manyAddresses)))
  have hsize : 16 * manyAddresses.countP isV4 ≤ payload.length :=
    sixteen_per_address sixteen_serialising rfl rfl
  have hcount : manyAddresses.countP isV4 = 4096 := List.countP_replicate
  rw [hcount] at hsize
  refine ⟨fun _ => rfl, sixteen_serialising, _, payload, hexec, rfl, fun hframed => ?_⟩
  have hfits := (framed_iff server peer dnsPort 40000 payload 64).mp hframed
  omega

theorem one_address_framed :
    ∃ p payload, (exec onlyHost (handlePacket simpleDns ⟨server⟩ (queryFrom peer 40000)) ()).1 = some p ∧
      Framed server peer dnsPort 40000 payload 64 p := by
  obtain ⟨udp, hasks, hsrc, hport⟩ := asks_queryFrom peer 40000
  have hreply : replyTo simpleDns asking foo (onlyHost (queryOf simpleDns foo) ()).1 = answering := by
    decide +kernel
  have hanswering : simpleDns.buildBytesVecCompressed answering = some answeringBytes := by decide +kernel
  have hexec := exec_handlePacket hasks onlyHost ()
  rw [hreply, hanswering, hsrc, hport] at hexec
  obtain ⟨udp', message, question, payload, hasks', hbuild, hiff, -⟩ := reply_framed_iff onlyHost () hexec
  obtain rfl := Option.some.inj (hasks'.datagram.symm.trans hasks.datagram)
  obtain rfl := Option.some.inj (hasks'.parsed.symm.trans hasks.parsed)
  obtain rfl := Option.some.inj (hasks'.first.symm.trans hasks.first)
  rw [hreply, hanswering] at hbuild
  obtain rfl := Option.some.inj hbuild
  rw [hsrc, hport] at hiff
  exact ⟨_, answeringBytes, hexec, hiff.mpr (by decide)⟩

end DnsAnnounce.Framing
