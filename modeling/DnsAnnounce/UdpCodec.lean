import DnsAnnounce.Packet

namespace DnsAnnounce.UdpCodec

open DnsAnnounce.Utf8 DnsAnnounce.Address DnsAnnounce.Packet

def declaredLen (pkt : Bytes) : Nat := (fromBeBytes (pkt.getD 4 0) (pkt.getD 5 0)).toNat

def udpLen (pkt : Bytes) : Nat :=
  (fromBeBytes (pkt.getD (ipv6HeaderLen + 4) 0) (pkt.getD (ipv6HeaderLen + 5) 0)).toNat

/-- What `parse_ipv6_udp` checks. -/
structure Accepted (pkt : Bytes) : Prop where
  headers : ipv6HeaderLen + 8 ≤ pkt.length
  version : pkt.getD 0 0 >>> 4 = 6
  nextHeader : pkt.getD 6 0 = udpNextHeader
  declared : ipv6HeaderLen + declaredLen pkt ≤ pkt.length

/-- What `parse_ipv6_udp` returns. -/
structure Reads (pkt : Bytes) (udp : UdpV6) : Prop where
  srcIp : udp.srcIp.octets = slice pkt 8 24
  dstIp : udp.dstIp.octets = slice pkt 24 40
  srcPort : udp.srcPort = fromBeBytes (pkt.getD 40 0) (pkt.getD 41 0)
  dstPort : udp.dstPort = fromBeBytes (pkt.getD 42 0) (pkt.getD 43 0)
  payload : udp.payload = slice (pkt.drop ipv6HeaderLen) 8 (max (declaredLen pkt) 8)

/-- An access outside a buffer. -/
structure OutOfBounds where
  index : Nat
  length : Nat
  deriving DecidableEq

def index (buf : Bytes) (i : Nat) : Except OutOfBounds UInt8 :=
  if i < buf.length then .ok (buf.getD i 0) else .error ⟨i, buf.length⟩

def range (buf : Bytes) (start stop : Nat) : Except OutOfBounds Bytes :=
  if start ≤ stop ∧ stop ≤ buf.length then .ok (slice buf start stop) else .error ⟨stop, buf.length⟩

def checkedParseIpv6Udp (pkt : Bytes) : Except OutOfBounds (Option UdpV6) :=
  if pkt.length < ipv6HeaderLen + 8 then .ok none
  else do
    let first ← index pkt 0
    if first >>> 4 ≠ 6 then .ok none
    else do
      let nextHeader ← index pkt 6
      if nextHeader ≠ udpNextHeader then .ok none
      else do
        let hi ← index pkt 4
        let lo ← index pkt 5
        let payloadLen := (fromBeBytes hi lo).toNat
        match ipv6OfSlice (← range pkt 8 24) with
        | none => .ok none
        | some srcIp => match ipv6OfSlice (← range pkt 24 40) with
          | none => .ok none
          | some dstIp =>
            let udp ← range pkt ipv6HeaderLen pkt.length
            if udp.length < 8 ∨ udp.length < payloadLen then .ok none
            else do
              let srcPort := fromBeBytes (← index udp 0) (← index udp 1)
              let dstPort := fromBeBytes (← index udp 2) (← index udp 3)
              let payload ← range udp 8 (max payloadLen 8)
              .ok (some ⟨srcIp, dstIp, srcPort, dstPort, payload⟩)

theorem length_slice {buf : Bytes} {start stop : Nat} (h : stop ≤ buf.length) :
    (slice buf start stop).length = stop - start := by
  rw [slice, List.length_drop, List.length_take, Nat.min_eq_left h]

theorem slice_append_slice {buf : Bytes} {a b c : Nat} (hab : a ≤ b) (hbc : b ≤ c) :
    slice buf a b ++ slice buf b c = slice buf a c := by
  have hsum : c - a = b - a + (c - b) := by omega
  have hmid : a + (b - a) = b := by omega
  rw [slice, slice, slice, List.drop_take, List.drop_take, List.drop_take, hsum, List.take_add,
    List.drop_drop, hmid]

theorem getD_drop (buf : Bytes) (start i : Nat) : (buf.drop start).getD i 0 = buf.getD (start + i) 0 := by
  rw [List.getD_eq_getElem?_getD, List.getElem?_drop, List.getD_eq_getElem?_getD]

@[simp] theorem slice_self (buf : Bytes) (i : Nat) : slice buf i i = [] :=
  List.drop_eq_nil_of_le (List.length_take_le i buf)

theorem slice_eq_cons {buf : Bytes} {i j : Nat} (hij : i < j) (hj : j ≤ buf.length) :
    slice buf i j = buf.getD i 0 :: slice buf (i + 1) j := by
  have hi : i < buf.length := by omega
  have hsucc : j - i = j - (i + 1) + 1 := by omega
  rw [slice, slice, List.drop_take, List.drop_take, List.drop_eq_getElem_cons hi, hsucc,
    List.take_succ_cons, List.getD_eq_getElem _ _ hi]

theorem slice_drop (buf : Bytes) (n start stop : Nat) :
    slice (buf.drop n) start stop = slice buf (n + start) (n + stop) := by
  rw [slice, slice, List.drop_take, List.drop_take, List.drop_drop, Nat.add_sub_add_left]

theorem toBeBytes_fromBeBytes (hi lo : UInt8) : toBeBytes (fromBeBytes hi lo) = [hi, lo] := by
  have h1 := hi.toNat_lt
  have h2 := lo.toNat_lt
  rw [toBeBytes, toNat_fromBeBytes]
  congr 1
  · apply UInt8.toNat_inj.mp
    rw [UInt8.toNat_ofNat']
    omega
  · congr 1
    apply UInt8.toNat_inj.mp
    rw [UInt8.toNat_ofNat']
    omega

theorem ipv6OfSlice_eq {bytes : Bytes} (h : bytes.length = 16) : ipv6OfSlice bytes = some ⟨bytes, h⟩ :=
  dif_pos h

theorem parseIpv6Udp_accepted {pkt : Bytes} (h : Accepted pkt) :
    ∃ udp, parseIpv6Udp pkt = some udp ∧ Reads pkt udp := by
  have hheaders := h.headers
  have hdeclared := h.declared
  have hlen : 48 ≤ pkt.length := hheaders
  have hrest : (pkt.drop ipv6HeaderLen).length = pkt.length - ipv6HeaderLen := List.length_drop
  have hsrc : (slice pkt 8 24).length = 16 := length_slice (by omega)
  have hdst : (slice pkt 24 40).length = 16 := length_slice (by omega)
  let udp := pkt.drop ipv6HeaderLen
  refine ⟨⟨⟨_, hsrc⟩, ⟨_, hdst⟩, fromBeBytes (udp.getD 0 0) (udp.getD 1 0),
    fromBeBytes (udp.getD 2 0) (udp.getD 3 0), slice udp 8 (max (declaredLen pkt) 8)⟩, ?_, ?_⟩
  · rw [parseIpv6Udp]
    rw [if_neg (not_lt.mpr h.headers), if_neg (not_not.mpr h.version), if_neg (not_not.mpr h.nextHeader),
      ipv6OfSlice_eq hsrc, ipv6OfSlice_eq hdst, Option.bind_eq_bind, Option.bind_some, Option.bind_some]
    apply if_neg
    rw [← declaredLen]
    omega
  · refine ⟨rfl, rfl, ?_, ?_, rfl⟩
    · dsimp only [udp]
      rw [getD_drop, getD_drop]
      rfl
    · dsimp only [udp]
      rw [getD_drop, getD_drop]
      rfl

theorem accepted_of_parse {pkt : Bytes} {udp : UdpV6} (h : parseIpv6Udp pkt = some udp) :
    Accepted pkt := by
  have hnext := nextHeader_of_parse h
  rw [parseIpv6Udp] at h
  split_ifs at h with hheaders hversion
  have hheaders := not_lt.mp hheaders
  have hlen : 48 ≤ pkt.length := hheaders
  rw [ipv6OfSlice_eq (length_slice (by omega)), ipv6OfSlice_eq (length_slice (by omega)),
    Option.bind_eq_bind, Option.bind_some, Option.bind_some] at h
  dsimp only at h
  split_ifs at h with hroom
  rw [List.length_drop, ← declaredLen] at hroom
  exact ⟨hheaders, not_not.mp hversion, hnext, by omega⟩

theorem reads_of_parse {pkt : Bytes} {udp : UdpV6} (h : parseIpv6Udp pkt = some udp) :
    Reads pkt udp := by
  obtain ⟨udp', hparse, hreads⟩ := parseIpv6Udp_accepted (accepted_of_parse h)
  rwa [Option.some.inj (h.symm.trans hparse)]

/-- All but the traffic class, the flow label, the hop limit, the UDP length
and the checksum is as in the packet, up to the end it declares. -/
structure Reproduces (pkt rebuilt : Bytes) : Prop where
  length : rebuilt.length = ipv6HeaderLen + declaredLen pkt
  version : rebuilt.getD 0 0 >>> 4 = pkt.getD 0 0 >>> 4
  payloadLenAndNextHeader : slice rebuilt 4 7 = slice pkt 4 7
  addressesAndPorts : slice rebuilt 8 44 = slice pkt 8 44
  payload : slice rebuilt 48 (ipv6HeaderLen + declaredLen pkt) =
    slice pkt 48 (ipv6HeaderLen + declaredLen pkt)

theorem slice_header_append (src dst : Ipv6Addr) (nextHeader hopLimit : UInt8) (payloadLen : UInt16)
    (udp : Bytes) (start stop : Nat) :
    slice (buildIpv6Header src dst nextHeader hopLimit payloadLen ++ udp) (ipv6HeaderLen + start)
      (ipv6HeaderLen + stop) = slice udp start stop := by
  rw [← slice_drop, drop_header]

theorem slice_header_lengths (src dst : Ipv6Addr) (nextHeader hopLimit : UInt8) (payloadLen : UInt16)
    (udp : Bytes) : slice (buildIpv6Header src dst nextHeader hopLimit payloadLen ++ udp) 4 7 =
      toBeBytes payloadLen ++ [nextHeader] := rfl

theorem slice_addressesAndPorts (buf : Bytes) :
    slice buf 8 44 = slice buf 8 24 ++ (slice buf 24 40 ++ slice buf 40 44) := by
  rw [slice_append_slice (by omega) (by omega), slice_append_slice (by omega) (by omega)]

theorem parseIpv6Udp_padded (srcIp dstIp : Ipv6Addr) (srcPort dstPort : UInt16) (payload : Bytes)
    (hopLimit : UInt8) (padding : Bytes) (hlen : payload.length ≤ 65527) :
    parseIpv6Udp (buildUdpPacket srcIp dstIp srcPort dstPort payload hopLimit ++ padding) =
      some ⟨srcIp, dstIp, srcPort, dstPort, payload⟩ := by
  obtain ⟨csum, -, hbuild, -⟩ := buildUdpPacket_eq srcIp dstIp srcPort dstPort payload hopLimit
  rw [hbuild, List.append_assoc, parseIpv6Udp_datagram, Nat.mod_eq_of_lt (by omega),
    Nat.max_eq_left (by omega), slice_datagram_append]

theorem reproduces_of_parse {pkt : Bytes} {udp : UdpV6} (h : parseIpv6Udp pkt = some udp)
    (h8 : 8 ≤ declaredLen pkt) (hopLimit : UInt8) :
    Reproduces pkt
      (buildUdpPacket udp.srcIp udp.dstIp udp.srcPort udp.dstPort udp.payload hopLimit) := by
  have haccepted := accepted_of_parse h
  have hreads := reads_of_parse h
  have hheaders : 48 ≤ pkt.length := haccepted.headers
  have hdeclared : 40 + declaredLen pkt ≤ pkt.length := haccepted.declared
  have hpayload : udp.payload = slice pkt 48 (ipv6HeaderLen + declaredLen pkt) := by
    rw [hreads.payload, slice_drop, Nat.max_eq_left h8]
    rfl
  have hlen : 8 + udp.payload.length = declaredLen pkt := by
    rw [hpayload, length_slice haccepted.declared, ipv6HeaderLen]
    omega
  have hfield : UInt16.ofNat (8 + udp.payload.length) = fromBeBytes (pkt.getD 4 0) (pkt.getD 5 0) := by
    rw [hlen, declaredLen, UInt16.ofNat_toNat]
  obtain ⟨csum, -, hbuild, -⟩ := buildUdpPacket_eq udp.srcIp udp.dstIp udp.srcPort udp.dstPort
    udp.payload hopLimit
  have hl := length_datagram udp.srcPort udp.dstPort csum udp.payload
  rw [hbuild]
  constructor
  · rw [List.length_append, length_buildIpv6Header, hl, hlen, ipv6HeaderLen]
  · rw [haccepted.version, version_header]
  · rw [slice_header_lengths, hfield, toBeBytes_fromBeBytes, slice_eq_cons (by omega) (by omega),
      slice_eq_cons (by omega) (by omega), slice_eq_cons (by omega) (by omega), slice_self,
      haccepted.nextHeader]
    rfl
  · have hports : slice (buildIpv6Header udp.srcIp udp.dstIp udpNextHeader hopLimit
        (UInt16.ofNat (8 + udp.payload.length)) ++
          datagram udp.srcPort udp.dstPort csum udp.payload) 40 44 =
        toBeBytes udp.srcPort ++ toBeBytes udp.dstPort := slice_header_append _ _ _ _ _ _ 0 4
    rw [slice_addressesAndPorts, slice_header_src, slice_header_dst, hports, hreads.srcPort,
      hreads.dstPort, toBeBytes_fromBeBytes, toBeBytes_fromBeBytes, slice_addressesAndPorts,
      hreads.srcIp, hreads.dstIp]
    congr 2
    rw [slice_eq_cons (by omega) (by omega), slice_eq_cons (by omega) (by omega),
      slice_eq_cons (by omega) (by omega), slice_eq_cons (by omega) (by omega), slice_self]
    rfl
  · have hrebuilt : slice (buildIpv6Header udp.srcIp udp.dstIp udpNextHeader hopLimit
        (UInt16.ofNat (8 + udp.payload.length)) ++
          datagram udp.srcPort udp.dstPort csum udp.payload) 48 (ipv6HeaderLen + declaredLen pkt) =
        slice (datagram udp.srcPort udp.dstPort csum udp.payload) 8 (declaredLen pkt) :=
      slice_header_append _ _ _ _ _ _ 8 _
    rw [hrebuilt, ← hlen, slice_datagram, hlen, ← hpayload]

theorem index_eq {buf : Bytes} {i : Nat} (h : i < buf.length) : index buf i = .ok (buf.getD i 0) :=
  if_pos h

theorem range_eq {buf : Bytes} {start stop : Nat} (h : start ≤ stop) (h' : stop ≤ buf.length) :
    range buf start stop = .ok (slice buf start stop) :=
  if_pos ⟨h, h'⟩

theorem ok_bind {α β ε : Type} (a : α) (f : α → Except ε β) : (Except.ok a >>= f) = f a := rfl

theorem slice_to_end (buf : Bytes) (start : Nat) : slice buf start buf.length = buf.drop start := by
  rw [slice, List.take_length]

theorem checkedParseIpv6Udp_eq (pkt : Bytes) : checkedParseIpv6Udp pkt = .ok (parseIpv6Udp pkt) := by
  rw [checkedParseIpv6Udp, parseIpv6Udp]
  by_cases hheaders : pkt.length < ipv6HeaderLen + 8
  · rw [if_pos hheaders, if_pos hheaders]
  have hlen : 48 ≤ pkt.length := not_lt.mp hheaders
  rw [if_neg hheaders, if_neg hheaders, index_eq (by omega), ok_bind]
  by_cases hversion : pkt.getD 0 0 >>> 4 ≠ 6
  · rw [if_pos hversion, if_pos hversion]
  rw [if_neg hversion, if_neg hversion, index_eq (by omega), ok_bind]
  by_cases hnext : pkt.getD 6 0 ≠ udpNextHeader
  · rw [if_pos hnext, if_pos hnext]
  have hsrc : (slice pkt 8 24).length = 16 := length_slice (by omega)
  have hdst : (slice pkt 24 40).length = 16 := length_slice (by omega)
  rw [if_neg hnext, if_neg hnext, index_eq (by omega), ok_bind, index_eq (by omega), ok_bind,
    range_eq (by omega) (by omega), ok_bind, ipv6OfSlice_eq hsrc]
  dsimp only
  rw [range_eq (by omega) (by omega), ok_bind, ipv6OfSlice_eq hdst]
  dsimp only
  rw [range_eq (not_lt.mp hheaders |>.trans' (Nat.le_add_right ..)) le_rfl, ok_bind, slice_to_end]
  simp only [Option.bind_eq_bind, Option.bind_some]
  by_cases hroom : (pkt.drop ipv6HeaderLen).length < 8 ∨
      (pkt.drop ipv6HeaderLen).length < (fromBeBytes (pkt.getD 4 0) (pkt.getD 5 0)).toNat
  · rw [if_pos hroom, if_pos hroom]
  rw [if_neg hroom, if_neg hroom, index_eq (by omega), ok_bind, index_eq (by omega), ok_bind,
    index_eq (by omega), ok_bind, index_eq (by omega), ok_bind, range_eq (by omega) (by omega), ok_bind]

/-- The parser gives back what was built, whatever follows it on the link, and
what it accepts is built again from its result. -/
theorem udp_round_trip :
    (∀ (srcIp dstIp : Ipv6Addr) (srcPort dstPort : UInt16) (payload : Bytes) (hopLimit : UInt8)
      (padding : Bytes), payload.length ≤ 65527 →
      parseIpv6Udp (buildUdpPacket srcIp dstIp srcPort dstPort payload hopLimit ++ padding) =
        some ⟨srcIp, dstIp, srcPort, dstPort, payload⟩) ∧
    (∀ (pkt : Bytes) (udp : UdpV6) (hopLimit : UInt8), parseIpv6Udp pkt = some udp →
      8 ≤ declaredLen pkt → Reproduces pkt
        (buildUdpPacket udp.srcIp udp.dstIp udp.srcPort udp.dstPort udp.payload hopLimit)) ∧
    ∀ pkt, checkedParseIpv6Udp pkt = .ok (parseIpv6Udp pkt) :=
  ⟨parseIpv6Udp_padded, fun _ _ hopLimit h h8 => reproduces_of_parse h h8 hopLimit,
    checkedParseIpv6Udp_eq⟩

/-- Header and payload lie inside the datagram, as both lengths have it. -/
structure InBounds (pkt : Bytes) (udp : UdpV6) : Prop where
  header : 8 ≤ declaredLen pkt
  udpLen_min : 8 ≤ udpLen pkt
  udpLen_le : udpLen pkt ≤ declaredLen pkt
  payload : udp.payload = slice (pkt.drop ipv6HeaderLen) 8 (udpLen pkt)

/-- The parser respects the datagram exactly where the two lengths agree and
cover the UDP header; it looks at one of them only. -/
theorem parse_in_bounds_iff (pkt : Bytes) :
    (∀ udp, parseIpv6Udp pkt = some udp → InBounds pkt udp) ↔
      (Accepted pkt → 8 ≤ declaredLen pkt ∧ udpLen pkt = declaredLen pkt) := by
  constructor
  · intro hall haccepted
    obtain ⟨udp, hparse, hreads⟩ := parseIpv6Udp_accepted haccepted
    have hbounds := hall udp hparse
    have hheader := hbounds.header
    have hmin := hbounds.udpLen_min
    have hle := hbounds.udpLen_le
    have hrest : (pkt.drop ipv6HeaderLen).length = pkt.length - ipv6HeaderLen := List.length_drop
    have hdeclared := haccepted.declared
    have hread : udp.payload.length = declaredLen pkt - 8 := by
      rw [hreads.payload, Nat.max_eq_left hheader, length_slice (by omega)]
    have hudp : udp.payload.length = udpLen pkt - 8 := by
      rw [hbounds.payload, length_slice (by omega)]
    exact ⟨hheader, by omega⟩
  · intro hlen udp hparse
    obtain ⟨h8, heq⟩ := hlen (accepted_of_parse hparse)
    refine ⟨h8, heq ▸ h8, heq.le, ?_⟩
    rw [(reads_of_parse hparse).payload, heq, Nat.max_eq_left h8]

def host : Ipv6Addr := ⟨[0xfd, 0, 0, 0, 0, 0, 0, 0, 0, 0, 0, 0, 0, 0, 0, 7], rfl⟩

def withLengths (declared udpLen : UInt16) (payload : Bytes) : Bytes :=
  buildIpv6Header host host udpNextHeader 64 declared ++
    (toBeBytes 40000 ++ toBeBytes 53 ++ toBeBytes udpLen ++ [0, 0] ++ payload)

/-- A datagram of no bytes at all is taken for one with ports; bytes behind the
datagram are taken for its payload. -/
theorem lengths_disagree :
    (∃ udp, parseIpv6Udp (withLengths 0 8 []) = some udp ∧ ¬ InBounds (withLengths 0 8 []) udp) ∧
    ∃ udp, parseIpv6Udp (withLengths 12 8 [1, 2, 3, 4]) = some udp ∧ udp.payload = [1, 2, 3, 4] ∧
      ¬ InBounds (withLengths 12 8 [1, 2, 3, 4]) udp := by
  refine ⟨⟨⟨host, host, 40000, 53, []⟩, by decide +kernel, fun h => ?_⟩,
    ⟨⟨host, host, 40000, 53, [1, 2, 3, 4]⟩, by decide +kernel, rfl, fun h => ?_⟩⟩
  · exact absurd h.header (by decide +kernel)
  · exact absurd h.payload (by decide +kernel)

theorem sound_lengths_in_bounds :
    InBounds (withLengths 12 12 [1, 2, 3, 4]) ⟨host, host, 40000, 53, [1, 2, 3, 4]⟩ :=
  (parse_in_bounds_iff (withLengths 12 12 [1, 2, 3, 4])).mpr
    (fun _ => ⟨by decide +kernel, by decide +kernel⟩) _ (by decide +kernel)

theorem padded_datagram_round_trip :
    parseIpv6Udp (buildUdpPacket host host 40000 53 [1, 2, 3] 64 ++ [0, 0, 0]) =
      some ⟨host, host, 40000, 53, [1, 2, 3]⟩ :=
  udp_round_trip.1 host host 40000 53 [1, 2, 3] 64 [0, 0, 0] (by decide)

end DnsAnnounce.UdpCodec
