import DnsAnnounce.Effect
import DnsAnnounce.Packet
import DnsAnnounce.SimpleDns

namespace DnsAnnounce.DnsServer

open DnsAnnounce.Utf8 DnsAnnounce.Address DnsAnnounce.Effect DnsAnnounce.Packet DnsAnnounce.SimpleDns

def dnsPort : UInt16 := 53

def answerTtl : UInt32 := 60

inductive RecordKind
  | A
  | Aaaa
  | Other
  deriving DecidableEq

structure Query where
  name : Text
  kind : RecordKind
  deriving DecidableEq

def RecordKind.fromQtype : QTYPE → RecordKind
  | .TYPE .A => .A
  | .TYPE .AAAA => .Aaaa
  | _ => .Other

inductive Answer
  | Addrs (addrs : List IpAddr)

inductive Reply
  | Answer (answer : Answer)
  | NxDomain
  | NotMine

abbrev ResolverProg (α : Type) := Prog Query (fun _ => Reply) α

/-- A resolver keeps a state of its own behind `&self`. -/
abbrev Resolver (S : Type) := Handler Query (fun _ => Reply) S

def resolve (query : Query) : ResolverProg Reply := .perform query

structure DnsConfig where
  serverAddr : Ipv6Addr

def toAsciiLowercase (t : Text) : Text := t.map Char.toLower

variable {Name Header Data S : Type} (D : SimpleDns Name Header Data)

def queryOf (question : Question Name) : Query :=
  ⟨toAsciiLowercase (D.display question.qname), .fromQtype question.qtype⟩

def startReply (packet : Packet Name Header Data) (question : Question Name) :
    Packet Name Header Data :=
  let reply := D.newReply (D.id packet.header)
  let reply := if D.hasFlags packet.header .RECURSION_DESIRED then
      { reply with header := D.setFlags reply.header .RECURSION_DESIRED }
    else reply
  let reply := { reply with header := D.setFlags reply.header .RECURSION_AVAILABLE }
  { reply with questions := reply.questions ++ [question] }

def pushAddr (question : Question Name) (reply : Packet Name Header Data) (addr : IpAddr) :
    Packet Name Header Data :=
  let push (rdata : RData Data) : Packet Name Header Data :=
    { reply with answers := reply.answers ++ [.new question.qname .IN answerTtl rdata] }
  match RecordKind.fromQtype question.qtype, addr with
  | .A, .V4 v4 => push (.A v4)
  | .Aaaa, .V6 v6 => push (.AAAA v6)
  | _, _ => reply

def finishReply (question : Question Name) (reply : Packet Name Header Data) :
    Reply → Packet Name Header Data
  | .NotMine => { reply with header := D.setRcode reply.header .Refused }
  | .NxDomain => { reply with header := D.setRcode reply.header .NameError }
  | .Answer (.Addrs addrs) => addrs.foldl (pushAddr question) reply

def replyTo (packet : Packet Name Header Data) (question : Question Name) (verdict : Reply) :
    Packet Name Header Data :=
  finishReply D question (startReply D packet question) verdict

def handlePacket (cfg : DnsConfig) (pkt : Bytes) : ResolverProg (Option Bytes) :=
  match parseIpv6Udp pkt with
  | none => .ret none
  | some udp =>
    if udp.dstIp ≠ cfg.serverAddr ∨ udp.dstPort ≠ dnsPort then .ret none
    else match D.parse udp.payload with
      | none => .ret none
      | some packet => match packet.questions.head? with
        | none => .ret none
        | some question =>
          (resolve (queryOf D question)).bind fun verdict =>
            .ret ((D.buildBytesVecCompressed (replyTo D packet question verdict)).map fun dnsPayload =>
              buildUdpPacket udp.dstIp udp.srcIp dnsPort udp.srcPort dnsPayload 64)

/-- The packet is a DNS query to the server, and this is its first question. -/
structure Asks (cfg : DnsConfig) (pkt : Bytes) (udp : UdpV6) (message : Packet Name Header Data)
    (question : Question Name) : Prop where
  datagram : parseIpv6Udp pkt = some udp
  addressed : udp.dstIp = cfg.serverAddr
  port : udp.dstPort = dnsPort
  parsed : D.parse udp.payload = some message
  first : message.questions.head? = some question

/-- The records an answer holds: the addresses of the family asked for. -/
def recordsFor (question : Question Name) (addrs : List IpAddr) : List (ResourceRecord Name Data) :=
  let rdata : List (RData Data) := match question.qtype with
    | .TYPE .A => addrs.filterMap fun | .V4 v4 => some (.A v4) | .V6 _ => none
    | .TYPE .AAAA => addrs.filterMap fun | .V6 v6 => some (.AAAA v6) | .V4 _ => none
    | _ => []
  rdata.map (.new question.qname .IN answerTtl)

def rcodeFor : Reply → RCODE
  | .NotMine => .Refused
  | .NxDomain => .NameError
  | .Answer _ => .NoError

def answersFor (question : Question Name) : Reply → List (ResourceRecord Name Data)
  | .Answer (.Addrs addrs) => recordsFor question addrs
  | _ => []

/-- What the message that answers a query says. -/
structure Replies (message : Packet Name Header Data) (question : Question Name) (verdict : Reply)
    (reply : Packet Name Header Data) : Prop where
  id : D.id reply.header = D.id message.header
  response : D.hasFlags reply.header .RESPONSE = true
  available : D.hasFlags reply.header .RECURSION_AVAILABLE = true
  desired : D.hasFlags reply.header .RECURSION_DESIRED = D.hasFlags message.header .RECURSION_DESIRED
  questions : reply.questions = [question]
  rcode : D.rcode reply.header = rcodeFor verdict
  answers : reply.answers = answersFor question verdict

/-- The packet that carries the reply back to the client. -/
structure Carries (cfg : DnsConfig) (inbound : UdpV6) (reply : Packet Name Header Data) (pkt : Bytes)
    (outbound : UdpV6) : Prop where
  datagram : parseIpv6Udp pkt = some outbound
  source : outbound.srcIp = cfg.serverAddr ∧ outbound.srcPort = dnsPort
  destination : outbound.dstIp = inbound.srcIp ∧ outbound.dstPort = inbound.srcPort
  checksum : Verifies outbound.srcIp outbound.dstIp udpNextHeader (pkt.drop ipv6HeaderLen)
  checksum_ne_zero : fromBeBytes (pkt.getD (ipv6HeaderLen + 6) 0) (pkt.getD (ipv6HeaderLen + 7) 0) ≠ 0
  parsed : D.parse outbound.payload = some reply

variable {D}

theorem handlePacket_asks {cfg : DnsConfig} {pkt : Bytes} {udp : UdpV6}
    {message : Packet Name Header Data} {question : Question Name}
    (h : Asks D cfg pkt udp message question) :
    handlePacket D cfg pkt = (resolve (queryOf D question)).bind fun verdict =>
      .ret ((D.buildBytesVecCompressed (replyTo D message question verdict)).map fun dnsPayload =>
        buildUdpPacket cfg.serverAddr udp.srcIp dnsPort udp.srcPort dnsPayload 64) := by
  have hgate : ¬ (udp.dstIp ≠ cfg.serverAddr ∨ udp.dstPort ≠ dnsPort) := by
    rw [h.addressed, h.port]
    simp
  rw [handlePacket]
  simp only [h.datagram, h.parsed, h.first]
  rw [if_neg hgate, h.addressed]

theorem handlePacket_silent {cfg : DnsConfig} {pkt : Bytes}
    (h : ¬ ∃ udp message question, Asks D cfg pkt udp message question) :
    handlePacket D cfg pkt = .ret none := by
  rw [handlePacket]
  split
  · rfl
  · rename_i udp hudp
    split_ifs with hgate
    · rfl
    · rw [not_or, not_not, not_not] at hgate
      split
      · rfl
      · rename_i message hmessage
        split
        · rfl
        · rename_i question hquestion
          exact absurd ⟨udp, message, question, hudp, hgate.1, hgate.2, hmessage, hquestion⟩ h

theorem hasFlags_setFlags_eq (hD : D.Lawful) {h : Header} {f g : PacketFlag} (hne : g ≠ f) :
    D.hasFlags (D.setFlags h f) g = D.hasFlags h g := by
  rw [Bool.eq_iff_iff, hD.hasFlags_setFlags]
  exact or_iff_right hne

section Reply

variable (message : Packet Name Header Data) (question : Question Name)

theorem startReply_eq (hD : D.Lawful) :
    startReply D message question =
      ⟨(startReply D message question).header, [question], [], [], []⟩ := by
  rw [startReply]
  rw [hD.newReply_sections]
  dsimp only
  split_ifs <;> rfl

theorem id_startReply (hD : D.Lawful) :
    D.id (startReply D message question).header = D.id message.header := by
  dsimp only [startReply]
  rw [hD.id_setFlags]
  split_ifs
  · rw [hD.id_setFlags, hD.id_newReply]
  · exact hD.id_newReply _

theorem rcode_startReply (hD : D.Lawful) :
    D.rcode (startReply D message question).header = .NoError := by
  dsimp only [startReply]
  rw [hD.rcode_setFlags]
  split_ifs
  · rw [hD.rcode_setFlags, hD.rcode_newReply]
  · exact hD.rcode_newReply _

theorem response_startReply (hD : D.Lawful) :
    D.hasFlags (startReply D message question).header .RESPONSE = true := by
  dsimp only [startReply]
  rw [hasFlags_setFlags_eq hD (by decide)]
  split_ifs
  · rw [hasFlags_setFlags_eq hD (by decide), hD.hasFlags_newReply]
  · exact (hD.hasFlags_newReply _ _).mpr rfl

theorem available_startReply (hD : D.Lawful) :
    D.hasFlags (startReply D message question).header .RECURSION_AVAILABLE = true := by
  rw [startReply]
  exact (hD.hasFlags_setFlags _ _ _).mpr (.inl rfl)

theorem desired_startReply (hD : D.Lawful) :
    D.hasFlags (startReply D message question).header .RECURSION_DESIRED =
      D.hasFlags message.header .RECURSION_DESIRED := by
  dsimp only [startReply]
  rw [hasFlags_setFlags_eq hD (by decide)]
  split_ifs with hrd
  · rw [hrd]
    exact (hD.hasFlags_setFlags _ _ _).mpr (.inl rfl)
  · rw [Bool.eq_iff_iff, hD.hasFlags_newReply]
    simp [hrd]

theorem recordsFor_cons (addr : IpAddr) (addrs : List IpAddr) :
    (recordsFor question (addr :: addrs) : List (ResourceRecord Name Data)) =
      recordsFor question [addr] ++ recordsFor question addrs := by
  simp only [recordsFor]
  split <;> cases addr <;> rfl

theorem pushAddr_eq (reply : Packet Name Header Data) (addr : IpAddr) :
    pushAddr question reply addr =
      { reply with answers := reply.answers ++ recordsFor question [addr] } := by
  unfold pushAddr recordsFor RecordKind.fromQtype
  rcases question.qtype with (_ | _ | _) | _ | _ | _ | _ | _ <;> cases addr <;> simp

theorem foldl_pushAddr (reply : Packet Name Header Data) (addrs : List IpAddr) :
    addrs.foldl (pushAddr question) reply =
      { reply with answers := reply.answers ++ recordsFor question addrs } := by
  induction addrs generalizing reply with
  | nil =>
    have hnil : (recordsFor question [] : List (ResourceRecord Name Data)) = [] := by
      rw [recordsFor]
      split <;> rfl
    rw [hnil, List.append_nil, List.foldl_nil]
  | cons addr addrs ih =>
    rw [List.foldl_cons, ih, pushAddr_eq, recordsFor_cons question addr addrs, List.append_assoc]

theorem replies_replyTo (hD : D.Lawful) (verdict : Reply) :
    Replies D message question verdict (replyTo D message question verdict) := by
  have hstart := startReply_eq message question hD
  have hid := id_startReply message question hD
  have hresponse := response_startReply message question hD
  have havailable := available_startReply message question hD
  have hdesired := desired_startReply message question hD
  obtain ⟨⟨addrs⟩⟩ | _ | _ := verdict
  · have hrcode := rcode_startReply message question hD
    rw [replyTo, finishReply, foldl_pushAddr]
    rw [hstart] at hid hresponse havailable hdesired hrcode ⊢
    exact ⟨hid, hresponse, havailable, hdesired, rfl, hrcode, rfl⟩
  all_goals
    rw [replyTo, finishReply]
    rw [hstart] at hid hresponse havailable hdesired ⊢
    exact ⟨(hD.id_setRcode ..).trans hid, (hD.hasFlags_setRcode ..).trans hresponse,
      (hD.hasFlags_setRcode ..).trans havailable, (hD.hasFlags_setRcode ..).trans hdesired, rfl,
      hD.rcode_setRcode .., rfl⟩

end Reply

theorem carries_buildUdpPacket (cfg : DnsConfig) (inbound : UdpV6) {reply : Packet Name Header Data}
    {payload : Bytes} (hparse : D.parse payload = some reply) (hlen : payload.length ≤ 65527) :
    ∃ outbound, Carries D cfg inbound reply
      (buildUdpPacket cfg.serverAddr inbound.srcIp dnsPort inbound.srcPort payload 64) outbound := by
  obtain ⟨received, hdatagram, hreceived⟩ :=
    parseIpv6Udp_buildUdpPacket cfg.serverAddr inbound.srcIp dnsPort inbound.srcPort payload 64
  obtain ⟨csum, hne, hbuild, hverifies⟩ :=
    buildUdpPacket_eq cfg.serverAddr inbound.srcIp dnsPort inbound.srcPort payload 64
  refine ⟨_, hdatagram, ⟨rfl, rfl⟩, ⟨rfl, rfl⟩, ?_, ?_, ?_⟩
  · rw [hbuild, drop_header]
    exact hverifies hlen
  · rw [hbuild, getD_header_append, getD_header_append, csum_datagram]
    exact hne
  · rw [hreceived hlen]
    exact hparse

theorem exec_handlePacket {cfg : DnsConfig} {pkt : Bytes} {udp : UdpV6}
    {message : Packet Name Header Data} {question : Question Name}
    (ha : Asks D cfg pkt udp message question) (h : Resolver S) (s : S) :
    (exec h (handlePacket D cfg pkt) s).1 =
      (D.buildBytesVecCompressed (replyTo D message question (h (queryOf D question) s).1)).map
        fun dnsPayload => buildUdpPacket cfg.serverAddr udp.srcIp dnsPort udp.srcPort dnsPayload 64 := by
  rw [handlePacket_asks ha, exec_bind]
  rfl

section Sample

def server : Ipv6Addr := ⟨[0xfd, 0, 0, 0, 0, 0, 0, 0, 0, 0, 0, 0, 0, 0, 0, 1], rfl⟩

def peer : Ipv6Addr := ⟨[0xfd, 0, 0, 0, 0, 0, 0, 0, 0, 0, 0, 0, 0, 0, 0, 2], rfl⟩

def foo : Question Text := ⟨"Foo.myvpn".toList, .TYPE .A, .CLASS .IN, false⟩

def question : Bytes :=
  [3, 0x46, 0x6f, 0x6f, 5, 0x6d, 0x79, 0x76, 0x70, 0x6e, 0, 0, 1, 0, 1]

def asking : Packet Text PlainHeader Empty :=
  ⟨⟨0x1234, [.RECURSION_DESIRED], .NoError⟩, [foo], [], [], []⟩

def refusing : Packet Text PlainHeader Empty :=
  ⟨⟨0x1234, [.RECURSION_AVAILABLE, .RECURSION_DESIRED, .RESPONSE], .Refused⟩, [foo], [], [], []⟩

def answering : Packet Text PlainHeader Empty :=
  ⟨⟨0x1234, [.RECURSION_AVAILABLE, .RECURSION_DESIRED, .RESPONSE], .NoError⟩, [foo],
    [.new foo.qname .IN 60 (.A ⟨[10, 1, 2, 3], rfl⟩)], [], []⟩

def askingBytes : Bytes := [0x12, 0x34, 1, 0, 0, 1, 0, 0, 0, 0, 0, 0] ++ question

def refusingBytes : Bytes := [0x12, 0x34, 0x81, 0x85, 0, 1, 0, 0, 0, 0, 0, 0] ++ question

def answeringBytes : Bytes :=
  [0x12, 0x34, 0x81, 0x80, 0, 1, 0, 1, 0, 0, 0, 0] ++ question ++
    [0xc0, 0x0c, 0, 1, 0, 1, 0, 0, 0, 60, 0, 4, 10, 1, 2, 3]

def simpleDns : SimpleDns Text PlainHeader Empty :=
  ofTable [(asking, askingBytes), (refusing, refusingBytes), (answering, answeringBytes)]

theorem simpleDns_lawful : simpleDns.Lawful := ofTable_lawful (by decide +kernel)

def queryFrom (src : Ipv6Addr) (srcPort : UInt16) : Bytes :=
  buildUdpPacket src server srcPort dnsPort askingBytes 64

theorem asks_queryFrom (src : Ipv6Addr) (srcPort : UInt16) :
    ∃ udp, Asks simpleDns ⟨server⟩ (queryFrom src srcPort) udp asking foo ∧
      udp.srcIp = src ∧ udp.srcPort = srcPort := by
  obtain ⟨received, hdatagram, hreceived⟩ :=
    parseIpv6Udp_buildUdpPacket src server srcPort dnsPort askingBytes 64
  have hparse : simpleDns.parse askingBytes = some asking := by decide +kernel
  refine ⟨_, ⟨hdatagram, rfl, rfl, ?_, rfl⟩, rfl, rfl⟩
  rwa [hreceived (by decide)]

end Sample

def onlyHost : Resolver Unit := fun _ s => (.Answer (.Addrs [.V4 ⟨[10, 1, 2, 3], rfl⟩]), s)

end DnsAnnounce.DnsServer
