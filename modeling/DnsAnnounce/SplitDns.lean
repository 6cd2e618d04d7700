import DnsAnnounce.Progress
import DnsAnnounce.Reflection
import DnsAnnounce.RouteConfig
import DnsAnnounce.SuffixMatch

namespace DnsAnnounce.SplitDns

open DnsAnnounce.Utf8 DnsAnnounce.Address DnsAnnounce.Effect DnsAnnounce.Runs DnsAnnounce.Packet
open DnsAnnounce.SimpleDns DnsAnnounce.DnsServer DnsAnnounce.SuffixMatch DnsAnnounce.Stack DnsAnnounce.Spawn
open DnsAnnounce.Progress
open DnsAnnounce.Reflection (stackAt)

/-- A resolver that serves a single suffix: what is outside of it is not its own. -/
def oneSuffix (suffix : Text) (map : Text → Option IpAddr) (query : Query) : Reply :=
  if !matchesSuffix query.name suffix then .NotMine
  else match map query.name with
    | some addr => .Answer (.Addrs [addr])
    | none => .NxDomain

/-- The resolver of the example, with the map as what it holds for a name. -/
structure StaticResolver where
  map : Text → Option IpAddr

def StaticResolver.resolve (self : StaticResolver) : Query → Reply := oneSuffix "myvpn".toList self.map

/-- The family of addresses that a question asks for. -/
def wants : QTYPE → IpAddr → Bool
  | .TYPE .A, .V4 _ => true
  | .TYPE .AAAA, .V6 _ => true
  | _, _ => false

/-- What split DNS is to say about a name: its addresses or that there is no such
name, if it is below the suffix, and that others are to be asked if it is not. -/
def zone (suffix : Text) (map : Text → Option IpAddr) (name : Text) (qtype : QTYPE) : RCODE × List IpAddr :=
  if labels suffix <:+ labels name then
    match map (toAsciiLowercase name) with
    | some addr => (.NoError, [addr].filter (wants qtype))
    | none => (.NameError, [])
  else (.Refused, [])

def addressOf {Name Data : Type} (record : ResourceRecord Name Data) : Option IpAddr :=
  match record.rdata with
  | .A v4 => some (.V4 v4)
  | .AAAA v6 => some (.V6 v6)
  | .Other _ => none

variable {Name Header Data : Type} (D : SimpleDns Name Header Data)

/-- What a client makes of the packet that it gets for an answer. -/
def readReply (pkt : Bytes) : Option (RCODE × List IpAddr) :=
  match parseIpv6Udp pkt with
  | none => none
  | some udp => (D.parse udp.payload).map fun reply =>
    (D.rcode reply.header, reply.answers.filterMap addressOf)

variable {D}

section Zone

theorem toAsciiLowercase_idem (t : Text) : toAsciiLowercase (toAsciiLowercase t) = toAsciiLowercase t := by
  rw [toAsciiLowercase, toAsciiLowercase, List.map_map]
  exact List.map_congr_left fun c _ => RouteConfig.toLower_toLower c

theorem matchesSuffix_lowercase (name suffix : Text) :
    matchesSuffix (toAsciiLowercase name) suffix = true ↔ labels suffix <:+ labels name := by
  rw [matchesSuffix_iff, labels_congr (toAsciiLowercase_idem name)]

theorem addresses_recordsFor (question : Question Name) (addrs : List IpAddr) :
    (recordsFor question addrs : List (ResourceRecord Name Data)).filterMap addressOf =
      addrs.filter (wants question.qtype) := by
  induction addrs with
  | nil =>
    rw [recordsFor]
    split <;> rfl
  | cons addr addrs ih =>
    rw [recordsFor_cons, List.filterMap_append, ih, List.filter_cons]
    rw [recordsFor]
    rcases question.qtype with (_ | _ | _) | _ | _ | _ | _ | _ <;> cases addr <;> rfl

theorem oneSuffix_zone (suffix : Text) (map : Text → Option IpAddr) (question : Question Name) :
    (rcodeFor (oneSuffix suffix map (queryOf D question)),
      (answersFor question (oneSuffix suffix map (queryOf D question)) :
        List (ResourceRecord Name Data)).filterMap addressOf) =
      zone suffix map (D.display question.qname) question.qtype := by
  have hmatch := matchesSuffix_lowercase (D.display question.qname) suffix
  rw [oneSuffix, zone, queryOf]
  by_cases hsuffix : labels suffix <:+ labels (D.display question.qname)
  · rw [if_pos hsuffix, hmatch.mpr hsuffix]
    cases map (toAsciiLowercase (D.display question.qname)) with
    | none => rfl
    | some addr => exact congrArg (RCODE.NoError, ·) (addresses_recordsFor question [addr])
  · rw [if_neg hsuffix, Bool.eq_false_iff.mpr (mt hmatch.mp hsuffix)]
    rfl

end Zone

theorem readReply_carries {cfg : DnsConfig} {inbound outbound : UdpV6} {reply : Packet Name Header Data}
    {pkt : Bytes} (h : Carries D cfg inbound reply pkt outbound) :
    readReply D pkt = some (D.rcode reply.header, reply.answers.filterMap addressOf) := by
  rw [readReply, h.datagram]
  dsimp only
  rw [h.parsed, Option.map_some]

section Served

variable {stack : DnsStack} {capacity : Nat} {resolve : Query → Reply} {w : World}

theorem reply_of_asks {s : Served} (hs : Resumes (dispatch D stack s.pkt) s.asked (.ret s.reply))
    (hasked : ∀ told ∈ s.asked, told.2 = resolve told.1) {udp : UdpV6} {message : Packet Name Header Data}
    {question : Question Name} (ha : Asks D stack.dnsCfg s.pkt udp message question) :
    s.reply = (D.buildBytesVecCompressed (replyTo D message question (resolve (queryOf D question)))).map
      fun payload => buildUdpPacket stack.dnsCfg.serverAddr udp.srcIp dnsPort udp.srcPort payload 64 := by
  have hexec : exec (fun query s => (resolve query, s)) (dispatch D stack s.pkt) () = (s.reply, ()) :=
    hs.exec_eq hasked ()
  rw [dispatch_asks ha] at hexec
  rw [← exec_handlePacket ha (fun query s => (resolve query, s)) (), hexec]

/-- The answer to a query, as it gets back to the client that asked. -/
structure Answered (D : SimpleDns Name Header Data) (cfg : DnsConfig) (udp : UdpV6)
    (message : Packet Name Header Data) (question : Question Name) (content : RCODE × List IpAddr)
    (p : Bytes) : Prop where
  read : readReply D p = some content
  carried : ∃ reply outbound, Carries D cfg udp reply p outbound ∧
    D.id reply.header = D.id message.header ∧ reply.questions = [question]

theorem answered_of_asks (hD : D.Lawful) (cfg : DnsConfig) (udp : UdpV6) (message : Packet Name Header Data)
    (question : Question Name) (verdict : Reply) {payload : Bytes}
    (hpayload : D.buildBytesVecCompressed (replyTo D message question verdict) = some payload)
    (hlen : payload.length ≤ 65527) :
    Answered D cfg udp message question
      (rcodeFor verdict, (answersFor question verdict : List (ResourceRecord Name Data)).filterMap addressOf)
      (buildUdpPacket cfg.serverAddr udp.srcIp dnsPort udp.srcPort payload 64) := by
  have hreplies := replies_replyTo message question hD verdict
  obtain ⟨outbound, hcarries⟩ := carries_buildUdpPacket cfg udp (hD.parse_build _ payload hpayload) hlen
  refine ⟨?_, _, outbound, hcarries, hreplies.id, hreplies.questions⟩
  rw [readReply_carries hcarries, hreplies.rcode, hreplies.answers]

end Served

/-- Split DNS from end to end: once the stack is at rest, every query that came in
has been answered to the client that sent it, with what there is below the suffix
and a refusal for every other name. -/
theorem queries_answered (hD : D.Lawful) {stack : DnsStack} {capacity : Nat} (hcapacity : 0 < capacity)
    (suffix : Text) (map : Text → Option IpAddr) {events more : List Event} {w w' : World}
    (h : guardedRun (step D stack capacity) spawned events = some w)
    (hmore : guardedRun (step D stack capacity) w more = some w') (hinner : ∀ e ∈ more, Inner e)
    (hquiet : Quiet D stack capacity w') (halive : w.alive = true)
    (hconsulted : Consulted (oneSuffix suffix map) w') {pkt : Bytes} (hpkt : pkt ∈ arrivals events)
    {udp : UdpV6} {message : Packet Name Header Data} {question : Question Name}
    (ha : Asks D stack.dnsCfg pkt udp message question) {payload : Bytes}
    (hpayload : D.buildBytesVecCompressed
      (replyTo D message question (oneSuffix suffix map (queryOf D question))) = some payload)
    (hlen : payload.length ≤ 65527) :
    ∃ p ∈ w'.delivered, Answered D stack.dnsCfg udp message question
      (zone suffix map (D.display question.qname) question.qtype) p := by
  have hi := inv_run (guardedRun_append h hmore)
  have hrest := atRest_of_quiet hcapacity h hmore hinner hquiet
  rw [← alive_inner hmore hinner] at halive
  rw [← hrest.served halive] at hpkt
  obtain ⟨s, hs, rfl⟩ := List.mem_map.mp hpkt
  have hreply := reply_of_asks (hi.faithful.served s hs) (hconsulted.served s hs) ha
  rw [hpayload, Option.map_some] at hreply
  refine ⟨_, delivered_of_served hi hrest.delivered hs hreply, ?_⟩
  rw [← oneSuffix_zone]
  exact answered_of_asks hD stack.dnsCfg udp message question _ hpayload hlen

def registry (addr : Ipv4Addr) : StaticResolver where
  map name := if name = "foo.myvpn".toList then some (.V4 addr) else none

theorem foo_resolved :
    ∃ more w w' p,
      guardedRun (step simpleDns (stackAt server) 1) spawned [.arrive (queryFrom peer 40000)] = some w ∧
      guardedRun (step simpleDns (stackAt server) 1) w more = some w' ∧ p ∈ w'.delivered ∧
      readReply simpleDns p = some (.NoError, [.V4 ⟨[10, 1, 2, 3], rfl⟩]) := by
  obtain ⟨udp, hasks, -, -⟩ := asks_queryFrom peer 40000
  have harrive : guardedRun (step simpleDns (stackAt server) 1) spawned [.arrive (queryFrom peer 40000)] =
      some { spawned with incoming := [queryFrom peer 40000], arrived := [queryFrom peer 40000] } := by
    simp [guardedRun_cons, step, spawned, Dispatcher.listens]
  obtain ⟨more, w', hinner, hmore, hquiet, hconsulted⟩ :=
    exists_quiet (inv_run harrive).faithful
      (consulted_of_fresh (registry ⟨[10, 1, 2, 3], rfl⟩).resolve rfl rfl)
  have hreply : replyTo simpleDns asking foo
      ((registry ⟨[10, 1, 2, 3], rfl⟩).resolve (queryOf simpleDns foo)) = answering := by
    decide +kernel
  have hbytes : simpleDns.buildBytesVecCompressed answering = some answeringBytes := by decide +kernel
  obtain ⟨p, hp, hanswered⟩ := queries_answered simpleDns_lawful Nat.one_pos "myvpn".toList
    (registry ⟨[10, 1, 2, 3], rfl⟩).map harrive hmore hinner hquiet rfl hconsulted List.mem_cons_self hasks
    ((congrArg _ hreply).trans hbytes) (by decide)
  refine ⟨more, _, w', p, harrive, hmore, hp, hanswered.read.trans ?_⟩
  decide +kernel

end DnsAnnounce.SplitDns
