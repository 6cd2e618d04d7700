import DnsAnnounce.DnsServer
import DnsAnnounce.RouterAdvert

namespace DnsAnnounce.Stack

open DnsAnnounce.Utf8 DnsAnnounce.Address DnsAnnounce.Effect DnsAnnounce.Packet DnsAnnounce.SimpleDns
open DnsAnnounce.DnsServer DnsAnnounce.RouterAdvert

structure DnsStack where
  raCfg : RaConfig
  dnsCfg : DnsConfig

variable {Name Header Data S : Type} (D : SimpleDns Name Header Data)

/-- What the beacon sends, over and over. -/
def unsolicited (stack : DnsStack) : Bytes := buildRouterAdvertisement stack.raCfg allNodesMulticast

/-- One round of `dispatch_loop`: what goes out for one packet that came in. -/
def dispatch (stack : DnsStack) (pkt : Bytes) : ResolverProg (Option Bytes) :=
  if isRouterSolicitation pkt then
    .ret ((solicitationSrc pkt).map (buildRouterAdvertisement stack.raCfg))
  else handlePacket D stack.dnsCfg pkt

variable {D}

theorem dispatch_solicitation (stack : DnsStack) {pkt : Bytes} (h : isRouterSolicitation pkt = true) :
    dispatch D stack pkt =
      .ret ((ipv6OfSlice (slice pkt 8 24)).map (buildRouterAdvertisement stack.raCfg)) := by
  rw [dispatch, if_pos h, solicitationSrc_eq h]

theorem dispatch_advertisement (stack : DnsStack) (cfg : RaConfig) (dst : Ipv6Addr) :
    dispatch D stack (buildRouterAdvertisement cfg dst) = .ret none := by
  rw [dispatch, isRouterSolicitation_advertisement]
  apply handlePacket_silent
  rintro ⟨udp, message, question, hasks⟩
  have hdatagram := hasks.datagram
  rw [parseIpv6Udp_advertisement] at hdatagram
  contradiction

theorem dispatch_asks {stack : DnsStack} {pkt : Bytes} {udp : UdpV6}
    {message : Packet Name Header Data} {question : Question Name}
    (h : Asks D stack.dnsCfg pkt udp message question) :
    dispatch D stack pkt = handlePacket D stack.dnsCfg pkt := by
  rw [dispatch, isRouterSolicitation_of_parse h.datagram]
  rfl

theorem dispatch_cases {stack : DnsStack} {pkt p : Bytes} {h : Resolver S} {s : S}
    (hp : (exec h (dispatch D stack pkt) s).1 = some p) :
    (∃ dst, p = buildRouterAdvertisement stack.raCfg dst) ∨
      ∃ udp message question payload, Asks D stack.dnsCfg pkt udp message question ∧
        D.buildBytesVecCompressed (replyTo D message question (h (queryOf D question) s).1) = some payload ∧
        p = buildUdpPacket stack.dnsCfg.serverAddr udp.srcIp dnsPort udp.srcPort payload 64 := by
  by_cases hasks : ∃ udp message question, Asks D stack.dnsCfg pkt udp message question
  · obtain ⟨udp, message, question, hasks⟩ := hasks
    rw [dispatch_asks hasks, exec_handlePacket hasks] at hp
    obtain ⟨payload, hpayload, rfl⟩ := Option.map_eq_some_iff.mp hp
    exact .inr ⟨udp, message, question, payload, hasks, hpayload, rfl⟩
  · rw [dispatch, handlePacket_silent hasks] at hp
    split_ifs at hp
    · obtain ⟨dst, -, rfl⟩ := Option.map_eq_some_iff.mp hp
      exact .inl ⟨dst, rfl⟩
    · contradiction

theorem dispatch_reply {stack : DnsStack} {src dst : Ipv6Addr} {port : UInt16} {payload : Bytes}
    (h : ¬ (dst = stack.dnsCfg.serverAddr ∧ port = dnsPort)) :
    dispatch D stack (buildUdpPacket src dst dnsPort port payload 64) = .ret none := by
  obtain ⟨received, hparse, -⟩ := parseIpv6Udp_buildUdpPacket src dst dnsPort port payload 64
  rw [dispatch, isRouterSolicitation_of_parse hparse]
  apply handlePacket_silent
  rintro ⟨udp, message, question, hasks⟩
  have hudp := Option.some.inj (hasks.datagram.symm.trans hparse)
  have haddressed := hasks.addressed
  have hport := hasks.port
  rw [hudp] at haddressed hport
  exact h ⟨haddressed, hport⟩

end DnsAnnounce.Stack
