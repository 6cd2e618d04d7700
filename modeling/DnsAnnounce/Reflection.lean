import DnsAnnounce.Stack

namespace DnsAnnounce.Reflection

open DnsAnnounce.Utf8 DnsAnnounce.Address DnsAnnounce.Effect DnsAnnounce.Packet DnsAnnounce.SimpleDns
open DnsAnnounce.DnsServer DnsAnnounce.RouterAdvert DnsAnnounce.Stack

variable {Name Header Data S : Type} (D : SimpleDns Name Header Data)

/-- A stack at one end of a link, with the resolver it was given. -/
structure Party (S : Type) where
  stack : DnsStack
  resolver : Resolver S

/-- The packets that at most `n` deliveries bring forth, when whatever one party
sends is delivered to the other. -/
def exchange : Nat → Party S → Party S → Bytes → S → List Bytes
  | 0, _, _, _, _ => []
  | n + 1, here, there, pkt, s =>
    match exec here.resolver (dispatch D here.stack pkt) s with
    | (none, _) => []
    | (some p, s) => p :: exchange n there here p s

/-- The packet is a query to `here` that names the server `there` as its source. -/
def Reflects (here there : DnsStack) (pkt : Bytes) : Prop :=
  ∃ udp message question, Asks D here.dnsCfg pkt udp message question ∧
    udp.srcIp = there.dnsCfg.serverAddr ∧ udp.srcPort = dnsPort

/-- The crate serialises a reply that holds only a question it has parsed, in no
more than a DNS message over UDP has room for. -/
def QuestionsFit : Prop :=
  ∀ bytes message question, D.parse bytes = some message → message.questions.head? = some question →
    ∃ payload, D.buildBytesVecCompressed (replyTo D message question .NotMine) = some payload ∧
      payload.length ≤ 512

variable {D}

theorem dispatch_silent {here there : DnsStack} {pkt p : Bytes} (hr : ¬ Reflects D here there pkt)
    {h : Resolver S} {s : S} (hp : (exec h (dispatch D here pkt) s).1 = some p) :
    dispatch D there p = .ret none := by
  obtain ⟨dst, rfl⟩ | ⟨udp, message, question, payload, hasks, -, rfl⟩ := dispatch_cases hp
  · exact dispatch_advertisement there here.raCfg dst
  · exact dispatch_reply fun hto => hr ⟨udp, message, question, hasks, hto⟩

def refuse : Resolver Unit := fun _ s => (.NotMine, s)

theorem replyTo_replyTo (hD : D.Lawful) (message : Packet Name Header Data) (question : Question Name)
    (verdict verdict' : Reply) :
    replyTo D (replyTo D message question verdict) question verdict' =
      replyTo D message question verdict' := by
  have hreplies := replies_replyTo message question hD verdict
  have hstart : startReply D (replyTo D message question verdict) question =
      startReply D message question := by
    rw [startReply, hreplies.id, hreplies.desired]
    rfl
  rw [replyTo, hstart]
  rfl

section Reflected

variable {here there : DnsStack} {pkt : Bytes} {udp : UdpV6} {message : Packet Name Header Data}
  {question : Question Name} {payload : Bytes}

/-- A refusal that goes to another server's DNS port is a query to that server. -/
theorem refusal_asks (hD : D.Lawful) (hasks : Asks D here.dnsCfg pkt udp message question)
    (hsrc : udp.srcIp = there.dnsCfg.serverAddr) (hport : udp.srcPort = dnsPort)
    (hbuild : D.buildBytesVecCompressed (replyTo D message question .NotMine) = some payload)
    (hlen : payload.length ≤ 65527) :
    ∃ p outbound, exec refuse (dispatch D here pkt) () = (some p, ()) ∧
      Asks D there.dnsCfg p outbound (replyTo D message question .NotMine) question ∧
      outbound.srcIp = here.dnsCfg.serverAddr ∧ outbound.srcPort = dnsPort := by
  have hexec : exec refuse (dispatch D here pkt) () =
      (some (buildUdpPacket here.dnsCfg.serverAddr udp.srcIp dnsPort udp.srcPort payload 64), ()) := by
    rw [dispatch_asks hasks]
    refine Prod.ext ?_ rfl
    refine (exec_handlePacket hasks refuse ()).trans ?_
    rw [refuse, hbuild]
    rfl
  obtain ⟨outbound, hcarries⟩ := carries_buildUdpPacket here.dnsCfg udp (hD.parse_build _ _ hbuild) hlen
  have hreplies := replies_replyTo message question hD .NotMine
  refine ⟨_, outbound, hexec, ?_, hcarries.source⟩
  exact ⟨hcarries.datagram, hcarries.destination.1.trans hsrc, hcarries.destination.2.trans hport,
    hcarries.parsed, by rw [hreplies.questions]; rfl⟩

theorem refusals_continue (hD : D.Lawful) (hasks : Asks D here.dnsCfg pkt udp message question)
    (hsrc : udp.srcIp = there.dnsCfg.serverAddr) (hport : udp.srcPort = dnsPort)
    (hbuild : D.buildBytesVecCompressed (replyTo D message question .NotMine) = some payload)
    (hlen : payload.length ≤ 65527) (n : Nat) :
    (exchange D n ⟨here, refuse⟩ ⟨there, refuse⟩ pkt ()).length = n := by
  induction n generalizing here there pkt udp message with
  | zero => rfl
  | succ n ih =>
    obtain ⟨p, outbound, hexec, hasks', hsrc', hport'⟩ :=
      refusal_asks hD hasks hsrc hport hbuild hlen
    have hrest := ih hasks' hsrc' hport' (by rw [replyTo_replyTo hD]; exact hbuild)
    rw [exchange, hexec]
    exact congrArg (· + 1) hrest

end Reflected

variable {here there : DnsStack} {pkt : Bytes}

theorem reflects_exchange (hD : D.Lawful) (hfit : QuestionsFit D) (hr : Reflects D here there pkt)
    (n : Nat) :
    (exchange D n ⟨here, refuse⟩ ⟨there, refuse⟩ pkt ()).length = n := by
  obtain ⟨udp, message, question, hasks, hsrc, hport⟩ := hr
  obtain ⟨payload, hbuild, hlen⟩ := hfit _ _ _ hasks.parsed hasks.first
  exact refusals_continue hD hasks hsrc hport hbuild (by omega) n

theorem exchange_two {here there : Party S} {s : S}
    (h : (exchange D 2 here there pkt s).length = 2) :
    ∃ p q s', exec here.resolver (dispatch D here.stack pkt) s = (some p, s') ∧
      (exec there.resolver (dispatch D there.stack p) s').1 = some q := by
  rw [exchange] at h
  rcases hexec : exec here.resolver (dispatch D here.stack pkt) s with ⟨_ | p, s'⟩
  · rw [hexec] at h
    contradiction
  · rw [hexec] at h
    dsimp only at h
    rw [exchange] at h
    rcases hexec' : exec there.resolver (dispatch D there.stack p) s' with ⟨_ | q, s''⟩
    · rw [hexec'] at h
      exact absurd h (by simp)
    · exact ⟨p, q, s', rfl, by rw [hexec']⟩

theorem exchange_le_one (hr : ¬ Reflects D here there pkt) (h h' : Resolver S) (s : S) (n : Nat) :
    (exchange D n ⟨here, h⟩ ⟨there, h'⟩ pkt s).length ≤ 1 := by
  cases n with
  | zero => exact Nat.zero_le _
  | succ n =>
    rw [exchange]
    rcases hexec : exec h (dispatch D here pkt) s with ⟨_ | p, s'⟩
    · exact Nat.zero_le _
    · have hsilent := dispatch_silent hr (congrArg Prod.fst hexec)
      dsimp only
      cases n with
      | zero => exact le_rfl
      | succ n =>
        rw [exchange]
        dsimp only
        rw [hsilent]
        exact le_rfl

/-- A stack lets pass whatever another stack sends, except the reply to a query
that named the stack's own server as its source. -/
theorem answers_unanswered_iff (hD : D.Lawful) (hfit : QuestionsFit D) (here there : DnsStack) :
    (∀ (S : Type) (h : Resolver S) (s : S), (exec h (dispatch D there (unsolicited here)) s).1 = none) ∧
    ∀ pkt,
      ((∀ (S S' : Type) (h : Resolver S) (h' : Resolver S') (s : S) (s' : S') (p : Bytes),
          (exec h (dispatch D here pkt) s).1 = some p → (exec h' (dispatch D there p) s').1 = none) ↔
        ¬ Reflects D here there pkt) ∧
      ((∀ (S : Type) (h h' : Resolver S) (s : S) (n : Nat),
          (exchange D n ⟨here, h⟩ ⟨there, h'⟩ pkt s).length ≤ 1) ↔ ¬ Reflects D here there pkt) ∧
      (Reflects D here there pkt →
        ∀ n, (exchange D n ⟨here, refuse⟩ ⟨there, refuse⟩ pkt ()).length = n) := by
  refine ⟨fun S h s => ?_, fun pkt => ⟨⟨fun hall hr => ?_, fun hr S S' h h' s s' p hp => ?_⟩,
    ⟨fun hall hr => ?_, fun hr S h h' s n => exchange_le_one hr h h' s n⟩, reflects_exchange hD hfit⟩⟩
  · rw [unsolicited, dispatch_advertisement]
    rfl
  · obtain ⟨p, q, s', hp, hq⟩ := exchange_two (reflects_exchange hD hfit hr 2)
    have hnone := hall Unit Unit refuse refuse () s' p (congrArg Prod.fst hp)
    rw [hnone] at hq
    contradiction
  · rw [dispatch_silent hr hp]
    rfl
  · have hlen := reflects_exchange hD hfit hr 2
    have hle := hall Unit refuse refuse () 2
    omega

section Sample

def linkLocal : Ipv6Addr := ⟨[0xfe, 0x80, 0, 0, 0, 0, 0, 0, 0, 0, 0, 0, 0, 0, 0, 1], rfl⟩

def stackAt (addr : Ipv6Addr) : DnsStack := ⟨⟨linkLocal, [addr], ["myvpn".toList], 3600, 0⟩, ⟨addr⟩⟩

theorem questionsFit_simpleDns : QuestionsFit simpleDns := by
  intro bytes message q hparse hq
  have hmessage : message = asking ∨ message = refusing ∨ message = answering := by
    obtain ⟨e, he, rfl⟩ := Option.map_eq_some_iff.mp hparse
    have hmem := List.mem_of_find?_eq_some he
    simp only [List.mem_cons, List.not_mem_nil, or_false] at hmem
    obtain rfl | rfl | rfl := hmem
    · exact .inl rfl
    · exact .inr (.inl rfl)
    · exact .inr (.inr rfl)
  refine ⟨refusingBytes, ?_, by decide⟩
  obtain rfl | rfl | rfl := hmessage
  all_goals
    obtain rfl := Option.some.inj hq
    decide +kernel

theorem not_reflects_sample :
    ¬ Reflects simpleDns (stackAt server) (stackAt peer) (queryFrom peer 40000) := by
  rintro ⟨udp, message, question, hasks, -, hport⟩
  obtain ⟨udp', hasks', -, hport'⟩ := asks_queryFrom peer 40000
  have hudp := Option.some.inj (hasks.datagram.symm.trans hasks'.datagram)
  rw [hudp, hport'] at hport
  exact absurd hport (by decide)

theorem reflects_sample :
    Reflects simpleDns (stackAt server) (stackAt peer) (queryFrom peer 53) := by
  obtain ⟨udp, hasks, hsrc, hport⟩ := asks_queryFrom peer 53
  exact ⟨udp, asking, foo, hasks, hsrc, hport⟩

end Sample

theorem client_gets_one_reply :
    (exchange simpleDns 1000 ⟨stackAt server, onlyHost⟩ ⟨stackAt peer, refuse⟩
      (queryFrom peer 40000) ()).length ≤ 1 :=
  (((answers_unanswered_iff simpleDns_lawful questionsFit_simpleDns (stackAt server) (stackAt peer)).2
    (queryFrom peer 40000)).2.1.mpr not_reflects_sample) Unit onlyHost refuse () 1000

/-- One query in the name of a second server keeps both busy forever. -/
theorem servers_answer_each_other :
    (∃ p q, (exec refuse (dispatch simpleDns (stackAt server) (queryFrom peer 53)) ()).1 = some p ∧
      (exec refuse (dispatch simpleDns (stackAt peer) p) ()).1 = some q) ∧
    ∀ n, (exchange simpleDns n ⟨stackAt server, refuse⟩ ⟨stackAt peer, refuse⟩
      (queryFrom peer 53) ()).length = n := by
  have hgoes := reflects_exchange simpleDns_lawful questionsFit_simpleDns reflects_sample
  refine ⟨?_, hgoes⟩
  obtain ⟨p, q, s', hp, hq⟩ := exchange_two (hgoes 2)
  exact ⟨p, q, congrArg Prod.fst hp, hq⟩

end DnsAnnounce.Reflection
