import DnsAnnounce.Progress
import DnsAnnounce.RaReceiver
import DnsAnnounce.Reflection

namespace DnsAnnounce.Discovery

open DnsAnnounce.Utf8 DnsAnnounce.Address DnsAnnounce.Effect DnsAnnounce.Runs DnsAnnounce.LengthPrefixed
open DnsAnnounce.Packet DnsAnnounce.SimpleDns DnsAnnounce.DnsServer DnsAnnounce.RouterAdvert
open DnsAnnounce.UdpCodec DnsAnnounce.RaReceiver DnsAnnounce.Stack DnsAnnounce.Spawn DnsAnnounce.Shutdown
open DnsAnnounce.Progress
open DnsAnnounce.Reflection (stackAt)

/-- What a host on the link has learned from advertisements. -/
structure Learned where
  servers : List Ipv6Addr
  domains : List Text
  deriving DecidableEq

def Learned.nothing : Learned := ⟨[], []⟩

/-- The entries of an option are taken up, or given up if their lifetime is zero. -/
def renew {α : Type} [DecidableEq α] (lifetime : UInt32) (entries known : List α) : List α :=
  if lifetime = 0 then known.filter (· ∉ entries) else entries ++ known.filter (· ∉ entries)

def learnOption (l : Learned) : NdOption → Learned
  | .rdnss lifetime servers => { l with servers := renew lifetime servers l.servers }
  | .dnssl lifetime domains _ => { l with domains := renew lifetime domains l.domains }
  | .other _ => l

def isUnicastLinkLocal (addr : Ipv6Addr) : Bool :=
  addr.octets.getD 0 0 = 0xfe && addr.octets.getD 1 0 &&& 0xc0 = 0x80

/-- What a host checks of an advertisement before it takes it for one that is
meant for it (RFC 4861 section 6.1.2). -/
def isFor (me : Ipv6Addr) (ad : Advertisement) : Bool :=
  ad.nextHeader = icmpv6NextHeader && ad.hopLimit = 255 && ad.type = icmpv6RtrAdvert && ad.code = 0 &&
    isUnicastLinkLocal ad.src && (ad.dst = allNodesMulticast || ad.dst = me)

def hear (me : Ipv6Addr) (l : Learned) (pkt : Bytes) : Learned :=
  match receive pkt with
  | some ad => if isFor me ad then ad.options.foldl learnOption l else l
  | none => l

def announced (cfg : RaConfig) : Learned :=
  if cfg.lifetimeSecs = 0 then .nothing else ⟨cfg.dnsServers, cfg.searchDomains⟩

/-- The configurations that an advertisement has room for. -/
structure Fits (cfg : RaConfig) : Prop where
  some : 1 ≤ cfg.dnsServers.length
  servers : cfg.dnsServers.length ≤ 127
  domains : ∀ domain ∈ cfg.searchDomains, IsDomain domain
  searchList : (buildDnsslOption cfg.searchDomains cfg.lifetimeSecs).length ≤ 2040

section Receive

theorem receive_message (src dst : Ipv6Addr) (nextHeader hopLimit : UInt8) (len : UInt16) (icmp : Bytes)
    (hlen : len.toNat = icmp.length) (hmin : 16 ≤ icmp.length)
    (hverifies : Verifies src dst icmpv6NextHeader icmp) :
    receive (buildIpv6Header src dst nextHeader hopLimit len ++ icmp) =
      (splitOptions (icmp.drop 16)).bind fun opts => (opts.mapM readOption).map fun options =>
        { src, dst, nextHeader, hopLimit, type := icmp.getD 0 0, code := icmp.getD 1 0
          routerLifetime := fromBeBytes (icmp.getD 6 0) (icmp.getD 7 0), options } := by
  have hlength : (buildIpv6Header src dst nextHeader hopLimit len ++ icmp).length =
      ipv6HeaderLen + icmp.length := by
    rw [List.length_append, length_buildIpv6Header]
    rfl
  have hdeclared : declaredLen (buildIpv6Header src dst nextHeader hopLimit len ++ icmp) = icmp.length := by
    rw [declaredLen, getD_header_length, hlen]
  rw [Verifies] at hverifies
  rw [receive]
  rw [if_neg (by omega), if_neg (not_not.mpr (version_header ..)), slice_header_src, slice_header_dst,
    ipv6OfSlice_octets, ipv6OfSlice_octets, Option.bind_some, Option.bind_some, drop_header]
  dsimp only
  rw [if_neg (not_not.mpr hverifies)]
  rfl

theorem nextHeader_receive {pkt : Bytes} {ad : Advertisement} (h : receive pkt = some ad) :
    ad.nextHeader = pkt.getD 6 0 := by
  rw [receive] at h
  split_ifs at h
  obtain ⟨src, -, h⟩ := Option.bind_eq_some_iff.mp h
  obtain ⟨dst, -, h⟩ := Option.bind_eq_some_iff.mp h
  dsimp only at h
  split_ifs at h
  obtain ⟨opts, -, h⟩ := Option.bind_eq_some_iff.mp h
  obtain ⟨options, -, rfl⟩ := Option.map_eq_some_iff.mp h
  rfl

end Receive

section Hear

variable {cfg : RaConfig} {me : Ipv6Addr}

theorem renew_nil {α : Type} [DecidableEq α] (lifetime : UInt32) (known : List α) :
    renew lifetime [] known = known := by
  simp [renew]

theorem renew_unknown {α : Type} [DecidableEq α] (lifetime : UInt32) (entries : List α) :
    renew lifetime entries [] = if lifetime = 0 then [] else entries := by
  simp [renew]

theorem renew_known {α : Type} [DecidableEq α] {lifetime : UInt32} (h : lifetime ≠ 0) (entries : List α) :
    renew lifetime entries entries = entries := by
  simp [renew, h]

def learn (cfg : RaConfig) (l : Learned) : Learned :=
  ⟨renew cfg.lifetimeSecs cfg.dnsServers l.servers, renew cfg.lifetimeSecs cfg.searchDomains l.domains⟩

theorem learn_nothing (cfg : RaConfig) : learn cfg .nothing = announced cfg := by
  rw [learn, Learned.nothing, renew_unknown, renew_unknown, announced]
  split_ifs <;> rfl

theorem learn_announced (cfg : RaConfig) : learn cfg (announced cfg) = announced cfg := by
  by_cases hzero : cfg.lifetimeSecs = 0
  · have hnothing : announced cfg = .nothing := if_pos hzero
    rw [hnothing, learn_nothing, hnothing]
  · rw [announced, if_neg hzero, learn, renew_known hzero, renew_known hzero]

theorem hear_advertisement (hfits : Fits cfg) (hsrc : isUnicastLinkLocal cfg.linkLocalSrc = true)
    (l : Learned) (dst : Ipv6Addr) : hear me l (buildRouterAdvertisement cfg dst) =
      if dst = allNodesMulticast ∨ dst = me then learn cfg l else l := by
  have hopts := length_advertOptions hfits.servers hfits.searchList
  have hbuild := buildRouterAdvertisement_message cfg dst
  generalize hcsum : upperLayerChecksum cfg.linkLocalSrc dst icmpv6NextHeader (advertMessage cfg 0) = csum
    at hbuild
  have hlength := length_advertMessage cfg csum
  have hlen : (UInt16.ofNat (16 + (advertOptions cfg).length)).toNat = (advertMessage cfg csum).length := by
    rw [UInt16.toNat_ofNat', Nat.mod_eq_of_lt (by omega), hlength]
  have hverifies := Checksum.advertisement_verifies cfg dst (by
    rw [hbuild, List.length_append, length_buildIpv6Header, hlength, ipv6HeaderLen]
    omega)
  rw [hbuild, drop_header] at hverifies
  have hrest : (advertMessage cfg csum).drop 16 = advertOptions cfg := rfl
  obtain ⟨k, -, hread⟩ := mapM_readOption hfits.some hfits.domains
  rw [hear, hbuild, receive_message _ _ _ _ _ _ hlen (by omega) hverifies, hrest,
    splitOptions_advertOptions hfits.servers hfits.searchList, Option.bind_some, hread, Option.map_some]
  dsimp only
  have hfor : isFor me
      { src := cfg.linkLocalSrc, dst, nextHeader := icmpv6NextHeader, hopLimit := raHopLimit
        type := (advertMessage cfg csum).getD 0 0, code := (advertMessage cfg csum).getD 1 0
        routerLifetime := fromBeBytes ((advertMessage cfg csum).getD 6 0) ((advertMessage cfg csum).getD 7 0)
        options := .rdnss cfg.lifetimeSecs cfg.dnsServers :: if cfg.searchDomains.isEmpty then []
          else [.dnssl cfg.lifetimeSecs cfg.searchDomains (List.replicate k 0)] } =
      decide (dst = allNodesMulticast ∨ dst = me) := by
    rw [isFor, hsrc]
    simp [advertMessage, raHopLimit]
  rw [hfor]
  simp only [decide_eq_true_eq]
  refine if_congr Iff.rfl ?_ rfl
  rw [learn]
  split_ifs with hnone
  · rw [List.isEmpty_iff.mp hnone, renew_nil]
    rfl
  · rfl

theorem hear_datagram (l : Learned) (src dst : Ipv6Addr) (srcPort dstPort : UInt16) (payload : Bytes)
    (hopLimit : UInt8) : hear me l (buildUdpPacket src dst srcPort dstPort payload hopLimit) = l := by
  obtain ⟨received, hparse, -⟩ := parseIpv6Udp_buildUdpPacket src dst srcPort dstPort payload hopLimit
  rw [hear]
  cases hreceive : receive (buildUdpPacket src dst srcPort dstPort payload hopLimit) with
  | none => rfl
  | some ad =>
    have hnext := nextHeader_receive hreceive
    rw [nextHeader_of_parse hparse] at hnext
    have hnot : isFor me ad = false := by
      rw [isFor, hnext]
      rfl
    dsimp only
    rw [hnot]
    rfl

end Hear

section Sent

variable {Name Header Data : Type} {D : SimpleDns Name Header Data} {stack : DnsStack} {capacity : Nat}

theorem reply_cases {pkt p : Bytes} {asked : Transcript}
    (h : Resumes (dispatch D stack pkt) asked (.ret (some p))) :
    (∃ dst, p = buildRouterAdvertisement stack.raCfg dst) ∨
      ∃ dst port payload, p = buildUdpPacket stack.dnsCfg.serverAddr dst dnsPort port payload 64 := by
  by_cases hasks : ∃ udp message question, Asks D stack.dnsCfg pkt udp message question
  · obtain ⟨udp, message, question, hasks⟩ := hasks
    rw [dispatch_asks hasks, handlePacket_asks hasks] at h
    generalize hprog : Prog.bind (resolve (queryOf D question)) _ = prog at h
    cases h with
    | start => exact absurd hprog nofun
    | @call query next verdict asked rest hrest =>
      obtain ⟨rfl, hnext⟩ := Prog.call.inj hprog
      rw [← eq_of_heq hnext] at hrest
      obtain ⟨-, hret⟩ := hrest.of_ret
      obtain ⟨payload, -, hp⟩ := Option.map_eq_some_iff.mp (Prog.ret.inj hret).symm
      exact .inr ⟨udp.srcIp, udp.srcPort, payload, hp.symm⟩
  · rw [dispatch, handlePacket_silent hasks] at h
    split_ifs at h
    · obtain ⟨-, hret⟩ := h.of_ret
      obtain ⟨dst, -, hp⟩ := Option.map_eq_some_iff.mp (Prog.ret.inj hret).symm
      exact .inl ⟨dst, hp.symm⟩
    · exact absurd (Prog.ret.inj h.of_ret.2) (Option.some_ne_none p)

theorem delivered_cases {w : World} (hi : Inv D stack w) {p : Bytes} (hp : p ∈ w.delivered) :
    (∃ dst, p = buildRouterAdvertisement stack.raCfg dst) ∨
      ∃ dst port payload, p = buildUdpPacket stack.dnsCfg.serverAddr dst dnsPort port payload 64 := by
  have hsent : p ∈ sent w.attempts := by
    rw [hi.channel]
    exact List.mem_append_left _ hp
  obtain ⟨a, ha, rfl⟩ := List.mem_map.mp hsent
  obtain ⟨hmem, hok⟩ := List.mem_filter.mp ha
  cases htask : a.task with
  | beacon => exact .inl ⟨allNodesMulticast, hi.beacon a hmem htask⟩
  | dispatcher =>
    have hreply : a.packet ∈ sentBy .dispatcher w.attempts :=
      List.mem_map_of_mem (List.mem_filter.mpr ⟨List.mem_filter.mpr ⟨hmem, by rw [htask]; rfl⟩, hok⟩)
    rw [hi.replies] at hreply
    obtain ⟨s, hs, hp⟩ := List.mem_filterMap.mp hreply
    have hserved := hi.faithful.served s hs
    rw [hp] at hserved
    exact reply_cases hserved

theorem count_step {w w' : World} {e : Event} (h : Step D stack capacity w e w') (halive : w'.alive = true) :
    w.alive = true ∧ (sentBy .beacon w'.attempts).length + pending w'.beacon =
      (sentBy .beacon w.attempts).length + pending w.beacon + ticks [e] := by
  cases h with
  | tick hb =>
    refine ⟨halive, ?_⟩
    rw [hb]
    rfl
  | reply => exact ⟨halive, by rw [sentBy_other (show Task.dispatcher ≠ .beacon by decide)]; rfl⟩
  | replyFails => exact ⟨halive, by rw [sentBy_other (show Task.dispatcher ≠ .beacon by decide)]; rfl⟩
  | beacon hb =>
    refine ⟨halive, ?_⟩
    rw [sentBy_self, sent_put, List.length_append, hb]
    rfl
  | beaconFails _ hgone => exact absurd halive (Bool.eq_false_iff.mp hgone)
  | hangUp => contradiction
  | _ => exact ⟨halive, rfl⟩

theorem count_run {w w' : World} {events : List Event}
    (h : guardedRun (step D stack capacity) w events = some w') (halive : w'.alive = true) :
    w.alive = true ∧ (sentBy .beacon w'.attempts).length + pending w'.beacon =
      (sentBy .beacon w.attempts).length + pending w.beacon + ticks events := by
  refine guardedRun_induction (R := fun w events w' => w'.alive = true → w.alive = true ∧
    (sentBy .beacon w'.attempts).length + pending w'.beacon =
      (sentBy .beacon w.attempts).length + pending w.beacon + ticks events)
    (fun _ halive => ⟨halive, rfl⟩) (fun w e t events u hstep ih halive => ?_) h halive
  obtain ⟨halive', hrest⟩ := ih halive
  obtain ⟨hw, hfirst⟩ := count_step (step_cases hstep) halive'
  refine ⟨hw, ?_⟩
  rw [hrest, hfirst, ticks_cons e events, Nat.add_assoc]

/-- The packets that a host at `me` takes for advertisements to it. -/
def Reaches (cfg : RaConfig) (me : Ipv6Addr) (p : Bytes) : Prop :=
  p = buildRouterAdvertisement cfg allNodesMulticast ∨ p = buildRouterAdvertisement cfg me

instance (cfg : RaConfig) (me : Ipv6Addr) : DecidablePred (Reaches cfg me) :=
  fun _ => inferInstanceAs (Decidable (_ ∨ _))

theorem learned_of_delivered (hfits : Fits stack.raCfg)
    (hsrc : isUnicastLinkLocal stack.raCfg.linkLocalSrc = true) {w : World} (hi : Inv D stack w)
    (me : Ipv6Addr) : run (hear me) .nothing w.delivered =
      if ∃ p ∈ w.delivered, Reaches stack.raCfg me p then announced stack.raCfg else .nothing := by
  have hreaches (l : Learned) {p : Bytes} (hp : Reaches stack.raCfg me p) :
      hear me l p = learn stack.raCfg l := by
    obtain rfl | rfl := hp
    · rw [hear_advertisement hfits hsrc, if_pos (.inl rfl)]
    · rw [hear_advertisement hfits hsrc, if_pos (.inr rfl)]
  refine run_of_settles (hear me) (fun p _ hp => ?_) (fun p _ hp => ?_) fun l p hp hnot => ?_
  · rw [hreaches _ hp, learn_nothing]
  · rw [hreaches _ hp, learn_announced]
  · obtain ⟨dst, rfl⟩ | ⟨dst, port, payload, rfl⟩ := delivered_cases hi hp
    · rw [hear_advertisement hfits hsrc, if_neg]
      rintro (rfl | rfl)
      · exact hnot (.inl rfl)
      · exact hnot (.inr rfl)
    · exact hear_datagram ..

/-- What makes the stack tell a host at `me` of its configuration. -/
def Calls (me : Ipv6Addr) (events : List Event) : Prop :=
  .tick ∈ events ∨ ∃ pkt ∈ arrivals events, isRouterSolicitation pkt = true ∧ solicitationSrc pkt = some me

theorem reached_of_calls (hcapacity : 0 < capacity) {events more : List Event} {w w' : World}
    (h : guardedRun (step D stack capacity) spawned events = some w)
    (hmore : guardedRun (step D stack capacity) w more = some w') (hinner : ∀ e ∈ more, Inner e)
    (hquiet : Quiet D stack capacity w') (halive : w.alive = true) {me : Ipv6Addr} (hcalls : Calls me events) :
    ∃ p ∈ w'.delivered, Reaches stack.raCfg me p := by
  have hi := inv_run (guardedRun_append h hmore)
  have hrest := atRest_of_quiet hcapacity h hmore hinner hquiet
  rw [← alive_inner hmore hinner] at halive
  obtain htick | ⟨pkt, hpkt, hsolicits, hme⟩ := hcalls
  · refine ⟨unsolicited stack, ?_, .inl rfl⟩
    have hlater := count_run hmore halive
    have hbefore := (count_run h hlater.1).2
    have hticks : 0 < ticks events := Nat.pos_of_ne_zero fun hzero => ticks_eq_zero.mp hzero htick
    have hpending := pending_eq_zero hrest.beacon
    have hnone : (sentBy .beacon spawned.attempts).length + pending spawned.beacon = 0 := rfl
    obtain ⟨k, hcopies⟩ := beacon_copies hi
    have hlen := congrArg List.length hcopies
    rw [List.length_replicate] at hlen
    have hmem : unsolicited stack ∈ sentBy .beacon w'.attempts := by
      rw [hcopies]
      exact List.mem_replicate.mpr ⟨by omega, rfl⟩
    rw [hrest.delivered]
    exact mem_sent_of_sentBy hmem
  · rw [← hrest.served halive] at hpkt
    obtain ⟨s, hs, rfl⟩ := List.mem_map.mp hpkt
    obtain ⟨-, src, hsrc, hreply⟩ := (servedAs_of_resumes (hi.faithful.served s hs)).solicitation hsolicits
    obtain rfl := Option.some.inj (hme.symm.trans hsrc)
    exact ⟨_, delivered_of_served hi hrest.delivered hs hreply, .inr rfl⟩

/-- Hosts learn from the stack what it is configured with: nothing at all until an
advertisement reaches them, and exactly the configuration from then on, whatever else
is delivered. One has reached a host once the stack is at rest after a tick of the
beacon or a solicitation from that host. -/
theorem discovers (hfits : Fits stack.raCfg) (hsrc : isUnicastLinkLocal stack.raCfg.linkLocalSrc = true)
    {events : List Event} {w : World} (h : guardedRun (step D stack capacity) spawned events = some w)
    (me : Ipv6Addr) :
    run (hear me) .nothing w.delivered =
      (if ∃ p ∈ w.delivered, Reaches stack.raCfg me p then announced stack.raCfg else .nothing) ∧
    (0 < capacity → w.alive = true → Calls me events → ∀ more w', (∀ e ∈ more, Inner e) →
      guardedRun (step D stack capacity) w more = some w' → Quiet D stack capacity w' →
      run (hear me) .nothing w'.delivered = announced stack.raCfg) := by
  refine ⟨learned_of_delivered hfits hsrc (inv_run h) me, ?_⟩
  intro hcapacity halive hcalls more w' hinner hmore hquiet
  rw [learned_of_delivered hfits hsrc (inv_run (guardedRun_append h hmore)) me]
  exact if_pos (reached_of_calls hcapacity h hmore hinner hquiet halive hcalls)

end Sent

theorem fits_stackAt : Fits (stackAt server).raCfg where
  some := by decide
  servers := by decide
  domains := by decide +kernel
  searchList := by
    rw [buildDnsslOption, padOption_eq]
    decide +kernel

theorem server_discovered :
    ∃ w more w', guardedRun (step simpleDns (stackAt server) 1) spawned [.tick] = some w ∧
      guardedRun (step simpleDns (stackAt server) 1) w more = some w' ∧
      run (hear peer) .nothing w'.delivered = ⟨[server], ["myvpn".toList]⟩ := by
  have htick : guardedRun (step simpleDns (stackAt server) 1) spawned [.tick] =
      some { spawned with beacon := .sending } := by
    simp [guardedRun_cons, step, spawned]
  obtain ⟨more, w', hinner, hmore, hquiet, -⟩ :=
    exists_quiet (inv_run htick).faithful (consulted_of_fresh (fun _ => .NotMine) rfl rfl)
  refine ⟨_, more, w', htick, hmore, ?_⟩
  exact (discovers fits_stackAt (by decide) htick peer).2 Nat.one_pos rfl (.inl List.mem_cons_self) more w'
    hinner hmore hquiet

end DnsAnnounce.Discovery
