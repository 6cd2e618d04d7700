import DnsAnnounce.Forwarding
import DnsAnnounce.SplitDns

namespace DnsAnnounce.Deployment

open DnsAnnounce.Utf8 DnsAnnounce.Str DnsAnnounce.Address DnsAnnounce.Effect DnsAnnounce.Runs
open DnsAnnounce.SimpleDns DnsAnnounce.DnsServer DnsAnnounce.Stack DnsAnnounce.SuffixMatch
open DnsAnnounce.SplitDns DnsAnnounce.Route DnsAnnounce.RouteConfig DnsAnnounce.Forwarding
open DnsAnnounce.Chain DnsAnnounce.ChainRuns DnsAnnounce.ResolvedBackend

section Routing

theorem labels_clean (domain : Text) : labels (clean domain) = labels (trimEndMatches '.' domain) :=
  labels_congr (toAsciiLowercase_idem _)

theorem routes_new {servers : List IpAddr} {domains : List Text} {config : DnsRouteConfig}
    (h : RouteConfig.new servers domains = .ok config) (name : Text) :
    routes config name = true ↔ ∃ written ∈ domains, labels (trimEndMatches '.' written) <:+ labels name := by
  obtain ⟨-, -, rfl⟩ := new_eq_ok.mp h
  rw [routes, List.any_eq_true]
  constructor
  · rintro ⟨domain, hdomain, hmatch⟩
    obtain ⟨written, hwritten, rfl⟩ := mem_normalizeDomains.mp hdomain
    rw [matchesSuffix_iff, labels_clean] at hmatch
    exact ⟨written, hwritten, hmatch⟩
  · rintro ⟨written, hwritten, hmatch⟩
    rw [← labels_clean, ← matchesSuffix_iff] at hmatch
    exact ⟨clean written, mem_normalizeDomains.mpr ⟨written, hwritten, rfl⟩, hmatch⟩

theorem routingDomains_ne_nil {servers : List IpAddr} {domains : List Text} {config : DnsRouteConfig}
    (h : RouteConfig.new servers domains = .ok config) (hne : domains ≠ []) : config.routingDomains ≠ [] := by
  obtain ⟨-, -, rfl⟩ := new_eq_ok.mp h
  obtain ⟨domain, rest, rfl⟩ := List.exists_cons_of_ne_nil hne
  exact List.ne_nil_of_mem (mem_normalizeDomains.mpr ⟨domain, List.mem_cons_self, rfl⟩)

end Routing

variable {Name Header Data : Type} (D : SimpleDns Name Header Data)

/-- What comes back from a nameserver that a query is sent to: the stack answers at
its own address, and what is heard from elsewhere is up to others. -/
def ask (stack : DnsStack) (resolve : Query → Reply) (query : Bytes)
    (elsewhere : Text → Heard (List IpAddr)) (addr : Text) : Heard (List IpAddr) :=
  if addr = (IpAddr.V6 stack.dnsCfg.serverAddr).display then
    (exec (fun q s => (resolve q, s)) (dispatch D stack query) ()).1.bind (readReply D)
  else elsewhere addr

variable {D}

section Ask

variable {stack : DnsStack} {suffix : Text} {map : Text → Option IpAddr} {query payload : Bytes}
  {elsewhere : Text → Heard (List IpAddr)} {udp : Packet.UdpV6} {message : Packet Name Header Data}
  {question : Question Name}

theorem ask_stack (hD : D.Lawful) (ha : Asks D stack.dnsCfg query udp message question)
    (hpayload : D.buildBytesVecCompressed
      (replyTo D message question (oneSuffix suffix map (queryOf D question))) = some payload)
    (hlen : payload.length ≤ 65527) :
    ask D stack (oneSuffix suffix map) query elsewhere (IpAddr.V6 stack.dnsCfg.serverAddr).display =
      some (zone suffix map (D.display question.qname) question.qtype) := by
  have hanswered := answered_of_asks hD stack.dnsCfg udp message question _ hpayload hlen
  rw [ask, if_pos rfl, dispatch_asks ha, exec_handlePacket ha, hpayload, ← oneSuffix_zone]
  exact hanswered.read

/-- A refusal is declined; an answer, or that there is no such name, is not. -/
structure Declining (declines : Heard (List IpAddr) → Prop) : Prop where
  refused : ∀ content, declines (some (.Refused, content))
  answered : ∀ content, ¬ declines (some (.NoError, content))
  nameError : ∀ content, ¬ declines (some (.NameError, content))

theorem Declining.zone_iff {declines : Heard (List IpAddr) → Prop} (h : Declining declines) (name : Text)
    (qtype : QTYPE) : declines (some (zone suffix map name qtype)) ↔ ¬ labels suffix <:+ labels name := by
  rw [zone]
  by_cases hsuffix : labels suffix <:+ labels name
  · rw [if_pos hsuffix]
    refine iff_of_false ?_ (not_not_intro hsuffix)
    cases map (toAsciiLowercase name) with
    | some addr => exact h.answered _
    | none => exact h.nameError _
  · rw [if_neg hsuffix]
    exact iff_of_true (h.refused _) hsuffix

end Ask

section Host

variable {s : Surroundings} {owner : Text} {net : Net} {link : ObjectPath} {m : World}

theorem answers_stack (hD : D.Lawful) {stack : DnsStack} {suffix : Text} {map : Text → Option IpAddr}
    {config : DnsRouteConfig} (hservers : config.servers = [.V6 stack.dnsCfg.serverAddr])
    (hdomains : config.routingDomains ≠ []) {files : FileSystem.Fs} {b : Backend}
    (hfresh : ChainProbe.Fresh s owner files b) (hclean : Clean link m b)
    {how : Resolving (Heard (List IpAddr))} (hdeclines : Declining how.declines)
    {elsewhere : Text → Heard (List IpAddr)} {query : Bytes} {udp : Packet.UdpV6}
    {message : Packet Name Header Data} {question : Question Name}
    (hready : Ready how (D.display question.qname) link config m b)
    (hroutes : routes config (D.display question.qname) = true ↔
      labels suffix <:+ labels (D.display question.qname))
    (ha : Asks D stack.dnsCfg query udp message question) {payload : Bytes}
    (hpayload : D.buildBytesVecCompressed
      (replyTo D message question (oneSuffix suffix map (queryOf D question))) = some payload)
    (hlen : payload.length ≤ 65527) :
    answers how (ask D stack (oneSuffix suffix map) query elsewhere) (D.display question.qname)
        (ChainRuns.inPlace link m config b) b =
      if labels suffix <:+ labels (D.display question.qname) then
        some (zone suffix map (D.display question.qname) question.qtype)
      else answers how (ask D stack (oneSuffix suffix map) query elsewhere) (D.display question.qname) m b := by
  have hheard : ask D stack (oneSuffix suffix map) query elsewhere
      (IpAddr.V6 stack.dnsCfg.serverAddr).display =
        some (zone suffix map (D.display question.qname) question.qtype) :=
    ask_stack hD ha hpayload hlen
  have hserves : Serves how config (ask D stack (oneSuffix suffix map) query elsewhere)
      (D.display question.qname) := by
    rw [Serves, hservers, List.forall_mem_singleton, hheard, hdeclines.zone_iff, ← hroutes, Bool.not_eq_true]
  have hanswers := answers_inPlace hfresh hclean hdomains hservers hready hserves
  refine hanswers.trans ?_
  rw [hheard]
  exact if_congr hroutes rfl rfl

/-- Both halves together. An application serves a suffix from its stack and sets the
route to it: after any calls and restarts that leave the route in place, the host
finds below the suffix what the application's map holds, through whichever backend,
and every other name as it did before. -/
theorem names_resolved (hD : D.Lawful) (stack : DnsStack) {domain suffix : Text}
    (hsuffix : toAsciiLowercase suffix = clean domain) (map : Text → Option IpAddr) {config : DnsRouteConfig}
    (hconfig : RouteConfig.new [.V6 stack.dnsCfg.serverAddr] [domain] = .ok config)
    (hclean : Clean link m (started s owner net m).1.backend) (events : List ChainRuns.Event)
    (ht : ∀ e ∈ events, Targets net link (started s owner net m).1.backend e)
    (hplace : (run (intend (remembers (started s owner net m).1.backend)) .start events).inPlace = some config)
    (how : Resolving (Heard (List IpAddr))) (hdeclines : Declining how.declines)
    (elsewhere : Text → Heard (List IpAddr)) {query : Bytes} {udp : Packet.UdpV6}
    {message : Packet Name Header Data} {question : Question Name}
    (hready : Ready how (D.display question.qname) link config m (started s owner net m).1.backend)
    (ha : Asks D stack.dnsCfg query udp message question) {payload : Bytes}
    (hpayload : D.buildBytesVecCompressed
      (replyTo D message question (oneSuffix suffix map (queryOf D question))) = some payload)
    (hlen : payload.length ≤ 65527) :
    answers how (ask D stack (oneSuffix suffix map) query elsewhere) (D.display question.qname)
        (run (ChainRuns.step s owner net) (started s owner net m) events).2
        (started s owner net m).1.backend =
      if labels suffix <:+ labels (D.display question.qname) then
        some (zone suffix map (D.display question.qname) question.qtype)
      else answers how (ask D stack (oneSuffix suffix map) query elsewhere) (D.display question.qname) m
        (started s owner net m).1.backend := by
  have hworld := (carries_run hclean ht).world
  have hservers : config.servers = [.V6 stack.dnsCfg.serverAddr] := by
    obtain ⟨-, -, rfl⟩ := new_eq_ok.mp hconfig
    rfl
  have hlabels : labels (trimEndMatches '.' domain) = labels suffix := by
    rw [← labels_clean, ← hsuffix, labels_congr (toAsciiLowercase_idem suffix)]
  have hroutes : routes config (D.display question.qname) = true ↔
      labels suffix <:+ labels (D.display question.qname) := by
    simp only [routes_new hconfig, List.mem_singleton, exists_eq_left, hlabels]
  rw [hworld, hplace]
  exact answers_stack hD hservers (routingDomains_ne_nil hconfig (List.cons_ne_nil _ _))
    (fresh_started s owner net m) hclean hdeclines hready hroutes ha hpayload hlen

def routeConfig : DnsRouteConfig := ⟨[.V6 server], ["myvpn".toList]⟩

theorem ready_route (name : Text) : Ready (threeInTurn (List IpAddr) []) name [] routeConfig plainWorld
    (.StaticResolvConf (StaticBackend.opened "vpn".toList StaticRestore.resolvConf plainWorld.files)) := by
  rw [StaticBackend.opened_eq]
  exact .staticResolvConf _ 3 (inTurn_three _ _) (readsLines_of_read (by decide +kernel)) (by decide +kernel)
    (by decide +kernel)

theorem declining_three (order : List Text) : Declining (threeInTurn (List IpAddr) order).declines where
  refused _ := rfl
  answered _ := Bool.false_ne_true
  nameError _ := Bool.false_ne_true

/-- The route outlives the process that set it. -/
theorem foo_found :
    answers (threeInTurn (List IpAddr) [])
      (ask simpleDns (Reflection.stackAt server) (registry ⟨[10, 1, 2, 3], rfl⟩).resolve
        (queryFrom peer 40000) fun _ => none) "Foo.myvpn".toList
      (run (ChainRuns.step bareHost "vpn".toList ResolvedLinks.twoLinks)
        (started bareHost "vpn".toList ResolvedLinks.twoLinks plainWorld)
        [.request (.set "wg0".toList routeConfig), .restart]).2
      (started bareHost "vpn".toList ResolvedLinks.twoLinks plainWorld).1.backend =
        some (.NoError, [.V4 ⟨[10, 1, 2, 3], rfl⟩]) := by
  obtain ⟨udp, hasks, -, -⟩ := asks_queryFrom peer 40000
  have hconfig : RouteConfig.new [.V6 server] ["MyVPN.".toList] = .ok routeConfig :=
    new_eq_ok.mpr ⟨List.cons_ne_nil _ _, by decide +kernel, by decide +kernel⟩
  have hreply : replyTo simpleDns asking foo
      ((registry ⟨[10, 1, 2, 3], rfl⟩).resolve (queryOf simpleDns foo)) = answering := by
    decide +kernel
  have hbytes : simpleDns.buildBytesVecCompressed answering = some answeringBytes := by decide +kernel
  have hsuffix : toAsciiLowercase "myvpn".toList = clean "MyVPN.".toList := by decide +kernel
  refine (names_resolved simpleDns_lawful (Reflection.stackAt server) hsuffix
    (registry ⟨[10, 1, 2, 3], rfl⟩).map hconfig (clean_bare _) _ (fun e _ => targets_bare _ _ e) ?_
    (threeInTurn (List IpAddr) []) (declining_three []) _ ?_ hasks ((congrArg _ hreply).trans hbytes)
    (by decide)).trans ?_
  · rw [backend_bare]
    rfl
  · rw [backend_bare]
    exact ready_route _
  · rw [if_pos (by decide +kernel)]
    decide +kernel

end Host

end DnsAnnounce.Deployment
