import DnsAnnounce.BackendAgreement
import DnsAnnounce.ChainRuns
import DnsAnnounce.Failover
import DnsAnnounce.NameserverLines
import DnsAnnounce.SimpleDns
import DnsAnnounce.SuffixMatch

namespace DnsAnnounce.Forwarding

open DnsAnnounce.Utf8 DnsAnnounce.Str DnsAnnounce.Address DnsAnnounce.Route DnsAnnounce.StaticBackend
open DnsAnnounce.Nameservers DnsAnnounce.NameserverLines DnsAnnounce.Failover DnsAnnounce.SimpleDns
open DnsAnnounce.ResolvedBackend DnsAnnounce.SuffixMatch DnsAnnounce.BackendAgreement
open DnsAnnounce.ChainRuns (World)

section Rendered

theorem isWord_keyword : IsWord keyword := ⟨by decide, keyword_no_whitespace⟩

theorem lines_nameserverLine {addr : Text} (h : IsWord addr) (rest : Text) :
    lines (nameserverLine addr ++ rest) = (keyword ++ ' ' :: addr) :: lines rest := by
  have hlast : (keyword ++ ' ' :: addr).getLast? = addr.getLast? := by
    rw [List.getLast?_append, List.getLast?_cons, List.getLast?_eq_some_getLast h.1]
    rfl
  have hnl : '\n' ∉ keyword ++ ' ' :: addr := by
    intro hm
    obtain hm | hm := List.mem_append.mp hm
    · exact absurd (keyword_no_whitespace _ hm) (by decide)
    · obtain hm | hm := List.mem_cons.mp hm
      · exact absurd hm (by decide)
      · exact absurd (h.2 _ hm) (by decide)
  have hcr : (keyword ++ ' ' :: addr).getLast? ≠ some '\r' := by
    intro hc
    rw [hlast] at hc
    exact absurd (h.2 _ (List.mem_of_getLast? hc)) (by decide)
  have hline : nameserverLine addr ++ rest = (keyword ++ ' ' :: addr) ++ '\n' :: rest := by
    rw [nameserverLine_eq, List.append_assoc, List.append_assoc, List.singleton_append]
    rfl
  rw [hline, lines_append _ _ hnl, if_neg hcr]

theorem lineAddress_nameserverLine {addr : Text} (h : IsWord addr) :
    lineAddress (keyword ++ ' ' :: addr) = some addr := by
  have hrest : ∀ c, (' ' :: addr).head? = some c → isWhitespace c = true := by
    intro c hc
    obtain rfl := Option.some.inj hc
    decide
  rw [lineAddress_of_words (splitWhitespace_append isWord_keyword hrest), if_pos rfl, splitWhitespace_word h]
  rfl

theorem nameserverLines_lines {addrs : List Text} (h : ∀ addr ∈ addrs, IsWord addr) :
    nameserverLines (encode (addrs.flatMap nameserverLine)) = addrs := by
  induction addrs with
  | nil => rfl
  | cons addr addrs ih =>
    have haddr := h addr List.mem_cons_self
    have hrest := ih fun a ha => h a (List.mem_cons_of_mem addr ha)
    rw [nameserverLines, decodeLossy_encode] at hrest ⊢
    rw [List.flatMap_cons, lines_nameserverLine haddr,
      List.filterMap_cons_some (lineAddress_nameserverLine haddr), hrest]

theorem nameserverLines_eq_nil {content : Bytes} (h : parseNameservers content = []) :
    nameserverLines content = [] := by
  have hle : (nameserverLines content).length ≤ (parseNameservers content).length := by
    rw [parseNameservers_eq]
    refine length_filterMap_le (fun line => ?_) _
    obtain ⟨-, heq⟩ | ⟨-, hnone, -⟩ := entry_cases line
    · exact .inl heq
    · exact .inr hnone
  rw [h] at hle
  exact List.eq_nil_of_length_eq_zero (Nat.le_zero.mp hle)

theorem readsLines_of_read {content : Bytes} (h : parseNameservers content = nameserverLines content) :
    ReadsLines content :=
  ⟨h, fun owner config hforward => by rw [render, if_pos hforward, h]⟩

def rendered (config : DnsRouteConfig) (original : Bytes) : List Text :=
  config.servers.map IpAddr.display ++ if config.routingDomains ≠ [] then parseNameservers original else []

theorem render_eq (owner : Text) (config : DnsRouteConfig) (original : Bytes) :
    render owner config original = markerLine owner ++ (rendered config original).flatMap nameserverLine := by
  rw [render, rendered, List.flatMap_append, List.flatMap_map, List.append_assoc]
  split_ifs <;> rfl

theorem isWord_rendered {config : DnsRouteConfig} {original : Bytes} {addr : Text}
    (h : addr ∈ rendered config original) : IsWord addr := by
  obtain h | h := List.mem_append.mp h
  · obtain ⟨server, -, rfl⟩ := List.mem_map.mp h
    exact isWord_display server
  · split_ifs at h
    · exact isWord_of_mem_parseNameservers h
    · exact absurd h List.not_mem_nil

theorem nameserverLines_render {owner : Text} (howner : '\n' ∉ owner) (config : DnsRouteConfig)
    (original : Bytes) :
    nameserverLines (encode (render owner config original)) = rendered config original := by
  have hmarker := nameserverLines_eq_nil (ownerNameservers_eq_nil howner)
  have hlines := nameserverLines_lines fun addr (h : addr ∈ rendered config original) => isWord_rendered h
  rw [nameserverLines, decodeLossy_encode] at hmarker hlines ⊢
  rw [markerLine] at hmarker
  rw [render_eq, markerLine, List.append_assoc, List.singleton_append, lines_append_newline,
    List.filterMap_append, hmarker, hlines, List.nil_append]

end Rendered

section Lookups

variable {Answer : Type}

/-- How the host looks names up, given what each nameserver has to say: through the
nameservers of `resolv.conf`, or through the servers and domains of the links. -/
structure Resolving (Answer : Type) where
  declines : Answer → Prop
  nameservers : (Text → Answer) → List Text → Answer
  links : (Text → Answer) → Links → Text → Answer
  order : List Text

/-- What the host gets for a name where it has this backend's kind of configuration. -/
def answers (how : Resolving Answer) (ask : Text → Answer) (name : Text) (m : World) : Chain.Backend → Answer
  | .SystemdResolved _ => how.links ask m.links name
  | .Resolvconf _ => how.nameservers ask (merged how.order m.processes.records)
  | .StaticResolvConf b => how.nameservers ask (nameserverLines ((m.files b.path).getD []))

def routes (config : DnsRouteConfig) (name : Text) : Bool :=
  config.routingDomains.any fun domain => matchesSuffix name domain

/-- The servers answer for the routing domains and decline all else. -/
def Serves (how : Resolving Answer) (config : DnsRouteConfig) (ask : Text → Answer) (name : Text) : Prop :=
  ∀ server ∈ config.servers, how.declines (ask server.display) ↔ routes config name = false

/-- A domain of the link covers the name, and has this many labels. -/
def Covers (state : LinkState) (name : Text) (n : Nat) : Prop :=
  ∃ domain ∈ state.domains, labels domain.1 <:+ labels name ∧ (labels domain.1).length = n

/-- No domain of the link covers the name, and it does not take the rest. -/
def Unrelated (state : LinkState) (name : Text) : Prop :=
  (∀ n, ¬ Covers state name n) ∧ (state.dns = [] ∨ ∃ domain ∈ state.domains, domain.2 = true)

/-- What systemd-resolved documents of its lookups: the longest domain decides which
link is asked, and a link that has routing domains only is not asked for anything else. -/
structure ByDomain (declines : Answer → Prop) (lookup : (Text → Answer) → Links → Text → Answer) :
    Prop where
  routed : ∀ {ask links name link server rest n}, (links link).dns = (server :: rest).map encodeAddr →
    Covers (links link) name n → (∀ q, q ≠ link → ∀ k, Covers (links q) name k → k < n) →
    ¬ declines (ask (IpAddr.display server)) → lookup ask links name = ask (IpAddr.display server)
  unrelated : ∀ {ask links links' name},
    (∀ q, links q = links' q ∨ Unrelated (links q) name ∧ Unrelated (links' q) name) →
    lookup ask links name = lookup ask links' name

/-- What has to hold of the host for the lookups to be forwarded. With systemd-resolved
no other link covers the name as well; elsewhere the servers are asked in turn, there
are nameservers to go on to and not too many, and none of another tunnel's in front. -/
inductive Ready (how : Resolving Answer) (name : Text) (link : ObjectPath) (config : DnsRouteConfig)
    (m : World) : Chain.Backend → Prop
  | systemdResolved (b : SystemdResolved) : ByDomain how.declines how.links →
    (routes config name = true → ∃ n, Covers (pushed config) name n ∧
      ∀ q, q ≠ link → ∀ k, Covers (m.links q) name k → k < n) →
    Ready how name link config m (.SystemdResolved b)
  | resolvconf (b : ResolvconfBackend.Resolvconf) (limit : Nat) : InTurn how.declines limit how.nameservers →
    Lists how.order (Function.update m.processes.records b.registrationName
      (some (config.servers.map IpAddr.display))) →
    rivals how.order b.registrationName = [] → merged how.order m.processes.records ≠ [] →
    config.servers.length + (merged how.order m.processes.records).length ≤ limit →
    Ready how name link config m (.Resolvconf b)
  | staticResolvConf (b : StaticResolvConf) (limit : Nat) : InTurn how.declines limit how.nameservers →
    ReadsLines ((m.files b.path).getD []) → nameserverLines ((m.files b.path).getD []) ≠ [] →
    config.servers.length + (nameserverLines ((m.files b.path).getD [])).length ≤ limit →
    Ready how name link config m (.StaticResolvConf b)

variable {how : Resolving Answer} {ask : Text → Answer} {name : Text} {config : DnsRouteConfig}
variable {server : IpAddr} {rest : List IpAddr}

theorem declines_servers (hserves : Serves how config ask name) (hroutes : routes config name = false) :
    ∀ server ∈ config.servers.map IpAddr.display, how.declines (ask server) := by
  intro server hserver
  obtain ⟨ip, hip, rfl⟩ := List.mem_map.mp hserver
  exact (hserves ip hip).mpr hroutes

theorem not_declines_first (hserves : Serves how config ask name) (hservers : config.servers = server :: rest)
    (hroutes : routes config name = true) : ¬ how.declines (ask server.display) := by
  intro hdeclines
  rw [hserves server (by rw [hservers]; exact List.mem_cons_self), hroutes] at hdeclines
  contradiction

theorem lookup_servers {limit : Nat} (hturn : InTurn how.declines limit how.nameservers)
    (hserves : Serves how config ask name) (hservers : config.servers = server :: rest) {existing : List Text}
    (hne : existing ≠ []) (hroom : config.servers.length + existing.length ≤ limit) :
    how.nameservers ask (config.servers.map IpAddr.display ++ existing) =
      if routes config name then ask server.display else how.nameservers ask existing := by
  cases hroutes : routes config name with
  | true =>
    have hfirst := not_declines_first hserves hservers hroutes
    rw [hservers, List.map_cons, List.cons_append, hturn.settled hfirst, if_pos rfl]
  | false =>
    have hlimit : (config.servers.map IpAddr.display ++ existing).length ≤ limit := by
      rwa [List.length_append, List.length_map]
    rw [hturn.skip (declines_servers hserves hroutes) hne hlimit, if_neg Bool.false_ne_true]

theorem covers_pushed {n : Nat} : Covers (pushed config) name n ↔
    ∃ domain ∈ config.routingDomains, labels domain <:+ labels name ∧ (labels domain).length = n := by
  simp only [Covers, pushed, List.mem_map, exists_exists_and_eq_and]

theorem routes_of_covers {n : Nat} (h : Covers (pushed config) name n) : routes config name = true := by
  obtain ⟨domain, hdomain, hsuffix, -⟩ := covers_pushed.mp h
  exact List.any_eq_true.mpr ⟨domain, hdomain, (matchesSuffix_iff _ _).mpr hsuffix⟩

theorem unrelated_blank (name : Text) : Unrelated blank name :=
  ⟨fun _ ⟨_, hdomain, _⟩ => absurd hdomain List.not_mem_nil, .inl rfl⟩

theorem unrelated_pushed (hdomains : config.routingDomains ≠ []) (hroutes : routes config name = false) :
    Unrelated (pushed config) name := by
  refine ⟨fun n hcovers => ?_, .inr ?_⟩
  · obtain ⟨domain, hdomain, hsuffix, -⟩ := covers_pushed.mp hcovers
    rw [routes, List.any_eq_false] at hroutes
    exact hroutes domain hdomain ((matchesSuffix_iff _ _).mpr hsuffix)
  · obtain ⟨domain, rest, hrest⟩ := List.exists_cons_of_ne_nil hdomains
    refine ⟨(domain, true), ?_, rfl⟩
    rw [pushed, hrest]
    exact List.mem_cons_self

section Longest

theorem encodeAddr_injective : Function.Injective encodeAddr := by
  rintro (⟨octets, hlen⟩ | ⟨octets, hlen⟩) (⟨octets', hlen'⟩ | ⟨octets', hlen'⟩) h
  · obtain rfl := congrArg Prod.snd h
    rfl
  · exact absurd (congrArg Prod.fst h) (show afInet ≠ afInet6 by decide)
  · exact absurd (congrArg Prod.fst h) (show afInet6 ≠ afInet by decide)
  · obtain rfl := congrArg Prod.snd h
    rfl

variable {links links' : Links}

/-- The first server of the link with the longest domain. -/
def Leads (links : Links) (name : Text) (server : IpAddr) : Prop :=
  ∃ link rest n, (links link).dns = (server :: rest).map encodeAddr ∧ Covers (links link) name n ∧
    ∀ q, q ≠ link → ∀ k, Covers (links q) name k → k < n

theorem leads_unique {server' : IpAddr} (h : Leads links name server) (h' : Leads links name server') :
    server = server' := by
  obtain ⟨link, rest, n, hdns, hcovers, hless⟩ := h
  obtain ⟨link', rest', n', hdns', hcovers', hless'⟩ := h'
  have hsame : link = link' := by
    by_contra hne
    have hlt := hless link' (Ne.symm hne) n' hcovers'
    have hgt := hless' link hne n hcovers
    omega
  subst hsame
  rw [hdns'] at hdns
  exact encodeAddr_injective (List.cons.inj hdns).1.symm

theorem leads_of_unrelated
    (h : ∀ q, links q = links' q ∨ Unrelated (links q) name ∧ Unrelated (links' q) name)
    (hleads : Leads links name server) : Leads links' name server := by
  obtain ⟨link, rest, n, hdns, hcovers, hless⟩ := hleads
  have hsame : links link = links' link := (h link).resolve_right fun hun => hun.1.1 n hcovers
  refine ⟨link, rest, n, by rwa [← hsame], by rwa [← hsame], fun q hq k hk => ?_⟩
  obtain he | hun := h q
  · rw [← he] at hk
    exact hless q hq k hk
  · exact absurd hk (hun.2.1 k)

open Classical in
/-- A lookup that goes by the longest domain, down to what it says where there is none. -/
noncomputable def byLongest (failed : Answer) (ask : Text → Answer) (links : Links) (name : Text) : Answer :=
  if h : ∃ server, Leads links name server then ask h.choose.display else failed

theorem byDomain_byLongest (declines : Answer → Prop) (failed : Answer) :
    ByDomain declines (byLongest failed) where
  routed {ask links name link server rest n} hdns hcovers hless _ := by
    have hleads : Leads links name server := ⟨link, rest, n, hdns, hcovers, hless⟩
    have h : ∃ server, Leads links name server := ⟨server, hleads⟩
    rw [byLongest, dif_pos h, leads_unique h.choose_spec hleads]
  unrelated {ask links links' name} h := by
    have hsymm (q : ObjectPath) : links' q = links q ∨ Unrelated (links' q) name ∧ Unrelated (links q) name :=
      (h q).imp Eq.symm And.symm
    have hleads : Leads links name = Leads links' name :=
      funext fun server => propext ⟨leads_of_unrelated h, leads_of_unrelated hsymm⟩
    rw [byLongest, byLongest, hleads]

end Longest

theorem answers_resolved (hserves : Serves how config ask name) (hservers : config.servers = server :: rest)
    (hdomains : config.routingDomains ≠ []) {link : ObjectPath} {m : World} (b : SystemdResolved)
    (hblank : m.links link = blank) (hready : Ready how name link config m (.SystemdResolved b)) :
    answers how ask name (ChainRuns.inPlace link m config (.SystemdResolved b)) (.SystemdResolved b) =
      if routes config name then ask server.display else answers how ask name m (.SystemdResolved b) := by
  obtain ⟨_, hlinks, hbest⟩ := hready
  have hself : Function.update m.links link (pushed config) link = pushed config := Function.update_self ..
  have hother {q : ObjectPath} (hq : q ≠ link) :
      Function.update m.links link (pushed config) q = m.links q := Function.update_of_ne hq ..
  change how.links ask (Function.update m.links link (pushed config)) name = _
  cases hroutes : routes config name with
  | true =>
    obtain ⟨n, hcovers, hless⟩ := hbest hroutes
    have hdns : (Function.update m.links link (pushed config) link).dns = (server :: rest).map encodeAddr := by
      rw [hself, pushed, hservers]
    rw [if_pos rfl]
    refine hlinks.routed hdns (by rwa [hself]) (fun q hq k hk => hless q hq k ?_)
      (not_declines_first hserves hservers hroutes)
    rwa [hother hq] at hk
  | false =>
    rw [if_neg Bool.false_ne_true]
    refine hlinks.unrelated fun q => ?_
    by_cases hq : q = link
    · rw [hq, hself, hblank]
      exact .inr ⟨unrelated_pushed hdomains hroutes, unrelated_blank name⟩
    · exact .inl (hother hq)

theorem answers_resolvconf (hserves : Serves how config ask name) (hservers : config.servers = server :: rest)
    {link : ObjectPath} {m : World} (b : ResolvconfBackend.Resolvconf)
    (hnone : m.processes.records b.registrationName = none)
    (hready : Ready how name link config m (.Resolvconf b)) (htun : isTun b.registrationName = true) :
    answers how ask name (ChainRuns.inPlace link m config (.Resolvconf b)) (.Resolvconf b) =
      if routes config name then ask server.display else answers how ask name m (.Resolvconf b) := by
  obtain - | ⟨_, limit, hturn, hlists, hrivals, hne, hroom⟩ := hready
  have hmem : b.registrationName ∈ how.order := hlists.complete _ (by rw [Function.update_self]; rfl)
  obtain ⟨back, hback⟩ := merged_update hlists.nodup hmem m.processes.records
  rw [← rivals_eq hlists htun hmem, hrivals] at hback
  have hbefore : merged how.order m.processes.records = merged back m.processes.records := by
    have hupdate := hback none
    rwa [← hnone, Function.update_eq_self, hnone] at hupdate
  have hafter : merged how.order (Function.update m.processes.records b.registrationName
      (some (config.servers.map IpAddr.display))) =
      config.servers.map IpAddr.display ++ merged how.order m.processes.records := by
    rw [hback, hbefore]
    rfl
  change how.nameservers ask (merged how.order (Function.update m.processes.records b.registrationName
    (some (config.servers.map IpAddr.display)))) = _
  rw [hafter, lookup_servers hturn hserves hservers hne hroom, answers]

theorem answers_static (hserves : Serves how config ask name) (hservers : config.servers = server :: rest)
    {link : ObjectPath} {m : World} (b : StaticResolvConf) (howner : '\n' ∉ b.owner)
    (hdomains : config.routingDomains ≠ []) (hready : Ready how name link config m (.StaticResolvConf b)) :
    answers how ask name (ChainRuns.inPlace link m config (.StaticResolvConf b)) (.StaticResolvConf b) =
      if routes config name then ask server.display
      else answers how ask name m (.StaticResolvConf b) := by
  obtain - | - | ⟨_, limit, hturn, hreads, hne, hroom⟩ := hready
  have hfile : (ChainRuns.inPlace link m config (.StaticResolvConf b)).files b.path =
      some (encode (render b.owner config ((m.files b.path).getD []))) := FileSystem.put_self ..
  rw [answers, hfile, Option.getD_some, nameserverLines_render howner, rendered, if_pos hdomains,
    hreads.read, lookup_servers hturn hserves hservers hne hroom, answers]

end Lookups

section Host

open DnsAnnounce.Runs DnsAnnounce.Chain DnsAnnounce.ChainProbe DnsAnnounce.ChainRuns

variable {Answer : Type}

theorem answers_inPlace {s : Surroundings} {owner : Text} {files : FileSystem.Fs} {link : ObjectPath} {m : World}
    {b : Chain.Backend} (hfresh : Fresh s owner files b) (hclean : Clean link m b) {config : DnsRouteConfig}
    (hdomains : config.routingDomains ≠ []) {server : IpAddr} {rest : List IpAddr}
    (hservers : config.servers = server :: rest) {how : Resolving Answer} {ask : Text → Answer} {name : Text}
    (hready : Ready how name link config m b) (hserves : Serves how config ask name) :
    answers how ask name (ChainRuns.inPlace link m config b) b =
      if routes config name then ask server.display else answers how ask name m b := by
  cases hclean with
  | systemdResolved b hblank => exact answers_resolved hserves hservers hdomains b hblank hready
  | resolvconf b hidle hnone =>
    have htun : isTun b.registrationName = true := by
      cases hfresh
      exact isTun_registrationName owner
    exact answers_resolvconf hserves hservers b hnone hready htun
  | staticResolvConf b hone => exact answers_static hserves hservers b hone.1 hdomains hready

/-- Conditional forwarding, whichever backend `probe()` picks and whatever calls and
restarts there were: the first server answers for the routing domains of the
configuration in place, and every other name is looked up as before. -/
theorem forwards_conditionally (s : Surroundings) (owner : Text) (net : Net) (link : ObjectPath) (m : World)
    (hclean : Clean link m (started s owner net m).1.backend) (events : List Event)
    (ht : ∀ e ∈ events, Targets net link (started s owner net m).1.backend e) (config : DnsRouteConfig)
    (hplace : (run (intend (remembers (started s owner net m).1.backend)) .start events).inPlace = some config)
    (hdomains : config.routingDomains ≠ []) {server : IpAddr} {rest : List IpAddr}
    (hservers : config.servers = server :: rest) (how : Resolving Answer) (ask : Text → Answer) (name : Text)
    (hready : Ready how name link config m (started s owner net m).1.backend)
    (hserves : Serves how config ask name) :
    answers how ask name (run (step s owner net) (started s owner net m) events).2
        (started s owner net m).1.backend =
      if routes config name then ask server.display
      else answers how ask name m (started s owner net m).1.backend := by
  have hworld := (carries_run hclean ht).world
  rw [hplace] at hworld
  rw [hworld]
  exact answers_inPlace (fresh_started s owner net m) hclean hdomains hservers hready hserves

abbrev Heard (Content : Type) := Option (RCODE × Content)

def passes {Content : Type} : Heard Content → Bool
  | none => true
  | some (rcode, _) => rcode = .Refused ∨ rcode = .ServerFailure

noncomputable def threeInTurn (Content : Type) (order : List Text) : Resolving (Heard Content) where
  declines heard := passes heard = true
  nameservers ask servers := askInTurn passes none ask (servers.take 3)
  links := byLongest none
  order := order

theorem inTurn_three (Content : Type) (order : List Text) :
    InTurn (threeInTurn Content order).declines 3 (threeInTurn Content order).nameservers where
  settled hsettled rest := (inTurn_askInTurn passes none 3).settled hsettled (rest.take 2)
  declined {ask server} hdeclined {rest} hrest hlimit := by
    have htake : ((server :: rest).take 3 : List Text) = server :: rest.take 3 := by
      rw [List.take_of_length_le (by rw [List.length_cons]; omega), List.take_of_length_le (by omega)]
    change askInTurn passes none ask ((server :: rest).take 3) = _
    rw [htake]
    exact if_pos hdeclined

def heardFrom (name server : Text) : Heard Text :=
  some (if server = "10.0.0.1".toList ∧ routes vpnConfig name = false then .Refused else .NoError, server)

theorem serves_of_all {Content : Type} {order : List Text} {config : DnsRouteConfig}
    {ask : Text → Heard Content} {name : Text}
    (h : config.servers.all (fun server => passes (ask server.display) == !routes config name) = true) :
    Serves (threeInTurn Content order) config ask name := by
  intro server hserver
  have hserver := beq_iff_eq.mp (List.all_eq_true.mp h server hserver)
  change passes (ask server.display) = true ↔ _
  rw [hserver, Bool.not_eq_true']

theorem ready_bare : Ready (threeInTurn Text []) "www.example.org".toList [] vpnConfig plainWorld
    (.StaticResolvConf (opened "vpn".toList StaticRestore.resolvConf plainWorld.files)) := by
  rw [opened_eq]
  exact .staticResolvConf _ 3 (inTurn_three Text []) (readsLines_of_read (by decide +kernel))
    (by decide +kernel) (by decide +kernel)

def resolvedHost : Surroundings :=
  { openresolvHost with
    readLink := fun _ => some "/run/systemd/resolve/stub-resolv.conf".toList
    systemBus := .ok () }

theorem started_resolved (owner : Text) (net : Net) (m : World) : started resolvedHost owner net m =
    (⟨.SystemdResolved ⟨none⟩⟩, m) := by
  have hpoints : resolvConfPointsAtResolved resolvedHost.readLink "/etc/resolv.conf".toList = true := by
    decide +kernel
  have hprobe : ResolvedBackend.probe resolvedHost.readLink resolvedHost.systemBus = .ok ⟨none⟩ := by
    rw [ResolvedBackend.probe, probeWithResolvConf, hpoints]
    rfl
  rw [started, Chain.probe, show resolvedHost.overrideVar = none from rfl]
  dsimp only
  rw [autoDetect, hprobe]
  rfl

theorem ready_resolved (link : ObjectPath) :
    Ready (threeInTurn Text []) "www.vpn.example".toList link vpnConfig plainWorld
      (.SystemdResolved ⟨none⟩) := by
  refine .systemdResolved _ (byDomain_byLongest _ none) fun _ => ⟨2, ?_, fun q _ k hk => ?_⟩
  · exact covers_pushed.mpr ⟨"vpn.example".toList, by decide +kernel, by decide +kernel, by decide +kernel⟩
  · exact absurd hk ((unrelated_blank _).1 k)

noncomputable def found (s : Surroundings) (name : Text) : Heard Text :=
  answers (threeInTurn Text []) (heardFrom name) name
    (run (step s "vpn".toList ResolvedLinks.twoLinks) (started s "vpn".toList ResolvedLinks.twoLinks plainWorld)
      [.request (.set "wg0".toList vpnConfig), .restart]).2
    (started s "vpn".toList ResolvedLinks.twoLinks plainWorld).1.backend

theorem inside_and_elsewhere :
    found resolvedHost "www.vpn.example".toList = some (.NoError, "10.0.0.1".toList) ∧
      found bareHost "www.example.org".toList = some (.NoError, "9.9.9.9".toList) := by
  constructor
  · obtain ⟨link, hlink⟩ : ∃ link, ResolvedLinks.linkOf ResolvedLinks.twoLinks "wg0".toList = some link :=
      Option.isSome_iff_exists.mp (by decide +kernel)
    have hbackend := congrArg (fun st : LinuxDnsRoute × World => st.1.backend)
      (started_resolved "vpn".toList ResolvedLinks.twoLinks plainWorld)
    refine (forwards_conditionally resolvedHost "vpn".toList ResolvedLinks.twoLinks link plainWorld
      ?_ _ ?_ vpnConfig ?_ (by decide) rfl (threeInTurn Text []) (heardFrom _) _ ?_
      (serves_of_all (by decide +kernel))).trans (if_pos (by decide +kernel))
    · rw [hbackend]
      exact .systemdResolved _ rfl
    · rintro e (_ | ⟨_, _ | ⟨_, ⟨⟩⟩⟩)
      · exact .link _ _ _ hlink
      · exact .restart _
    · rw [hbackend]
      rfl
    · rw [hbackend]
      exact ready_resolved _
  · refine (forwards_conditionally bareHost "vpn".toList ResolvedLinks.twoLinks [] plainWorld (clean_bare _) _
      (fun e _ => targets_bare _ _ e) vpnConfig ?_ (by decide) rfl (threeInTurn Text []) (heardFrom _) _ ?_
      (serves_of_all (by decide +kernel))).trans ?_
    · rw [backend_bare]
      rfl
    · rw [backend_bare]
      exact ready_bare
    · rw [backend_bare, opened_eq]
      decide +kernel

end Host

end DnsAnnounce.Forwarding
