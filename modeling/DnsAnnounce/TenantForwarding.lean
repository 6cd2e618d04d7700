import DnsAnnounce.Forwarding
import DnsAnnounce.Tenants

namespace DnsAnnounce.TenantForwarding

open DnsAnnounce.Utf8 DnsAnnounce.Address DnsAnnounce.Route DnsAnnounce.Failover DnsAnnounce.BackendAgreement
open DnsAnnounce.Forwarding DnsAnnounce.Chain DnsAnnounce.ChainRuns DnsAnnounce.Interleave DnsAnnounce.Recovery
open DnsAnnounce.Tenants
open DnsAnnounce.ResolvedBackend (Net ObjectPath blank pushed encodeAddr)

variable {ι Answer : Type} (b : ι → Backend) (link : ι → ObjectPath) (place : ι → Option DnsRouteConfig)

/-- The host with the configurations of several applications in place. -/
structure Holds (m w : World) : Prop where
  links : ∀ i r, b i = .SystemdResolved r → w.links (link i) = (place i).elim blank pushed
  otherLinks : ∀ q, (∀ i r, b i = .SystemdResolved r → q ≠ link i) → w.links q = m.links q
  records : ∀ i r, b i = .Resolvconf r →
    w.processes.records r.registrationName = (place i).map serversOf
  otherRecords : ∀ name, (∀ i r, b i = .Resolvconf r → name ≠ r.registrationName) →
    w.processes.records name = m.processes.records name

/-- As `Ready`, for several applications that use one backend: with `resolvconf(8)`
there is no `tun*` record but theirs. -/
inductive ReadyForAll (how : Resolving Answer) (m w : World) : Backend → Prop
  | systemdResolved (r : ResolvedBackend.SystemdResolved) : (∀ i, ∃ r, b i = .SystemdResolved r) →
    ByDomain how.declines how.links → ReadyForAll how m w (.SystemdResolved r)
  | resolvconf (r : ResolvconfBackend.Resolvconf) (limit : Nat) : InTurn how.declines limit how.nameservers →
    Lists how.order w.processes.records →
    (∀ q ∈ how.order, isTun q = true → ∃ i r, b i = .Resolvconf r ∧ q = r.registrationName) →
    merged how.order m.processes.records ≠ [] →
    (merged how.order w.processes.records).length ≤ limit → ReadyForAll how m w (.Resolvconf r)

/-- With systemd-resolved one application's domains cover the name better than all
others; with `resolvconf(8)` no other application routes it. -/
inductive Prevails (m : World) (name : Text) (i : ι) (config : DnsRouteConfig) : Backend → Prop
  | systemdResolved (r : ResolvedBackend.SystemdResolved) (n : Nat) : Covers (pushed config) name n →
    (∀ j, j ≠ i → ∀ c, place j = some c → ∀ k, Covers (pushed c) name k → k < n) →
    (∀ q, (∀ j, q ≠ link j) → ∀ k, Covers (m.links q) name k → k < n) →
    Prevails m name i config (.SystemdResolved r)
  | resolvconf (r : ResolvconfBackend.Resolvconf) : routes config name = true →
    (∀ j, j ≠ i → ∀ c, place j = some c → routes c name = false) →
    Prevails m name i config (.Resolvconf r)

section Held

variable {b link place} {how : Resolving Answer} {m w : World} {ask : Text → Answer} {name : Text}

section Links

theorem unrelated_place {config : Option DnsRouteConfig}
    (hdomains : ∀ c, config = some c → c.routingDomains ≠ [])
    (h : ∀ c, config = some c → routes c name = false) : Unrelated (config.elim blank pushed) name := by
  cases config with
  | none => exact unrelated_blank name
  | some c => exact unrelated_pushed (hdomains c rfl) (h c rfl)

theorem outside_links (hlookup : ByDomain how.declines how.links) (h : Holds b link place m w)
    (hall : ∀ i, ∃ r, b i = .SystemdResolved r) (hblank : ∀ i, m.links (link i) = blank)
    (hdomains : ∀ i c, place i = some c → c.routingDomains ≠ [])
    (hnone : ∀ i c, place i = some c → routes c name = false) (r : ResolvedBackend.SystemdResolved) :
    answers how ask name w (.SystemdResolved r) = answers how ask name m (.SystemdResolved r) := by
  refine hlookup.unrelated fun q => ?_
  by_cases hq : ∃ i, q = link i
  · obtain ⟨i, rfl⟩ := hq
    obtain ⟨r, hr⟩ := hall i
    rw [h.links i r hr, hblank]
    exact .inr ⟨unrelated_place (hdomains i) (hnone i), unrelated_blank name⟩
  · exact .inl (h.otherLinks q fun i _ _ => not_exists.mp hq i)

theorem inside_links (hlookup : ByDomain how.declines how.links) (h : Holds b link place m w)
    (hall : ∀ i, ∃ r, b i = .SystemdResolved r) {i : ι} {config : DnsRouteConfig}
    (hplace : place i = some config) {n : Nat} (hcovers : Covers (pushed config) name n)
    (hothers : ∀ j, j ≠ i → ∀ c, place j = some c → ∀ k, Covers (pushed c) name k → k < n)
    (hless : ∀ q, (∀ j, q ≠ link j) → ∀ k, Covers (m.links q) name k → k < n)
    (hserves : Serves how config ask name) {server : IpAddr} {rest : List IpAddr}
    (hservers : config.servers = server :: rest) (r : ResolvedBackend.SystemdResolved) :
    answers how ask name w (.SystemdResolved r) = ask server.display := by
  have hstate {j : ι} : w.links (link j) = (place j).elim blank pushed := by
    obtain ⟨r, hr⟩ := hall j
    exact h.links j r hr
  have hself : w.links (link i) = pushed config := by rw [hstate, hplace, Option.elim_some]
  have hdns : (w.links (link i)).dns = (server :: rest).map encodeAddr := by rw [hself, pushed, hservers]
  refine hlookup.routed hdns (by rwa [hself]) (fun q hq k hk => ?_)
    (not_declines_first hserves hservers (routes_of_covers hcovers))
  by_cases hj : ∃ j, q = link j
  · obtain ⟨j, rfl⟩ := hj
    rw [hstate] at hk
    cases hc : place j with
    | none =>
      rw [hc] at hk
      exact absurd hk ((unrelated_blank name).1 k)
    | some c =>
      rw [hc] at hk
      exact hothers j (fun hj => hq (congrArg link hj)) c hc k hk
  · have hj := not_exists.mp hj
    rw [h.otherLinks q fun j _ _ => hj j] at hk
    exact hless q hj k hk

end Links

section Records

theorem declines_place {config : Option DnsRouteConfig}
    (hserves : ∀ c, config = some c → Serves how c ask name)
    (h : ∀ c, config = some c → routes c name = false) :
    ∀ server ∈ (config.map serversOf).getD [], how.declines (ask server) := by
  cases config with
  | none => exact fun server hserver => absurd hserver List.not_mem_nil
  | some c => exact declines_servers (hserves c rfl) (h c rfl)

variable {limit : Nat} (hturn : InTurn how.declines limit how.nameservers) (h : Holds b link place m w)
  (hnames : ∀ i r, b i = .Resolvconf r → isTun r.registrationName = true)
  (hlists : Lists how.order w.processes.records)
  (htun : ∀ q ∈ how.order, isTun q = true → ∃ i r, b i = .Resolvconf r ∧ q = r.registrationName)
  (hroom : (merged how.order w.processes.records).length ≤ limit)
  (hserves : ∀ i c, place i = some c → Serves how c ask name)

include hturn h hnames hlists htun hroom hserves

theorem outside_records (hclean : ∀ i r, b i = .Resolvconf r → m.processes.records r.registrationName = none)
    (hne : merged how.order m.processes.records ≠ [])
    (hnone : ∀ i c, place i = some c → routes c name = false) (r : ResolvconfBackend.Resolvconf) :
    answers how ask name w (.Resolvconf r) = answers how ask name m (.Resolvconf r) := by
  let tuns := how.order.filter (isTun ·)
  let others := how.order.filter fun q => !isTun q
  have horder : how.order = tuns ++ others := order_eq hlists.tunFirst
  have hbefore : merged tuns m.processes.records = [] := by
    refine List.flatMap_eq_nil_iff.mpr fun q hq => ?_
    obtain ⟨hmem, hq⟩ := List.mem_filter.mp hq
    obtain ⟨i, r, hr, rfl⟩ := htun q hmem hq
    rw [hclean i r hr]
    rfl
  have hsame : merged others w.processes.records = merged others m.processes.records := by
    refine List.flatMap_congr fun q hq => ?_
    have hq : isTun q = false := by simpa using (List.mem_filter.mp hq).2
    rw [h.otherRecords q fun i r hr he => by rw [he, hnames i r hr] at hq; contradiction]
  have hdeclined : ∀ server ∈ merged tuns w.processes.records, how.declines (ask server) := by
    intro server hserver
    obtain ⟨q, hq, hserver⟩ := List.mem_flatMap.mp hserver
    obtain ⟨hmem, hq⟩ := List.mem_filter.mp hq
    obtain ⟨i, r, hr, rfl⟩ := htun q hmem hq
    rw [h.records i r hr] at hserver
    exact declines_place (hserves i) (hnone i) server hserver
  rw [horder, merged_append, hbefore, List.nil_append] at hne
  rw [horder, merged_append, hsame] at hroom
  rw [answers, answers, horder, merged_append, merged_append, hbefore, hsame,
    hturn.skip hdeclined hne hroom, List.nil_append]

theorem inside_records {i : ι} {r : ResolvconfBackend.Resolvconf} (hr : b i = .Resolvconf r)
    {config : DnsRouteConfig} (hplace : place i = some config) (hroutes : routes config name = true)
    (hothers : ∀ j, j ≠ i → ∀ c, place j = some c → routes c name = false) {server : IpAddr}
    {rest : List IpAddr} (hservers : config.servers = server :: rest) (r' : ResolvconfBackend.Resolvconf) :
    answers how ask name w (.Resolvconf r') = ask server.display := by
  have hrecord : w.processes.records r.registrationName = some (serversOf config) := by
    rw [h.records i r hr, hplace]
    rfl
  have hmem : r.registrationName ∈ how.order := hlists.complete _ (by rw [hrecord]; rfl)
  obtain ⟨back, horder, hfront, -⟩ := split_at_name hlists.nodup hmem
  have hrivals := rivals_eq hlists (hnames i r hr) hmem
  rw [← hrivals] at horder hfront
  -- What is in front of the record belongs to the others, who do not route the name.
  have hdeclined : ∀ server ∈ merged (rivals how.order r.registrationName) w.processes.records,
      how.declines (ask server) := by
    intro server hserver
    obtain ⟨q, hq, hserver⟩ := List.mem_flatMap.mp hserver
    have hqorder : q ∈ how.order := by
      rw [horder]
      exact List.mem_append_left _ hq
    obtain ⟨j, r'', hj, rfl⟩ := htun q hqorder (List.mem_filter.mp hq).2
    have hne : j ≠ i := by
      rintro rfl
      obtain rfl := Backend.Resolvconf.inj (hj.symm.trans hr)
      exact hfront hq
    rw [h.records j r'' hj] at hserver
    exact declines_place (hserves j) (hothers j hne) server hserver
  have hmerged : merged how.order w.processes.records =
      merged (rivals how.order r.registrationName) w.processes.records ++
        (server.display :: (rest.map IpAddr.display ++ merged back w.processes.records)) := by
    conv_lhs => rw [horder]
    rw [merged_append, merged_cons, hrecord, Option.getD_some, serversOf, hservers]
    rfl
  rw [hmerged] at hroom
  rw [answers, hmerged, hturn.skip hdeclined (List.cons_ne_nil _ _) hroom,
    hturn.settled (not_declines_first (hserves i config hplace) hservers hroutes)]

end Records

end Held

section Together

variable {net : Net} {m : World} {tenants : ι → Tenant} [DecidableEq ι] {link : ι → ObjectPath}
variable {theirs : FileSystem.PathBuf → Prop} {turns : List (ι × Turn theirs)}

section Found

variable {t : Tenant} {q : ObjectPath} {own : List (Turn theirs)}

theorem blank_of_unfailing (h : Unfailing net q m t own) {r : ResolvedBackend.SystemdResolved}
    (hr : t.backend net m = .SystemdResolved r) : m.links q = blank := by
  have hclean := h.clean
  rw [hr] at hclean
  obtain ⟨_, hblank⟩ := hclean
  exact hblank

theorem unregistered_of_unfailing (h : Unfailing net q m t own) {r : ResolvconfBackend.Resolvconf}
    (hr : t.backend net m = .Resolvconf r) : m.processes.records r.registrationName = none := by
  have hclean := h.clean
  rw [hr] at hclean
  obtain - | ⟨_, -, hnone⟩ := hclean
  exact hnone

theorem isTun_backend {r : ResolvconfBackend.Resolvconf} (hr : t.backend net m = .Resolvconf r) :
    isTun r.registrationName = true := by
  have hfresh := fresh_started t.surroundings t.owner net m
  rw [Tenant.backend] at hr
  rw [hr] at hfresh
  cases hfresh
  exact isTun_registrationName _

end Found

theorem holds_together (h : Coexist theirs net (fun i q => q = link i) m tenants)
    (hunfailing : ∀ i, Unfailing net (link i) m (tenants i) (turnsOf i turns)) (i : ι) :
    Holds (fun j => (tenants j).backend net m) link (fun j => (tenants j).inPlace net m) m
      ((hostOf i).get (together net tenants m turns).shared) where
  links j r hb := by
    have hblank := blank_of_unfailing (hunfailing j) hb
    have halike := (hunfailing j).alike h
    rw [hb] at halike
    obtain ⟨_, _, _, hlinks⟩ := halike
    refine (hlinks (link j) rfl).trans ?_
    rw [links_overridden hblank]
    exact Function.update_self ..
  otherLinks q hq := (h.elsewhere turns).links q hq
  records j r hb := by
    have hclean := (hunfailing j).clean
    have halike := (hunfailing j).alike h
    rw [hb] at hclean halike
    obtain - | ⟨_, _, _, hrun⟩ := halike
    refine hrun.record.trans ?_
    rw [processes_overridden hclean]
    exact Function.update_self ..
  otherRecords name hname := (h.elsewhere turns).records name hname

/-- Conditional forwarding for several applications at once, in whatever order their
calls have come: a name is looked up where its best routing domain says, and as before
where none covers it. -/
theorem forwards_to_each (h : Coexist theirs net (fun i q => q = link i) m tenants)
    (hunfailing : ∀ i, Unfailing net (link i) m (tenants i) (turnsOf i turns)) (how : Resolving Answer) (i : ι)
    (hready : ReadyForAll (fun j => (tenants j).backend net m) how m
      ((hostOf i).get (together net tenants m turns).shared) ((tenants i).backend net m))
    (ask : Text → Answer) (name : Text)
    (hdomains : ∀ j c, (tenants j).inPlace net m = some c → c.routingDomains ≠ [])
    (hserves : ∀ j c, (tenants j).inPlace net m = some c → Serves how c ask name) :
    let b := (tenants i).backend net m
    let w := (hostOf i).get (together net tenants m turns).shared
    ((∀ j c, (tenants j).inPlace net m = some c → routes c name = false) →
      answers how ask name w b = answers how ask name m b) ∧
    ∀ config server rest, (tenants i).inPlace net m = some config → config.servers = server :: rest →
      Prevails link (fun j => (tenants j).inPlace net m) m name i config b →
        answers how ask name w b = ask (IpAddr.display server) := by
  intro b w
  have hholds := holds_together h hunfailing i
  change ReadyForAll _ how m w b at hready
  generalize hb : b = picked at hready ⊢
  cases hready with
  | systemdResolved r hall hlookup =>
    have hblank (j : ι) : m.links (link j) = blank := by
      obtain ⟨r, hr⟩ := hall j
      exact blank_of_unfailing (hunfailing j) hr
    refine ⟨fun hnone => outside_links hlookup hholds hall hblank hdomains hnone r, ?_⟩
    intro config server rest hplace hservers hprevails
    obtain ⟨_, n, hcovers, hothers, hless⟩ := hprevails
    exact inside_links hlookup hholds hall hplace hcovers hothers hless (hserves i config hplace) hservers r
  | resolvconf r limit hturn hlists htun hne hroom =>
    have hclean (j : ι) (r : ResolvconfBackend.Resolvconf) (hr : (tenants j).backend net m = .Resolvconf r) :=
      unregistered_of_unfailing (hunfailing j) hr
    have hnames (j : ι) (r : ResolvconfBackend.Resolvconf) (hr : (tenants j).backend net m = .Resolvconf r) :=
      isTun_backend hr
    refine ⟨fun hnone => outside_records hturn hholds hnames hlists htun hroom hserves hclean hne hnone r, ?_⟩
    intro config server rest hplace hservers hprevails
    obtain - | ⟨_, hroutes, hothers⟩ := hprevails
    exact inside_records hturn hholds hnames hlists htun hroom hserves hb hplace hroutes hothers hservers r

section Sample

open DnsAnnounce.StaticRestore (resolvConf)

def places : Bool → DnsRouteConfig
  | true => vpnConfig
  | false => labConfig

def recordOrder : List Text := ["tun-vpn-a".toList, "tun-vpn-b".toList, "eth0".toList]

def uplinkWorld : World := { plainWorld with processes := .idle uplink }

theorem inPlace_sideBySide (net : Net) (m : World) (i : Bool) :
    (sideBySide i).inPlace net m = some (places i) := by
  rw [Tenant.inPlace, backend_sideBySide]
  cases i <;> rfl

theorem names_sideBySide (i : Bool) : (sideBySideTunnels i).registrationName ∈ recordOrder := by
  revert i
  decide +kernel

theorem records_sideBySide {w : World}
    (h : Holds (fun i => (sideBySide i).backend ResolvedLinks.twoLinks uplinkWorld) (fun _ => [])
      (fun i => (sideBySide i).inPlace ResolvedLinks.twoLinks uplinkWorld) uplinkWorld w) :
    Lists recordOrder w.processes.records ∧ merged recordOrder w.processes.records =
      ["10.0.0.1".toList, "10.1.0.1".toList, "9.9.9.9".toList] := by
  have hrecord (i : Bool) : w.processes.records (sideBySideTunnels i).registrationName =
      some (serversOf (places i)) := by
    have hr := h.records i _ (backend_sideBySide _ _ i)
    rwa [inPlace_sideBySide] at hr
  have hother (q : Text) (hq : ∀ i, q ≠ (sideBySideTunnels i).registrationName) :
      w.processes.records q = uplink q := by
    refine h.otherRecords q fun i r hr => ?_
    rw [backend_sideBySide] at hr
    rw [← Backend.Resolvconf.inj hr]
    exact hq i
  have ha : w.processes.records "tun-vpn-a".toList = some ["10.0.0.1".toList] := hrecord true
  have hb : w.processes.records "tun-vpn-b".toList = some ["10.1.0.1".toList] := hrecord false
  have heth : w.processes.records "eth0".toList = some ["9.9.9.9".toList] := hother _ (by decide +kernel)
  refine ⟨⟨by decide +kernel, fun q hq => ?_, by decide +kernel⟩, ?_⟩
  · by_contra hnot
    rw [hother q fun i hi => hnot (hi ▸ names_sideBySide i), uplink,
      Function.update_of_ne fun he => hnot (by rw [he]; decide +kernel)] at hq
    cases hq
  · rw [recordOrder, merged_cons, merged_cons, merged_cons, ha, hb, heth]
    rfl

def alternating : List (Bool × Turn (· = resolvConf)) :=
  [true, false, true, false, true, false].map (·, regenerating calm)

theorem unfailing_sideBySide (i : Bool) :
    Unfailing ResolvedLinks.twoLinks [] uplinkWorld (sideBySide i) (turnsOf i alternating) where
  clean := by
    rw [backend_sideBySide]
    refine .resolvconf _ rfl ?_
    cases i <;> decide +kernel
  targets := by
    rw [backend_sideBySide]
    exact fun e _ => .anywhere _ e nofun
  calm := by cases i <;> simp [alternating, turnsOf, regenerating]
  enough := by
    cases i
    · decide +kernel
    · decide +kernel

def askedLab (server : Text) : Heard Text :=
  some (if server = "10.1.0.1".toList then .NoError else .Refused, server)

theorem serves_askedLab (i : Bool) :
    Serves (threeInTurn Text recordOrder) (places i) askedLab "www.lab.example".toList :=
  serves_of_all (by revert i; decide +kernel)

/-- The lab's names get to the lab, though the VPN's nameserver is listed first. -/
theorem lab_found :
    answers (threeInTurn Text recordOrder) askedLab "www.lab.example".toList
      ((hostOf false).get (together ResolvedLinks.twoLinks sideBySide uplinkWorld alternating).shared)
      ((sideBySide false).backend ResolvedLinks.twoLinks uplinkWorld) =
        some (.NoError, "10.1.0.1".toList) := by
  have hcoexist := coexist_sideBySide ResolvedLinks.twoLinks uplinkWorld rfl
  obtain ⟨hlists, hmerged⟩ := records_sideBySide (holds_together hcoexist unfailing_sideBySide false)
  have hplace := inPlace_sideBySide ResolvedLinks.twoLinks uplinkWorld
  have hback := backend_sideBySide ResolvedLinks.twoLinks uplinkWorld
  have htuns : ∀ q ∈ recordOrder, isTun q = true → ∃ i, q = (sideBySideTunnels i).registrationName := by
    decide +kernel
  refine (forwards_to_each hcoexist unfailing_sideBySide (threeInTurn Text recordOrder) false ?_ askedLab
    "www.lab.example".toList ?_ ?_).2 labConfig _ [] (hplace false) rfl ?_
  · rw [hback]
    refine .resolvconf _ 3 (inTurn_three Text recordOrder) hlists (fun q hq htun => ?_) (by decide +kernel) ?_
    · obtain ⟨i, hi⟩ := htuns q hq htun
      exact ⟨i, _, hback i, hi⟩
    · rw [show (threeInTurn Text recordOrder).order = recordOrder from rfl, hmerged]
      decide
  · intro i c hc
    rw [hplace] at hc
    rw [← Option.some.inj hc]
    cases i <;> decide
  · intro i c hc
    rw [hplace] at hc
    rw [← Option.some.inj hc]
    exact serves_askedLab i
  · rw [hback]
    refine .resolvconf _ (by decide +kernel) fun j hj c hc => ?_
    rw [hplace, (Bool.eq_not.mpr hj : j = !false)] at hc
    rw [← Option.some.inj hc]
    decide +kernel

end Sample

end Together

end DnsAnnounce.TenantForwarding
