import DnsAnnounce.ResolvedBackend

namespace DnsAnnounce.ResolvedLinks

open DnsAnnounce.Utf8 DnsAnnounce.Address DnsAnnounce.Effect DnsAnnounce.Runs
open DnsAnnounce.FileSystem DnsAnnounce.Route DnsAnnounce.ResolvedBackend

variable (net : Net)

abbrev noFaults : BusCall → Option BusFault := fun _ => none

def linkOf (interface : Text) : Option ObjectPath :=
  match indexOf net noFaults interface with
  | .error _ => none
  | .ok idx => match net.link idx with
    | .error _ => none
    | .ok link => some link

/-- The interface and configuration of the last `set()` that no `reset()`
followed. -/
def lastSet (_ : Option (Text × DnsRouteConfig)) : Request → Option (Text × DnsRouteConfig)
  | .set interface config => some (interface, config)
  | .reset => none

def carried : Option (Text × DnsRouteConfig) → Links
  | none => fun _ => blank
  | some (interface, config) => fun link =>
    if linkOf net interface = some link then pushed config else blank

def linksAfter (requests : List Request) : Links :=
  (run (after route (busHandler net)) (⟨none⟩, fun _ => blank) requests).2

def NamesExisting : Request → Prop
  | .set interface _ => (linkOf net interface).isSome = true
  | .reset => True

/-- A `set()` finds nothing pushed to a link other than its own. -/
def Replaces (last : Option (Text × DnsRouteConfig)) : Request → Prop
  | .set interface _ => match last with
    | none => True
    | some (old, config) => linkOf net old = linkOf net interface ∨ pushed config = blank
  | .reset => True

instance (r : Request) : Decidable (NamesExisting net r) :=
  match r with
  | .set _ _ => inferInstanceAs (Decidable (_ = _))
  | .reset => isTrue trivial

instance (last : Option (Text × DnsRouteConfig)) (r : Request) : Decidable (Replaces net last r) :=
  match last, r with
  | none, .set _ _ => isTrue trivial
  | some _, .set _ _ => inferInstanceAs (Decidable (_ ∨ _))
  | _, .reset => isTrue trivial

variable {net}

theorem linkOf_eq_some {interface : Text} {link : ObjectPath} :
    linkOf net interface = some link ↔
      ∃ idx, indexOf net noFaults interface = .ok idx ∧ net.link idx = .ok link := by
  rw [linkOf]
  cases hi : indexOf net noFaults interface with
  | error e => simp
  | ok idx => cases hl : net.link idx <;> simp [hl]

theorem proxyOf_noFaults {idx : Int} {link : ObjectPath} (h : net.link idx = .ok link) :
    proxyOf net noFaults idx = .ok link := by
  simp [proxyOf, told, h]

theorem push_noFaults (link : ObjectPath) (state : LinkState) (links : Links) :
    push noFaults link state links = (.ok (), Function.update links link state) := by
  simp only [push, told, left, setLinkDomains_setLinkDns]

theorem after_set {interface : Text} {idx : Int} {link : ObjectPath}
    (hi : indexOf net noFaults interface = .ok idx) (hl : net.link idx = .ok link)
    (config : DnsRouteConfig) (self : SystemdResolved) (links : Links) :
    after route (busHandler net) (self, links) (.set interface config) =
      (⟨some idx⟩, Function.update links link (pushed config)) := by
  have h := exec_set net noFaults links self interface config
  simp only [hi, proxyOf_noFaults hl, push_noFaults] at h
  exact congrArg (fun r => (r.1.2, r.2)) h

theorem after_reset_inactive (links : Links) :
    after route (busHandler net) (⟨none⟩, links) .reset = (⟨none⟩, links) := rfl

theorem after_reset {idx : Int} {link : ObjectPath} (hl : net.link idx = .ok link) (links : Links) :
    after route (busHandler net) (⟨some idx⟩, links) .reset =
      (⟨none⟩, Function.update links link blank) := by
  have h := exec_reset net noFaults links ⟨some idx⟩
  simp only [proxyOf_noFaults hl, push_noFaults] at h
  exact congrArg (fun r => (r.1.2, r.2)) h

theorem carried_on {interface : Text} {link : ObjectPath} (h : linkOf net interface = some link)
    (config : DnsRouteConfig) : carried net (some (interface, config)) link = pushed config :=
  if_pos h

theorem carried_off {interface : Text} {link : ObjectPath} (h : linkOf net interface ≠ some link)
    (config : DnsRouteConfig) : carried net (some (interface, config)) link = blank := if_neg h

theorem linkOf_ne {interface : Text} {link q : ObjectPath} (h : linkOf net interface = some link)
    (hq : q ≠ link) : linkOf net interface ≠ some q :=
  fun he => hq (Option.some.inj (he.symm.trans h))

theorem update_carried_set {last : Option (Text × DnsRouteConfig)} {interface : Text}
    {config : DnsRouteConfig} {link : ObjectPath} (hl : linkOf net interface = some link)
    (hr : Replaces net last (.set interface config)) :
    Function.update (carried net last) link (pushed config) =
      carried net (some (interface, config)) := by
  funext q
  by_cases hq : q = link
  · rw [hq, Function.update_self, carried_on hl]
  · have hne := linkOf_ne hl hq
    rw [Function.update_of_ne hq, carried_off hne]
    obtain - | ⟨old, oldConfig⟩ := last
    · rfl
    · obtain ho | hb := hr
      · rw [carried_off (by rwa [ho])]
      · rw [carried, hb]
        exact ite_self _

theorem update_carried_reset {interface : Text} {config : DnsRouteConfig} {link : ObjectPath}
    (hl : linkOf net interface = some link) :
    Function.update (carried net (some (interface, config))) link blank = carried net none := by
  funext q
  by_cases hq : q = link
  · rw [hq, Function.update_self]
    rfl
  · rw [Function.update_of_ne hq, carried_off (linkOf_ne hl hq)]
    rfl

theorem update_carried_ne {old interface : Text} {oldConfig config : DnsRouteConfig}
    {oldLink link : ObjectPath} (ho : linkOf net old = some oldLink)
    (hl : linkOf net interface = some link) (hne : oldLink ≠ link) (hb : pushed oldConfig ≠ blank) :
    Function.update (carried net (some (old, oldConfig))) link (pushed config) ≠
      carried net (some (interface, config)) := by
  intro h
  have hat := congrFun h oldLink
  rw [Function.update_of_ne hne, carried_on ho, carried_off (linkOf_ne hl hne)] at hat
  exact hb hat

/-- The instance and the links carry out the last `set()`. -/
structure Carries (net : Net) (st : SystemdResolved × Links)
    (last : Option (Text × DnsRouteConfig)) : Prop where
  links : st.2 = carried net last
  inactive : last = none → st.1.activeLink = none
  active : ∀ interface config, last = some (interface, config) →
    ∃ idx link, indexOf net noFaults interface = .ok idx ∧ net.link idx = .ok link ∧
      st.1.activeLink = some idx

theorem carries_start (net : Net) : Carries net (⟨none⟩, fun _ => blank) none :=
  ⟨rfl, fun _ => rfl, nofun⟩

theorem carries_set {st : SystemdResolved × Links} {last : Option (Text × DnsRouteConfig)}
    (h : Carries net st last) {interface : Text} {config : DnsRouteConfig}
    (hex : (linkOf net interface).isSome = true) (hr : Replaces net last (.set interface config)) :
    Carries net (after route (busHandler net) st (.set interface config))
      (some (interface, config)) := by
  obtain ⟨self, links⟩ := st
  obtain rfl : links = carried net last := h.links
  obtain ⟨link, hlink⟩ := Option.isSome_iff_exists.mp hex
  obtain ⟨idx, hi, hl⟩ := linkOf_eq_some.mp hlink
  rw [after_set hi hl]
  refine ⟨update_carried_set hlink hr, nofun, fun interface' config' he => ?_⟩
  obtain ⟨rfl, rfl⟩ := Prod.mk.inj (Option.some.inj he)
  exact ⟨idx, link, hi, hl, rfl⟩

theorem carries_reset {st : SystemdResolved × Links} {last : Option (Text × DnsRouteConfig)}
    (h : Carries net st last) : Carries net (after route (busHandler net) st .reset) none := by
  obtain ⟨⟨active⟩, links⟩ := st
  obtain rfl : links = carried net last := h.links
  obtain - | ⟨interface, config⟩ := last
  · obtain rfl : active = none := h.inactive rfl
    exact ⟨rfl, fun _ => rfl, nofun⟩
  · obtain ⟨idx, link, hi, hl, ha⟩ := h.active interface config rfl
    obtain rfl : active = some idx := ha
    rw [after_reset hl]
    exact ⟨update_carried_reset (linkOf_eq_some.mpr ⟨idx, hi, hl⟩), fun _ => rfl, nofun⟩

theorem stacks_of_not_replaces {st : SystemdResolved × Links}
    {last : Option (Text × DnsRouteConfig)} (h : Carries net st last) {interface : Text}
    {config : DnsRouteConfig} (hex : (linkOf net interface).isSome = true)
    (hr : ¬ Replaces net last (.set interface config)) :
    (after route (busHandler net) st (.set interface config)).2 ≠
      carried net (some (interface, config)) := by
  obtain ⟨self, links⟩ := st
  obtain rfl : links = carried net last := h.links
  obtain ⟨link, hlink⟩ := Option.isSome_iff_exists.mp hex
  obtain ⟨idx, hi, hl⟩ := linkOf_eq_some.mp hlink
  obtain - | ⟨old, oldConfig⟩ := last
  · exact absurd trivial hr
  obtain ⟨hne, hb⟩ := not_or.mp hr
  obtain ⟨oldIdx, oldLink, hoi, hol, -⟩ := h.active old oldConfig rfl
  have hold : linkOf net old = some oldLink := linkOf_eq_some.mpr ⟨oldIdx, hoi, hol⟩
  rw [after_set hi hl]
  exact update_carried_ne hold hlink (fun he => hne (by rw [hold, hlink, he])) hb

/-- The override is on the link of the last `set()` and nowhere else, all through
a run, exactly if every `set()` names the interface that carries the override
in place. -/
theorem no_stacking_iff (net : Net) (requests : List Request)
    (hex : ∀ r ∈ requests, NamesExisting net r) :
    (∀ pre, pre <+: requests → linksAfter net pre = carried net (run lastSet none pre)) ↔
      Along lastSet (Replaces net) none requests := by
  refine throughout_iff (R := Carries net) (Q := fun st last => st.2 = carried net last)
    (fun st last h => h.links) ?_ ?_ (carries_start net) hex
  · intro st last r hv h hr
    cases r with
    | set interface config => exact carries_set h hv hr
    | reset => exact carries_reset h
  · intro st last r hv h hr
    cases r with
    | set interface config => exact stacks_of_not_replaces h hv hr
    | reset => exact absurd trivial hr

def twoLinks : Net where
  files := fun path =>
    if path = "/sys/class/net/wg0/ifindex".toList then .ok "3\n".toList
    else if path = "/sys/class/net/wg1/ifindex".toList then .ok "4\n".toList
    else .error "No such file or directory".toList
  link := fun idx =>
    if idx = 3 then .ok "/org/freedesktop/resolve1/link/_33".toList
    else if idx = 4 then .ok "/org/freedesktop/resolve1/link/_34".toList
    else .error "Link not known".toList

theorem one_interface_does_not_stack :
    let requests := [Request.set "wg0".toList ⟨[.V4 ⟨[10, 0, 0, 1], rfl⟩], []⟩,
      .set "wg0".toList ⟨[.V4 ⟨[10, 0, 0, 2], rfl⟩], []⟩]
    ∀ pre, pre <+: requests → linksAfter twoLinks pre = carried twoLinks (run lastSet none pre) :=
  (no_stacking_iff twoLinks _ (by decide +kernel)).mpr (by decide +kernel)

/-- The second `set()` forgets the first link, which keeps its servers. -/
theorem interfaces_stack :
    let requests := [Request.set "wg0".toList ⟨[.V4 ⟨[10, 0, 0, 1], rfl⟩], []⟩,
      .set "wg1".toList ⟨[.V4 ⟨[10, 0, 0, 2], rfl⟩], []⟩]
    (∀ r ∈ requests, NamesExisting twoLinks r) ∧
      ¬ ∀ pre, pre <+: requests →
        linksAfter twoLinks pre = carried twoLinks (run lastSet none pre) := by
  intro requests
  refine ⟨by decide +kernel, fun h => ?_⟩
  have hold := congrFun (h requests List.prefix_rfl) "/org/freedesktop/resolve1/link/_33".toList
  revert hold
  decide +kernel

end DnsAnnounce.ResolvedLinks
