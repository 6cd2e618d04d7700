import DnsAnnounce.ResetFaults

namespace DnsAnnounce.SetFaults

open DnsAnnounce.Utf8 DnsAnnounce.Effect DnsAnnounce.FileSystem DnsAnnounce.Route
open DnsAnnounce.Faults

variable {Call : Type} {Resp : Call → Type} {Self Error S Fault D : Type}

/-- What can be observed of the host, when `set()` has run under `plan` and then
`reset()` with nothing failing. -/
def undone (b : Backend Call Resp Self Error S Fault) (observe : S → D)
    (plan : Call → Option Fault) (st : Self × S) (interface : Text) (config : DnsRouteConfig) : D :=
  observe (after b.route b.handler (b.afterUnder plan st (.set interface config)) .reset).2

def Fails (b : Backend Call Resp Self Error S Fault) (plan : Call → Option Fault) (st : Self × S)
    (interface : Text) (config : DnsRouteConfig) : Prop :=
  ∃ e, b.outcomeUnder plan st (.set interface config) = .error e

section Resolvconf

open DnsAnnounce.ResolvconfBackend

/-- Whether the command has run, whatever became of the call. -/
def ran (plan : ProcCall → Option ProcFault) (binary : PathBuf) (args : List Text) (input : Text) :
    Bool :=
  (plan (.spawn binary args)).isNone &&
    match plan (.writeAll (encode input)) with
    | some f => f.ran.isSome
    | none => match plan .waitWithOutput with
      | some f => f.ran.isSome
      | none => true

theorem commanded_records (plan : ProcCall → Option ProcFault) (binary : PathBuf) (args : List Text)
    (input : Text) (records : Records) :
    (ran plan binary args input = false ∧ (commanded plan binary args input records).2 = records) ∨
      (ran plan binary args input = true ∧
        ∃ stdin, (commanded plan binary args input records).2 = resolvconf args stdin records) := by
  unfold ran commanded
  cases plan (.spawn binary args) with
  | some f => exact .inl ⟨rfl, rfl⟩
  | none => cases plan (.writeAll (encode input)) with
    | some f => cases hr : f.ran with
      | none => exact .inl ⟨by simp [hr], by simp [hr]⟩
      | some j => exact .inr ⟨by simp [hr], (encode input).take j, by simp [hr]⟩
    | none => cases plan .waitWithOutput with
      | some f => cases hr : f.ran with
        | none => exact .inl ⟨by simp [hr], by simp [hr]⟩
        | some j => exact .inr ⟨by simp [hr], encode input, by simp [hr]⟩
      | none => exact .inr ⟨rfl, encode input, rfl⟩

theorem undone_resolvconf {plan : ProcCall → Option ProcFault} {self : Resolvconf}
    {records : Records} {interface : Text} {config : DnsRouteConfig} (ha : self.active = false)
    (hf : Fails Faults.resolvconf plan (self, .idle records) interface config) :
    undone Faults.resolvconf Host.records plan (self, .idle records) interface config =
      (commanded plan self.binary (addArgs self.registrationName) (inputFor config) records).2 := by
  obtain ⟨e, he⟩ := hf
  have hs := exec_set plan interface config self records
  have ho : Faults.resolvconf.outcomeUnder plan (self, .idle records) (.set interface config) =
    (exec (os plan) (ResolvconfBackend.set interface config self) (.idle records)).1.1 := rfl
  have hst : Faults.resolvconf.afterUnder plan (self, .idle records) (.set interface config) =
    ((exec (os plan) (ResolvconfBackend.set interface config self) (.idle records)).1.2,
      (exec (os plan) (ResolvconfBackend.set interface config self) (.idle records)).2) := rfl
  rw [ho, hs] at he
  rw [undone, hst, hs]
  generalize commanded plan self.binary (addArgs self.registrationName) (inputFor config) records = r
    at he
  obtain ⟨_ | _, records'⟩ := r
  · exact congrArg (fun st : Resolvconf × Host => st.2.records)
      (ResolvconfRecords.after_reset_inactive self ha records')
  · cases he

theorem resolvconf_undone_iff (plan : ProcCall → Option ProcFault) (self : Resolvconf)
    (records : Records) (interface : Text) (config : DnsRouteConfig) (ha : self.active = false)
    (hrec : records self.registrationName = none)
    (hf : Fails Faults.resolvconf plan (self, .idle records) interface config) :
    undone Faults.resolvconf Host.records plan (self, .idle records) interface config = records ↔
      ran plan self.binary (addArgs self.registrationName) (inputFor config) = false := by
  rw [undone_resolvconf ha hf]
  rcases commanded_records plan self.binary (addArgs self.registrationName) (inputFor config) records
    with ⟨hr, hkept⟩ | ⟨hr, stdin, hran⟩
  · exact iff_of_true hkept hr
  · refine iff_of_false (fun heq => ?_) (by rw [hr]; decide)
    rw [hran, resolvconf_add] at heq
    have hat := congrFun heq self.registrationName
    rw [Function.update_self, hrec] at hat
    cases hat

end Resolvconf

section Resolved

open DnsAnnounce.Address DnsAnnounce.ResolvedBackend

variable {net : Net}

/-- Everything that reached the link before `set()` failed was there before. -/
def PushesNothingNew (net : Net) (plan : BusCall → Option BusFault) (interface : Text)
    (state : LinkState) (links : Links) : Prop :=
  ∀ idx link, indexOf net plan interface = .ok idx → proxyOf net plan idx = .ok link →
    match plan (.setDns link state.dns) with
    | some f => f.effect = true → state.dns = (links link).dns
    | none => state.dns = (links link).dns ∧
      ∀ f ∈ plan (.setDomains link state.domains), f.effect = true →
        state.domains = (links link).domains

theorem setLinkDns_eq_self {links : Links} {link : ObjectPath} {dns : List (Int × Bytes)} :
    setLinkDns links link dns = links ↔ dns = (links link).dns := by
  simp [setLinkDns, LinkState.ext_iff]

theorem push_eq_self_iff {plan : BusCall → Option BusFault} {link : ObjectPath} {state : LinkState}
    {links : Links} {e : Text} (he : (push plan link state links).1 = .error e) :
    (push plan link state links).2 = links ↔
      match plan (.setDns link state.dns) with
      | some f => f.effect = true → state.dns = (links link).dns
      | none => state.dns = (links link).dns ∧
        ∀ f ∈ plan (.setDomains link state.domains), f.effect = true →
          state.domains = (links link).domains := by
  unfold push at he ⊢
  cases hd : plan (.setDns link state.dns) with
  | some f =>
    by_cases hf : f.effect = true <;> simp [told, left, hf, setLinkDns_eq_self]
  | none =>
    cases hm : plan (.setDomains link state.domains) with
    | some f =>
      by_cases hf : f.effect = true
      · simp [told, left, hf, LinkState.ext_iff]
      · simp [told, left, hf, setLinkDns_eq_self]
    | none => simp [hd, hm, told] at he

theorem set_fails {plan : BusCall → Option BusFault} {self : SystemdResolved} {links : Links}
    {interface : Text} {config : DnsRouteConfig} {e : ResolvedBackend.Error}
    (he : (exec (bus net plan) (ResolvedBackend.set interface config self) links).1.1 = .error e) :
    ∃ links', exec (bus net plan) (ResolvedBackend.set interface config self) links =
        ((.error e, self), links') ∧
      ((links' = links ∧
          ∀ idx link, indexOf net plan interface = .ok idx → proxyOf net plan idx ≠ .ok link) ∨
        ∃ idx link t, indexOf net plan interface = .ok idx ∧ proxyOf net plan idx = .ok link ∧
          push plan link (pushed config) links = (.error t, links')) := by
  have hs := exec_set net plan links self interface config
  cases hi : indexOf net plan interface with
  | error e' =>
    simp only [hi] at hs
    rw [hs] at he
    cases he
    exact ⟨links, hs, .inl ⟨rfl, nofun⟩⟩
  | ok idx =>
    cases hp : proxyOf net plan idx with
    | error t =>
      simp only [hi, hp] at hs
      rw [hs] at he
      cases he
      refine ⟨links, hs, .inl ⟨rfl, fun idx' link hi' hp' => ?_⟩⟩
      cases hi'
      rw [hp] at hp'
      cases hp'
    | ok link =>
      cases hr : push plan link (pushed config) links with
      | mk r links' =>
        cases r with
        | ok _ =>
          simp only [hi, hp, hr] at hs
          rw [hs] at he
          cases he
        | error t =>
          simp only [hi, hp, hr] at hs
          rw [hs] at he
          cases he
          exact ⟨links', hs, .inr ⟨idx, link, t, rfl, hp, hr⟩⟩

theorem resolved_undone_iff (net : Net) (plan : BusCall → Option BusFault) (links : Links)
    (interface : Text) (config : DnsRouteConfig)
    (hf : Fails (resolved net) plan (⟨none⟩, links) interface config) :
    undone (resolved net) id plan (⟨none⟩, links) interface config = links ↔
      PushesNothingNew net plan interface (pushed config) links := by
  obtain ⟨e, he⟩ := hf
  obtain ⟨links', hexec, hcases⟩ := set_fails he
  have hundone : undone (resolved net) id plan (⟨none⟩, links) interface config = links' := by
    change (after route (busHandler net)
      ((exec (bus net plan) (ResolvedBackend.set interface config ⟨none⟩) links).1.2,
        (exec (bus net plan) (ResolvedBackend.set interface config ⟨none⟩) links).2) .reset).2 = _
    rw [hexec]
    rfl
  rw [hundone, PushesNothingNew]
  obtain ⟨rfl, hnone⟩ | ⟨idx, link, t, hi, hp, hpush⟩ := hcases
  · exact iff_of_true rfl fun idx link hi hp => absurd hp (hnone idx link hi)
  · have hiff := push_eq_self_iff (congrArg Prod.fst hpush)
    rw [hpush] at hiff
    rw [hiff, hi]
    constructor
    · rintro h idx' link' hi' hp'
      cases hi'
      rw [hp] at hp'
      cases hp'
      exact h
    · exact fun h => h idx link rfl hp

end Resolved

section Static

open DnsAnnounce.StaticBackend DnsAnnounce.StaticFaults DnsAnnounce.ResetFaults

/-- What a failing write of the file has put into it, if `set()` got that far and
the write did. -/
def overwritten (plan : FsCall → Option FsFault) (self : StaticResolvConf)
    (config : DnsRouteConfig) (fs : Fs) : Option Bytes :=
  let original := (fs self.path).getD []
  let text := encode (render self.owner config original)
  match plan (.read self.path), plan (.write self.backupPath original) with
  | none, none =>
    (plan (.write self.path text)).bind fun f => f.written.map fun j => text.take j
  | _, _ => none

theorem torn_eq_self_iff (f : FsFault) (path : PathBuf) (contents : Bytes) (fs : Fs) :
    torn f path contents fs path = fs path ↔
      ∀ x ∈ f.written.map fun j => contents.take j, some x = fs path := by
  rw [torn]
  cases f.written with
  | none => simp
  | some j => simp

theorem static_undone_iff (plan : FsCall → Option FsFault) (self : StaticResolvConf) (fs : Fs)
    (interface : Text) (config : DnsRouteConfig) (ha : self.active = false)
    (hm : ownerIn (fs self.path) ≠ some self.owner)
    (hf : Fails static plan (self, fs) interface config) :
    undone static (fun fs => fs self.path) plan (self, fs) interface config = fs self.path ↔
      ∀ x ∈ overwritten plan self config fs, some x = fs self.path := by
  have hne := path_ne_backupPath self
  have ho : seenOwner plan self.path fs ≠ some self.owner :=
    fun h => hm (seenOwner_eq_some.mp h).2
  have hs := set_takeover ho interface config
  have hundone : ∀ fs', exec (disk plan) (StaticBackend.set interface config self) fs =
      ((.error .Other, self), fs') →
      undone static (fun fs => fs self.path) plan (self, fs) interface config = fs' self.path := by
    intro fs' h
    change (after route fsHandler
      ((exec (disk plan) (StaticBackend.set interface config self) fs).1.2,
        (exec (disk plan) (StaticBackend.set interface config self) fs).2) .reset).2 self.path = _
    rw [h, after_reset, afterReset_inactive ha]
  dsimp only [overwritten]
  cases hr : plan (.read self.path) with
  | some f =>
    simp only [hr] at hs
    rw [hundone _ hs]
    exact iff_of_true rfl nofun
  | none =>
    cases hb : plan (.write self.backupPath ((fs self.path).getD [])) with
    | some f =>
      simp only [hr, hb] at hs
      rw [hundone _ hs, torn_other _ _ f hne]
      exact iff_of_true rfl nofun
    | none =>
      cases hw : plan (.write self.path (encode (render self.owner config ((fs self.path).getD [])))) with
      | some f =>
        simp only [hr, hb, hw] at hs
        have hp := put_other fs hne (some ((fs self.path).getD []))
        have ht := torn_eq_self_iff f self.path
          (encode (render self.owner config ((fs self.path).getD [])))
          (put fs self.backupPath (some ((fs self.path).getD [])))
        rw [hp] at ht
        rw [hundone _ hs, ht]
        exact Iff.rfl
      | none =>
        obtain ⟨e, he⟩ := hf
        simp only [hr, hb, hw] at hs
        have hok : (exec (disk plan) (StaticBackend.set interface config self) fs).1.1 = .error e := he
        rw [hs] at hok
        cases hok

end Static

/-- For each backend, with nothing of ours in place: a `reset()` undoes a `set()`
that failed exactly if that `set()` changed nothing. -/
theorem failed_set_undone_iff (interface : Text) (config : DnsRouteConfig) :
    (∀ plan (self : ResolvconfBackend.Resolvconf) records, self.active = false →
      records self.registrationName = none →
      Fails Faults.resolvconf plan (self, .idle records) interface config →
        (undone Faults.resolvconf ResolvconfBackend.Host.records plan (self, .idle records)
            interface config = records ↔
          ran plan self.binary (ResolvconfBackend.addArgs self.registrationName)
            (ResolvconfBackend.inputFor config) = false)) ∧
    (∀ net plan links, Fails (resolved net) plan (⟨none⟩, links) interface config →
      (undone (resolved net) id plan (⟨none⟩, links) interface config = links ↔
        PushesNothingNew net plan interface (ResolvedBackend.pushed config) links)) ∧
    (∀ plan (self : StaticBackend.StaticResolvConf) fs, self.active = false →
      StaticBackend.ownerIn (fs self.path) ≠ some self.owner →
      Fails static plan (self, fs) interface config →
        (undone static (fun fs => fs self.path) plan (self, fs) interface config = fs self.path ↔
          ∀ x ∈ overwritten plan self config fs, some x = fs self.path)) :=
  ⟨fun plan self records ha hrec hf =>
      resolvconf_undone_iff plan self records interface config ha hrec hf,
    fun net plan links hf => resolved_undone_iff net plan links interface config hf,
    fun plan self fs ha hm hf => static_undone_iff plan self fs interface config ha hm hf⟩

section Sample

open DnsAnnounce.ResolvconfRecords DnsAnnounce.ResolvedLinks DnsAnnounce.StaticRestore
open DnsAnnounce.ResetFaults

def storesAndFails (c : ResolvconfBackend.ProcCall) : Option ResolvconfBackend.ProcFault :=
  if c = .waitWithOutput then some ⟨.Other, some [], some 0⟩ else none

def setDomainsTimesOut (c : ResolvedBackend.BusCall) : Option ResolvedBackend.BusFault :=
  if c = .setDomains "/org/freedesktop/resolve1/link/_33".toList [("vpn.example".toList, true)] then
    some ⟨"timed out".toList, false⟩ else none

def diskFull (written : Option Nat) (c : FsCall) : Option FsFault :=
  match c with
  | .write path _ => if path = resolvConf then some ⟨written⟩ else none
  | _ => none

theorem harmless_failures_undone :
    undone Faults.resolvconf ResolvconfBackend.Host.records commandFails
        (instanceOf "vpn".toList, .idle fun _ => none) "wg0".toList vpnConfig = (fun _ => none) ∧
      undone (resolved twoLinks) id managerTimesOut (⟨none⟩, fun _ => ResolvedBackend.blank)
        "wg0".toList vpnConfig = (fun _ => ResolvedBackend.blank) ∧
      undone static (fun fs => fs vpn.path) (diskFull none) (vpn, diskWith nameservers)
        "wg0".toList vpnConfig = diskWith nameservers vpn.path :=
  ⟨((failed_set_undone_iff "wg0".toList vpnConfig).1 commandFails (instanceOf "vpn".toList)
      (fun _ => none) (by decide +kernel) (by decide +kernel)
      ⟨.CommandFailed (ResolvconfBackend.addArgs "tun-vpn".toList) [], by decide +kernel⟩).mpr
      (by decide +kernel),
    ((failed_set_undone_iff "wg0".toList vpnConfig).2.1 twoLinks managerTimesOut
      (fun _ => ResolvedBackend.blank) ⟨.DBus "timed out".toList, by decide +kernel⟩).mpr
      (fun _ _ _ h => by simp [ResolvedBackend.proxyOf, managerTimesOut, ResolvedBackend.told] at h),
    ((failed_set_undone_iff "wg0".toList vpnConfig).2.2 (diskFull none) vpn (diskWith nameservers)
      (by decide +kernel) (by decide +kernel) ⟨.Other, by decide +kernel⟩).mpr
      (by decide +kernel)⟩

/-- Each backend takes note of the override only after the last step, so nothing
undoes what an earlier step did. -/
theorem failed_sets_stay :
    (Fails Faults.resolvconf storesAndFails (instanceOf "vpn".toList, .idle fun _ => none)
        "wg0".toList vpnConfig ∧
      undone Faults.resolvconf ResolvconfBackend.Host.records storesAndFails
        (instanceOf "vpn".toList, .idle fun _ => none) "wg0".toList vpnConfig ≠ fun _ => none) ∧
    (Fails (resolved twoLinks) setDomainsTimesOut (⟨none⟩, fun _ => ResolvedBackend.blank)
        "wg0".toList vpnConfig ∧
      undone (resolved twoLinks) id setDomainsTimesOut (⟨none⟩, fun _ => ResolvedBackend.blank)
        "wg0".toList vpnConfig ≠ fun _ => ResolvedBackend.blank) ∧
    (Fails static (diskFull (some 0)) (vpn, diskWith nameservers) "wg0".toList vpnConfig ∧
      undone static (fun fs => fs vpn.path) (diskFull (some 0)) (vpn, diskWith nameservers)
        "wg0".toList vpnConfig ≠ diskWith nameservers vpn.path) := by
  refine ⟨⟨⟨.CommandFailed (ResolvconfBackend.addArgs "tun-vpn".toList) [], by decide +kernel⟩,
      fun h => ?_⟩, ⟨⟨.DBus "timed out".toList, by decide +kernel⟩, fun h => ?_⟩,
    ⟨.Other, by decide +kernel⟩, by decide +kernel⟩
  · have hname := congrFun h "tun-vpn".toList
    revert hname
    decide +kernel
  · have hlink := congrFun h "/org/freedesktop/resolve1/link/_33".toList
    revert hlink
    decide +kernel

end Sample


end DnsAnnounce.SetFaults
