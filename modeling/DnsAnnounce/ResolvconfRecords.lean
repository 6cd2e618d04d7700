import DnsAnnounce.ResolvconfBackend

namespace DnsAnnounce.ResolvconfRecords

open DnsAnnounce.Utf8 DnsAnnounce.Address DnsAnnounce.Effect DnsAnnounce.Runs
open DnsAnnounce.FileSystem DnsAnnounce.Route DnsAnnounce.ResolvconfBackend

abbrev noFaults : ProcCall → Option ProcFault := fun _ => none

theorem commanded_noFaults (binary : PathBuf) (args : List Text) (input : Text) (records : Records) :
    commanded noFaults binary args input records =
      (.ok (), resolvconf args (encode input) records) := rfl

theorem after_set (self : Resolvconf) (records : Records) (interface : Text)
    (config : DnsRouteConfig) :
    after route procHandler (self, .idle records) (.set interface config) =
      ({ self with active := true }, .idle (Function.update records self.registrationName
        (some (config.servers.map IpAddr.display)))) := by
  have h := exec_set noFaults interface config self records
  simp only [commanded_noFaults, resolvconf_add, parseNameservers_inputFor] at h
  exact congrArg (fun r => (r.1.2, r.2)) h

theorem after_reset_active (self : Resolvconf) (ha : self.active = true) (records : Records) :
    after route procHandler (self, .idle records) .reset =
      ({ self with active := false },
        .idle (Function.update records self.registrationName none)) := by
  have h := exec_reset noFaults self records
  rw [if_neg (by rw [ha]; decide), commanded_noFaults, resolvconf_delete] at h
  exact congrArg (fun r => (r.1.2, r.2)) h

theorem after_reset_inactive (self : Resolvconf) (ha : self.active = false) (records : Records) :
    after route procHandler (self, .idle records) .reset = (self, .idle records) := by
  have h := exec_reset noFaults self records
  rw [if_pos ha] at h
  exact congrArg (fun r => (r.1.2, r.2)) h

variable {ι : Type} [DecidableEq ι]

structure Shared (ι : Type) where
  instances : ι → Resolvconf
  host : Host

def step (w : Shared ι) (c : ι × Request) : Shared ι :=
  let st := after route procHandler (w.instances c.1, w.host) c.2
  ⟨Function.update w.instances c.1 st.1, st.2⟩

/-- The configuration each instance was last asked for, whatever the others do. -/
def wantedBy (want : ι → Option DnsRouteConfig) (c : ι × Request) : ι → Option DnsRouteConfig :=
  Function.update want c.1 (wanted (want c.1) c.2)

def recordsAfter (instances : ι → Resolvconf) (records : Records) (calls : List (ι × Request)) :
    Records := (run step ⟨instances, .idle records⟩ calls).host.records

/-- Every instance has its own record, with the servers it was last given. -/
def OwnRecords (owner : ι → Text) (records : Records) (want : ι → Option DnsRouteConfig) : Prop :=
  ∀ i, records (registrationName (owner i)) =
    (want i).map fun config => config.servers.map IpAddr.display

structure Agrees (owner : ι → Text) (w : Shared ι) (want : ι → Option DnsRouteConfig) : Prop where
  name : ∀ i, (w.instances i).registrationName = registrationName (owner i)
  active : ∀ i, (w.instances i).active = (want i).isSome
  idle : w.host = .idle w.host.records
  records : OwnRecords owner w.host.records want

variable {owner : ι → Text}

theorem ownRecords_update (hinj : Function.Injective fun i => registrationName (owner i))
    {records : Records} {want : ι → Option DnsRouteConfig} (h : OwnRecords owner records want)
    (i : ι) (config : Option DnsRouteConfig) :
    OwnRecords owner
      (Function.update records (registrationName (owner i))
        (config.map fun config => config.servers.map IpAddr.display))
      (Function.update want i config) := by
  intro j
  by_cases hj : j = i
  · rw [hj, Function.update_self, Function.update_self]
  · rw [Function.update_of_ne fun he => hj (hinj he), Function.update_of_ne hj]
    exact h j

theorem agrees_update {w : Shared ι} {want : ι → Option DnsRouteConfig} (h : Agrees owner w want)
    (i : ι) {self : Resolvconf} {records : Records} {config : Option DnsRouteConfig}
    (hname : self.registrationName = registrationName (owner i))
    (hactive : self.active = config.isSome)
    (hrecords : OwnRecords owner records (Function.update want i config)) :
    Agrees owner ⟨Function.update w.instances i self, .idle records⟩
      (Function.update want i config) := by
  refine ⟨fun j => ?_, fun j => ?_, rfl, hrecords⟩ <;> dsimp only
  · by_cases hj : j = i
    · rw [hj, Function.update_self, hname]
    · rw [Function.update_of_ne hj, h.name]
  · by_cases hj : j = i
    · rw [hj, Function.update_self, Function.update_self, hactive]
    · rw [Function.update_of_ne hj, Function.update_of_ne hj, h.active]

theorem agrees_step (hinj : Function.Injective fun i => registrationName (owner i)) {w : Shared ι}
    {want : ι → Option DnsRouteConfig} (h : Agrees owner w want) (c : ι × Request) :
    Agrees owner (step w c) (wantedBy want c) := by
  obtain ⟨i, r⟩ := c
  have hn := h.name i
  have ha := h.active i
  dsimp only [step, wantedBy]
  rw [h.idle]
  cases r with
  | set interface config =>
    rw [after_set, hn]
    exact agrees_update h i rfl rfl (ownRecords_update hinj h.records i (some config))
  | reset =>
    cases hw : want i with
    | none =>
      rw [hw] at ha
      rw [after_reset_inactive _ ha]
      refine agrees_update h i hn ha ?_
      rw [wanted, ← hw, Function.update_eq_self]
      exact h.records
    | some config =>
      rw [hw] at ha
      rw [after_reset_active _ ha, hn]
      exact agrees_update h i rfl rfl (ownRecords_update hinj h.records i none)

/-- Instances keep to their own records, in every interleaving, exactly if no two
owners are cut down to the same registration name. -/
theorem own_records_iff (env : Environment) (owner : ι → Text) (instances : ι → Resolvconf)
    (hprobe : ∀ i, probe env (owner i) = .ok (instances i)) (records : Records)
    (hrec : ∀ i, records (registrationName (owner i)) = none) :
    (∀ calls, OwnRecords owner (recordsAfter instances records calls)
      (run wantedBy (fun _ => none) calls)) ↔
        Function.Injective fun i => registrationName (owner i) := by
  constructor
  · intro h i j hij
    by_contra hne
    have hi := h [(i, .set [] ⟨[], []⟩)] i
    have hj := h [(i, .set [] ⟨[], []⟩)] j
    have hij' : registrationName (owner i) = registrationName (owner j) := hij
    rw [hij'] at hi
    rw [hi, run_cons, run_nil, wantedBy, Function.update_self, Function.update_of_ne (Ne.symm hne)] at hj
    cases hj
  · intro hinj calls
    have hstart : Agrees owner ⟨instances, .idle records⟩ fun _ => none :=
      ⟨fun i => (probe_ok (hprobe i)).1, fun i => (probe_ok (hprobe i)).2, rfl, hrec⟩
    exact (run_simulates (R := Agrees owner) (G := fun _ _ => True)
      (fun w want c h _ => agrees_step hinj h c) hstart
      (along_of_forall _ (fun _ _ => trivial) _ calls)).records

def openresolv : Environment where
  pathVar := some "/usr/bin:/sbin".toList
  isFile := fun path => path = "/sbin/resolvconf".toList
  canonicalize := some
  readToString := fun _ => none

def instanceOf (owner : Text) : Resolvconf :=
  ⟨"/sbin/resolvconf".toList, registrationName owner, false⟩

def pair (a b : Text) : Bool → Text
  | true => a
  | false => b

def tunnels (a b : Text) (i : Bool) : Resolvconf := instanceOf (pair a b i)

theorem tunnels_apart :
    let owner := pair "vpn-a".toList "vpn-b".toList
    let calls := [(true, Request.set "wg0".toList vpnConfig), (false, .set "wg1".toList vpnConfig),
      (true, .reset)]
    OwnRecords owner (recordsAfter (tunnels "vpn-a".toList "vpn-b".toList) (fun _ => none) calls)
      (run wantedBy (fun _ => none) calls) :=
  (own_records_iff openresolv (pair "vpn-a".toList "vpn-b".toList)
    (tunnels "vpn-a".toList "vpn-b".toList) (by decide +kernel) (fun _ => none) (fun _ => rfl)).mpr
    (Bool.injective_iff.mpr (by decide +kernel)) _

/-- Both owners are cut down to `ab`, and one instance's `reset()` deletes the
other one's record. -/
theorem sanitized_owners_collide :
    let owner := pair "a b".toList "ab".toList
    let calls := [(true, Request.set "wg0".toList vpnConfig), (false, .set "wg1".toList vpnConfig),
      (true, .reset)]
    owner true ≠ owner false ∧
      (∀ i, probe openresolv (owner i) = .ok (tunnels "a b".toList "ab".toList i)) ∧
      ¬ OwnRecords owner (recordsAfter (tunnels "a b".toList "ab".toList) (fun _ => none) calls)
        (run wantedBy (fun _ => none) calls) := by
  intro owner calls
  refine ⟨by decide +kernel, by decide +kernel, fun h => ?_⟩
  have hfalse := h false
  revert hfalse
  decide +kernel

end DnsAnnounce.ResolvconfRecords
