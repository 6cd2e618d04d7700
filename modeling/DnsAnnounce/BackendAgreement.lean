import DnsAnnounce.ResolvconfRecords
import DnsAnnounce.StaticRestore

namespace DnsAnnounce.BackendAgreement

open DnsAnnounce.Utf8 DnsAnnounce.Str DnsAnnounce.Address DnsAnnounce.Effect DnsAnnounce.FileSystem
open DnsAnnounce.Route DnsAnnounce.StaticBackend DnsAnnounce.StaticRestore DnsAnnounce.Nameservers
open DnsAnnounce.ResolvconfBackend

def isTun (name : Text) : Bool := "tun".toList.isPrefixOf name

/-- An order in which `resolvconf(8)` may list these records: each of them once,
and the `tun*` records first. -/
structure Lists (order : List Text) (records : Records) : Prop where
  nodup : order.Nodup
  complete : ∀ name, (records name).isSome = true → name ∈ order
  tunFirst : order.Pairwise fun a b => isTun b = true → isTun a = true

/-- The `resolv.conf` that `resolvconf(8)` makes of the records. -/
def merged (order : List Text) (records : Records) : List Text :=
  order.flatMap fun name => (records name).getD []

/-- The `tun*` records that are listed in front of this one. -/
def rivals (order : List Text) (name : Text) : List Text :=
  (order.takeWhile (· ≠ name)).filter (isTun ·)

def recordsAfterSet (self : Resolvconf) (records : Records) (interface : Text)
    (config : DnsRouteConfig) : Records :=
  (after ResolvconfBackend.route procHandler (self, .idle records) (.set interface config)).2.records

/-- The nameservers of the file that the static backend has written. -/
def staticNameservers (self : StaticResolvConf) (fs : Fs) (interface : Text)
    (config : DnsRouteConfig) : List Text :=
  parseNameservers
    (((after StaticBackend.route fsHandler (self, fs) (.set interface config)).2 self.path).getD [])

/-- What `set()` means: the resolvers found before stay only to answer what is
outside of the routing domains. -/
def meant (config : DnsRouteConfig) (existing : List Text) : List Text :=
  config.servers.map IpAddr.display ++ if config.routingDomains ≠ [] then existing else []

theorem isTun_registrationName (owner : Text) : isTun (registrationName owner) = true := by
  rw [isTun, List.isPrefixOf_iff_prefix]
  have h : "tun".toList <+: registrationPrefix := by decide
  exact h.trans (List.prefix_append _ _)

theorem recordsAfterSet_eq (self : Resolvconf) (records : Records) (interface : Text)
    (config : DnsRouteConfig) : recordsAfterSet self records interface config =
      Function.update records self.registrationName (some (config.servers.map IpAddr.display)) := by
  rw [recordsAfterSet, ResolvconfRecords.after_set, Host.idle]

section Merged

variable {order : List Text} {records : Records} {name : Text}

theorem merged_append (front back : List Text) (records : Records) :
    merged (front ++ back) records = merged front records ++ merged back records :=
  List.flatMap_append

theorem merged_cons (name : Text) (order : List Text) (records : Records) :
    merged (name :: order) records = (records name).getD [] ++ merged order records :=
  List.flatMap_cons

theorem merged_update_of_notMem (h : name ∉ order) (servers : Option (List Text)) :
    merged order (Function.update records name servers) = merged order records := by
  refine List.flatMap_congr fun n hn => ?_
  have hne : n ≠ name := fun he => h (he ▸ hn)
  rw [Function.update_of_ne hne]

theorem split_at_name (hl : order.Nodup) (hm : name ∈ order) : ∃ back,
    order = order.takeWhile (· ≠ name) ++ name :: back ∧
      name ∉ order.takeWhile (· ≠ name) ∧ name ∉ back := by
  obtain ⟨front, back, rfl⟩ := List.append_of_mem hm
  obtain ⟨-, hback, hfront⟩ := List.nodup_append.mp hl
  have hf : name ∉ front := fun h => hfront name h name List.mem_cons_self rfl
  have hne : ∀ n ∈ front, decide (n ≠ name) = true := fun n hn =>
    decide_eq_true fun he => hf (by rwa [← he])
  have htake : (front ++ name :: back).takeWhile (· ≠ name) = front := by
    rw [List.takeWhile_append_of_pos hne, List.takeWhile_cons_of_neg (by simp), List.append_nil]
  rw [htake]
  exact ⟨back, rfl, hf, (List.nodup_cons.mp hback).1⟩

theorem merged_update (hl : order.Nodup) (hm : name ∈ order) (records : Records) : ∃ back,
    ∀ servers, merged order (Function.update records name servers) =
      merged (order.takeWhile (· ≠ name)) records ++ (servers.getD [] ++ merged back records) := by
  obtain ⟨back, ho, hf, hb⟩ := split_at_name hl hm
  refine ⟨back, fun servers => ?_⟩
  conv_lhs => rw [ho]
  rw [merged_append, merged_cons, merged_update_of_notMem hf, merged_update_of_notMem hb,
    Function.update_self]

theorem rivals_eq (hl : Lists order records) (htun : isTun name = true) (hm : name ∈ order) :
    rivals order name = order.takeWhile (· ≠ name) := by
  obtain ⟨back, ho, -, -⟩ := split_at_name hl.nodup hm
  have hpair := hl.tunFirst
  rw [ho] at hpair
  have hfront := (List.pairwise_append.mp hpair).2.2
  rw [rivals, List.filter_eq_self]
  exact fun n hn => hfront n hn name List.mem_cons_self htun

theorem order_eq (h : order.Pairwise fun a b => isTun b = true → isTun a = true) :
    order = order.filter (isTun ·) ++ order.filter fun name => !isTun name := by
  induction order with
  | nil => rfl
  | cons a order ih =>
    obtain ⟨ha, htail⟩ := List.pairwise_cons.mp h
    cases htun : isTun a with
    | true =>
      rw [List.filter_cons_of_pos htun, List.filter_cons_of_neg (by rw [htun]; decide), List.cons_append,
        ← ih htail]
    | false =>
      have hnone : ∀ b ∈ order, isTun b = false := by
        intro b hb
        by_contra hne
        rw [ha b hb (Bool.eq_true_of_not_eq_false hne)] at htun
        contradiction
      have hfront : order.filter (isTun ·) = [] :=
        List.filter_eq_nil_iff.mpr fun b hb => by rw [hnone b hb]; decide
      have hback : order.filter (fun name => !isTun name) = order :=
        List.filter_eq_self.mpr fun b hb => by rw [hnone b hb]; rfl
      rw [List.filter_cons_of_neg (by rw [htun]; decide), List.filter_cons_of_pos (by rw [htun]; rfl), hfront,
        hback, List.nil_append]

end Merged

theorem staticNameservers_eq (self : StaticResolvConf) (fs : Fs) (interface : Text)
    (config : DnsRouteConfig) : staticNameservers self fs interface config =
      ownerNameservers self.owner ++ meant config (parseNameservers (originalOf self fs)) := by
  rw [staticNameservers, StaticBackend.after_set]
  dsimp only
  rw [afterSet_path, Option.getD_some, parseNameservers_render, meant]

theorem meant_iff (config : DnsRouteConfig) (front back : List Text) :
    front ++ (config.servers.map IpAddr.display ++ back) = meant config (front ++ back) ↔
      if config.routingDomains = [] then front ++ back = []
      else front ++ config.servers.map IpAddr.display = config.servers.map IpAddr.display ++ front := by
  by_cases hd : config.routingDomains = []
  · rw [meant, if_neg (not_not_intro hd), if_pos hd, List.append_nil]
    constructor
    · intro h
      have hlen := congrArg List.length h
      simp only [List.length_append] at hlen
      exact List.eq_nil_of_length_eq_zero (by rw [List.length_append]; omega)
    · intro h
      obtain ⟨rfl, rfl⟩ := List.append_eq_nil_iff.mp h
      rw [List.nil_append, List.append_nil]
  · rw [meant, if_pos hd, if_neg hd, ← List.append_assoc, ← List.append_assoc, List.append_left_inj]

/-- Both backends leave the host with what `set()` means exactly if no other
`tun*` record gets in the way of the servers, and a full override finds no
resolvers to keep. -/
theorem agree_iff (owner : Text) (self : Resolvconf)
    (hname : self.registrationName = registrationName owner) (st : StaticResolvConf)
    (howner : st.owner = owner) (interface : Text) (config : DnsRouteConfig) (records : Records)
    (order : List Text) (hl : Lists order (recordsAfterSet self records interface config)) (fs : Fs)
    (existing : List Text)
    (hrecords : merged order (Function.update records self.registrationName none) = existing)
    (hfile : parseNameservers (originalOf st fs) = existing) :
    (merged order (recordsAfterSet self records interface config) = meant config existing ∧
      staticNameservers st fs interface config = meant config existing) ↔
        ownerNameservers owner = [] ∧
          if config.routingDomains = [] then existing = []
          else
            let servers := config.servers.map IpAddr.display
            let rival := merged (rivals order self.registrationName) records
            rival ++ servers = servers ++ rival := by
  have htun : isTun self.registrationName = true := by
    rw [hname]
    exact isTun_registrationName owner
  have hm : self.registrationName ∈ order := by
    apply hl.complete
    rw [recordsAfterSet_eq, Function.update_self]
    rfl
  obtain ⟨back, hback⟩ := merged_update hl.nodup hm records
  rw [← rivals_eq hl htun hm] at hback
  have hexisting : existing = merged (rivals order self.registrationName) records ++
      merged back records := by
    rw [← hrecords, hback, Option.getD_none, List.nil_append]
  have hstatic : staticNameservers st fs interface config = meant config existing ↔
      ownerNameservers owner = [] := by
    rw [staticNameservers_eq, hfile, howner, List.append_left_eq_self]
  rw [hstatic, recordsAfterSet_eq, hback, Option.getD_some, hexisting, meant_iff, and_comm]

def uplink : Records := Function.update (fun _ => none) "eth0".toList (some ["9.9.9.9".toList])

def vpn : Resolvconf := ResolvconfRecords.instanceOf "vpn".toList

def uplinkOrder : List Text := [vpn.registrationName, "eth0".toList]

theorem uplinkOrder_lists (interface : Text) (config : DnsRouteConfig) :
    Lists uplinkOrder (recordsAfterSet vpn uplink interface config) := by
  refine ⟨by decide +kernel, fun name h => ?_, by decide +kernel⟩
  by_contra hn
  rw [uplinkOrder, List.mem_cons, List.mem_singleton, not_or] at hn
  rw [recordsAfterSet_eq, Function.update_of_ne hn.1, uplink, Function.update_of_ne hn.2] at h
  cases h

theorem forwarding_agrees :
    let st := opened "vpn".toList resolvConf (diskWith nameservers)
    merged uplinkOrder (recordsAfterSet vpn uplink "wg0".toList vpnConfig) =
        meant vpnConfig ["9.9.9.9".toList] ∧
      staticNameservers st (diskWith nameservers) "wg0".toList vpnConfig =
        meant vpnConfig ["9.9.9.9".toList] :=
  (agree_iff "vpn".toList vpn rfl _ (by rw [opened_eq]) "wg0".toList vpnConfig uplink uplinkOrder
    (uplinkOrder_lists _ _) (diskWith nameservers) ["9.9.9.9".toList] (by decide +kernel)
    (by decide +kernel)).mpr
    ⟨ownerNameservers_eq_nil (by decide), by decide +kernel⟩

/-- A full override: `resolvconf(8)` keeps the resolver that the static backend
leaves out. -/
theorem full_override_differs :
    let config : DnsRouteConfig := ⟨vpnConfig.servers, []⟩
    let existing := ["9.9.9.9".toList]
    let fs := diskWith nameservers
    let st := opened "vpn".toList resolvConf fs
    let records := recordsAfterSet vpn uplink "wg0".toList config
    probe ResolvconfRecords.openresolv "vpn".toList = .ok vpn ∧ Lists uplinkOrder records ∧
      merged uplinkOrder (Function.update uplink vpn.registrationName none) = existing ∧
      parseNameservers (originalOf st fs) = existing ∧
      staticNameservers st fs "wg0".toList config = meant config existing ∧
      merged uplinkOrder records ≠ meant config existing :=
  ⟨by decide +kernel, uplinkOrder_lists _ _, by decide +kernel⟩

end DnsAnnounce.BackendAgreement
