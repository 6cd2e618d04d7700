import DnsAnnounce.FileSystem
import DnsAnnounce.Route
import DnsAnnounce.Str
import Mathlib.Data.List.Infix

namespace DnsAnnounce.ResolvedBackend

open DnsAnnounce.Utf8 DnsAnnounce.Str DnsAnnounce.Address DnsAnnounce.Effect
open DnsAnnounce.FileSystem DnsAnnounce.Route Method

abbrev ObjectPath := Text

inductive BusCall
  | readToString (path : PathBuf)
  | managerProxy
  | getLink (ifindex : Int)
  | linkProxy (path : ObjectPath)
  | setDns (link : ObjectPath) (addresses : List (Int × Bytes))
  | setDomains (link : ObjectPath) (domains : List (Text × Bool))
  deriving DecidableEq

/-- An error is known by its text, `io::Error` and `zbus::Error` alike. -/
def BusResp : BusCall → Type
  | .readToString _ => Except Text Text
  | .getLink _ => Except Text ObjectPath
  | .managerProxy | .linkProxy _ | .setDns _ _ | .setDomains _ _ => Except Text Unit

abbrev BusProg (α : Type) := Prog BusCall BusResp α

def readToString (path : PathBuf) : BusProg (Except Text Text) := .perform (BusCall.readToString path)

def managerProxy : BusProg (Except Text Unit) := .perform BusCall.managerProxy

def getLink (ifindex : Int) : BusProg (Except Text ObjectPath) := .perform (BusCall.getLink ifindex)

def buildLinkProxy (path : ObjectPath) : BusProg (Except Text Unit) :=
  .perform (BusCall.linkProxy path)

def setDns (link : ObjectPath) (addresses : List (Int × Bytes)) : BusProg (Except Text Unit) :=
  .perform (BusCall.setDns link addresses)

def setDomains (link : ObjectPath) (domains : List (Text × Bool)) : BusProg (Except Text Unit) :=
  .perform (BusCall.setDomains link domains)

inductive Error
  | NotAvailable (msg : Text)
  | DBus (e : Text)
  deriving DecidableEq

structure SystemdResolved where
  /-- The link `set()` last configured, so `reset()` knows what to undo. -/
  activeLink : Option Int
  deriving DecidableEq

abbrev BusMethod (α : Type) := Method BusCall BusResp SystemdResolved Error α

def afInet : Int := 2

def afInet6 : Int := 10

def encodeAddr : IpAddr → Int × Bytes
  | .V4 v4 => (afInet, v4.octets)
  | .V6 v6 => (afInet6, v6.octets)

def parseDigits (digits : Text) : Option Nat :=
  if digits ≠ [] ∧ digits.all Char.isDigit then
    some (digits.foldl (fun n c => 10 * n + (c.toNat - '0'.toNat)) 0)
  else none

def parseI32 (text : Text) : Option Int :=
  let value : Option Int := match text with
    | '-' :: digits => (parseDigits digits).map fun n => -(n : Int)
    | '+' :: digits => (parseDigits digits).map fun n => (n : Int)
    | digits => (parseDigits digits).map fun n => (n : Int)
  value.filter fun v => -2 ^ 31 ≤ v ∧ v < 2 ^ 31

def propagateDBus {α : Type} (r : Except Text α) : BusMethod α := propagate (r.mapError .DBus)

def linkProxy (ifindex : Int) : BusMethod ObjectPath := do
  propagateDBus (← lift managerProxy)
  let path ← propagateDBus (← lift (getLink ifindex))
  propagateDBus (← lift (buildLinkProxy path))
  return path

def ifindexFile (sysClassNet : PathBuf) (interface : Text) : PathBuf :=
  join (join sysClassNet interface) "ifindex".toList

def parseIfindex (path : PathBuf) : Except Text Text → Except Error Int
  | .error e => .error (.NotAvailable ("reading ".toList ++ path ++ ": ".toList ++ e))
  | .ok raw => match parseI32 (trim raw) with
    | none => .error (.NotAvailable (path ++ " does not contain an integer".toList))
    | some idx => .ok idx

def ifindex (sysClassNet : PathBuf) (interface : Text) : BusMethod Int := do
  let path := ifindexFile sysClassNet interface
  propagate (parseIfindex path (← lift (readToString path)))

def sysClassNet : PathBuf := "/sys/class/net".toList

def set (interface : Text) (config : DnsRouteConfig) : BusMethod Unit := do
  let idx ← ifindex sysClassNet interface
  let link ← linkProxy idx
  propagateDBus (← lift (setDns link (config.servers.map encodeAddr)))
  propagateDBus (← lift (setDomains link (config.routingDomains.map fun d => (d, true))))
  assign fun self => { self with activeLink := some idx }

def reset : BusMethod Unit := do
  let self ← this
  match self.activeLink with
  | none => return ()
  | some idx =>
    assign fun self => { self with activeLink := none }
    match ← attempt (linkProxy idx) with
    -- most likely the interface is gone already
    | .error (.DBus _) => return ()
    | .error e => fail e
    | .ok link =>
      propagateDBus (← lift (setDns link []))
      propagateDBus (← lift (setDomains link []))

def route : DnsRoute BusCall BusResp SystemdResolved Error := ⟨set, reset⟩

section Probe

variable (readLink : PathBuf → Option PathBuf) (systemBus : Except Text Unit)

def resolvConfPointsAtResolved (resolvConf : PathBuf) : Bool :=
  match readLink resolvConf with
  | some target => "systemd/resolve/".toList <:+: target && "resolv.conf".toList <:+ target
  | none => false

def probeWithResolvConf (resolvConf : PathBuf) : Except Error SystemdResolved :=
  if !resolvConfPointsAtResolved readLink resolvConf then
    .error (.NotAvailable
      (resolvConf ++ " is not a symlink into systemd-resolved's runtime directory".toList))
  else (systemBus.mapError .DBus).map fun _ => ⟨none⟩

def probe : Except Error SystemdResolved :=
  probeWithResolvConf readLink systemBus "/etc/resolv.conf".toList

end Probe

/-- What a link carries. -/
@[ext] structure LinkState where
  dns : List (Int × Bytes)
  domains : List (Text × Bool)
  deriving DecidableEq

def blank : LinkState := ⟨[], []⟩

def pushed (config : DnsRouteConfig) : LinkState :=
  ⟨config.servers.map encodeAddr, config.routingDomains.map fun d => (d, true)⟩

abbrev Links := ObjectPath → LinkState

/-- The interfaces of the host: what sysfs says of them, and their link objects. -/
structure Net where
  files : PathBuf → Except Text Text
  link : Int → Except Text ObjectPath

def setLinkDns (links : Links) (link : ObjectPath) (addresses : List (Int × Bytes)) : Links :=
  Function.update links link { links link with dns := addresses }

def setLinkDomains (links : Links) (link : ObjectPath) (domains : List (Text × Bool)) : Links :=
  Function.update links link { links link with domains := domains }

def busHandler (net : Net) : Handler BusCall BusResp Links
  | .readToString path, links => (net.files path, links)
  | .managerProxy, links => (.ok (), links)
  | .getLink ifindex, links => (net.link ifindex, links)
  | .linkProxy _, links => (.ok (), links)
  | .setDns link addresses, links => (.ok (), setLinkDns links link addresses)
  | .setDomains link domains, links => (.ok (), setLinkDomains links link domains)

/-- A failing call, which may all the same have had its effect. -/
structure BusFault where
  error : Text
  effect : Bool

def busFail : (c : BusCall) → BusFault → Links → BusResp c × Links
  | .readToString _, f, links => (.error f.error, links)
  | .managerProxy, f, links => (.error f.error, links)
  | .getLink _, f, links => (.error f.error, links)
  | .linkProxy _, f, links => (.error f.error, links)
  | .setDns link addresses, f, links =>
    (.error f.error, if f.effect then setLinkDns links link addresses else links)
  | .setDomains link domains, f, links =>
    (.error f.error, if f.effect then setLinkDomains links link domains else links)

section Calls

variable (net : Net) (plan : BusCall → Option BusFault)

abbrev bus : Handler BusCall BusResp Links := faulty (busHandler net) busFail plan

def told {α : Type} (f : Option BusFault) (r : Except Text α) : Except Text α :=
  match f with
  | none => r
  | some f => .error f.error

def left (f : Option BusFault) (links done : Links) : Links :=
  match f with
  | none => done
  | some f => if f.effect then done else links

def indexOf (interface : Text) : Except Error Int :=
  let path := ifindexFile sysClassNet interface
  parseIfindex path (told (plan (.readToString path)) (net.files path))

def proxyOf (idx : Int) : Except Text ObjectPath :=
  match told (plan .managerProxy) (.ok ()) with
  | .error e => .error e
  | .ok () => match told (plan (.getLink idx)) (net.link idx) with
    | .error e => .error e
    | .ok link => match told (plan (.linkProxy link)) (.ok ()) with
      | .error e => .error e
      | .ok () => .ok link

/-- What `SetDNS` and `SetDomains` report, one after the other, and what they
make of the links. -/
def push (link : ObjectPath) (state : LinkState) (links : Links) : Except Text Unit × Links :=
  let dns := plan (.setDns link state.dns)
  let links' := left dns links (setLinkDns links link state.dns)
  match told dns (.ok ()) with
  | .error e => (.error e, links')
  | .ok () =>
    let domains := plan (.setDomains link state.domains)
    (told domains (.ok ()), left domains links' (setLinkDomains links' link state.domains))

variable {net plan} (links : Links)

@[simp] theorem setLinkDomains_setLinkDns (link : ObjectPath) (state : LinkState) :
    setLinkDomains (setLinkDns links link state.dns) link state.domains =
      Function.update links link state := by
  simp [setLinkDomains, setLinkDns]

@[simp] theorem exec_readToString (path : PathBuf) :
    exec (bus net plan) (readToString path) links =
      (told (plan (.readToString path)) (net.files path), links) := by
  change faulty (busHandler net) busFail plan (.readToString path) links = _
  rw [faulty]
  cases plan (.readToString path) <;> rfl

@[simp] theorem exec_managerProxy : exec (bus net plan) managerProxy links =
    (told (plan .managerProxy) (.ok ()), links) := by
  change faulty (busHandler net) busFail plan .managerProxy links = _
  rw [faulty]
  cases plan .managerProxy <;> rfl

@[simp] theorem exec_getLink (idx : Int) : exec (bus net plan) (getLink idx) links =
    (told (plan (.getLink idx)) (net.link idx), links) := by
  change faulty (busHandler net) busFail plan (.getLink idx) links = _
  rw [faulty]
  cases plan (.getLink idx) <;> rfl

@[simp] theorem exec_buildLinkProxy (link : ObjectPath) :
    exec (bus net plan) (buildLinkProxy link) links =
      (told (plan (.linkProxy link)) (.ok ()), links) := by
  change faulty (busHandler net) busFail plan (.linkProxy link) links = _
  rw [faulty]
  cases plan (.linkProxy link) <;> rfl

@[simp] theorem exec_setDns (link : ObjectPath) (addresses : List (Int × Bytes)) :
    exec (bus net plan) (setDns link addresses) links =
      (told (plan (.setDns link addresses)) (.ok ()),
        left (plan (.setDns link addresses)) links (setLinkDns links link addresses)) := by
  change faulty (busHandler net) busFail plan (.setDns link addresses) links = _
  rw [faulty]
  cases plan (.setDns link addresses) <;> rfl

@[simp] theorem exec_setDomains (link : ObjectPath) (domains : List (Text × Bool)) :
    exec (bus net plan) (setDomains link domains) links =
      (told (plan (.setDomains link domains)) (.ok ()),
        left (plan (.setDomains link domains)) links (setLinkDomains links link domains)) := by
  change faulty (busHandler net) busFail plan (.setDomains link domains) links = _
  rw [faulty]
  cases plan (.setDomains link domains) <;> rfl

variable (self : SystemdResolved)

@[simp] theorem propagateDBus_ok {α : Type} (a : α) : propagateDBus (.ok a) = pure a := rfl

@[simp] theorem propagateDBus_error {α : Type} (e : Text) :
    (propagateDBus (.error e) : BusMethod α) = fail (.DBus e) := rfl

@[simp] theorem exec_ifindex (interface : Text) :
    exec (bus net plan) (ifindex sysClassNet interface self) links =
      ((indexOf net plan interface, self), links) := by
  unfold ifindex indexOf
  cases h : parseIfindex (ifindexFile sysClassNet interface)
    (told (plan (.readToString (ifindexFile sysClassNet interface)))
      (net.files (ifindexFile sysClassNet interface))) <;> simp [h]

@[simp] theorem exec_linkProxy (idx : Int) : exec (bus net plan) (linkProxy idx self) links =
    (((proxyOf net plan idx).mapError .DBus, self), links) := by
  unfold linkProxy proxyOf
  cases hm : told (plan .managerProxy) (.ok ()) with
  | error e => simp [hm, Except.mapError]
  | ok _ =>
    cases hg : told (plan (.getLink idx)) (net.link idx) with
    | error e => simp [hm, hg, Except.mapError]
    | ok link =>
      cases hl : told (plan (.linkProxy link)) (.ok ()) <;> simp [hm, hg, hl, Except.mapError]

variable (net plan) in
theorem exec_set (interface : Text) (config : DnsRouteConfig) :
    exec (bus net plan) (set interface config self) links =
      match indexOf net plan interface with
      | .error e => ((.error e, self), links)
      | .ok idx => match proxyOf net plan idx with
        | .error e => ((.error (.DBus e), self), links)
        | .ok link => match push plan link (pushed config) links with
          | (.error e, links') => ((.error (.DBus e), self), links')
          | (.ok (), links') => ((.ok (), ⟨some idx⟩), links') := by
  rw [set]
  cases hi : indexOf net plan interface with
  | error e => simp [hi]
  | ok idx =>
    cases hp : proxyOf net plan idx with
    | error e => simp [hi, hp, Except.mapError]
    | ok link =>
      cases hs : told (plan (.setDns link (config.servers.map encodeAddr))) (.ok ()) with
      | error e => simp [hi, hp, hs, Except.mapError, push, pushed]
      | ok _ =>
        cases hd : told (plan (.setDomains link (config.routingDomains.map fun d => (d, true))))
          (.ok ()) <;> simp [hi, hp, hs, hd, Except.mapError, push, pushed]

variable (net plan) in
theorem exec_reset : exec (bus net plan) (reset self) links =
    match self.activeLink with
    | none => ((.ok (), self), links)
    | some idx => match proxyOf net plan idx with
      | .error _ => ((.ok (), ⟨none⟩), links)
      | .ok link =>
        (((push plan link blank links).1.mapError .DBus, ⟨none⟩), (push plan link blank links).2) := by
  rw [reset]
  cases ha : self.activeLink with
  | none => simp [ha]
  | some idx =>
    cases hp : proxyOf net plan idx with
    | error e => simp [ha, hp, Except.mapError]
    | ok link =>
      cases hs : told (plan (.setDns link [])) (.ok ()) with
      | error e => simp [ha, hp, hs, Except.mapError, push, blank]
      | ok _ =>
        cases hd : told (plan (.setDomains link [])) (.ok ()) <;>
          simp [ha, hp, hs, hd, Except.mapError, push, blank]

end Calls

end DnsAnnounce.ResolvedBackend
