import DnsAnnounce.Nameservers
import Mathlib.Data.List.Infix

namespace DnsAnnounce.ResolvconfBackend

open DnsAnnounce.Utf8 DnsAnnounce.Str DnsAnnounce.Address DnsAnnounce.Effect
open DnsAnnounce.FileSystem DnsAnnounce.Route DnsAnnounce.StaticBackend DnsAnnounce.Nameservers Method

inductive Error
  | NotAvailable (msg : Text)
  | Io (e : ErrorKind)
  | CommandFailed (args : List Text) (stderr : Text)
  deriving DecidableEq

structure Resolvconf where
  binary : PathBuf
  registrationName : Text
  active : Bool
  deriving DecidableEq

structure Output where
  success : Bool
  stderr : Bytes

inductive ProcCall
  | spawn (binary : PathBuf) (args : List Text)
  | writeAll (data : Bytes)
  | waitWithOutput
  deriving DecidableEq

def ProcResp : ProcCall → Type
  | .spawn _ _ | .writeAll _ => Except ErrorKind Unit
  | .waitWithOutput => Except ErrorKind Output

abbrev ProcProg (α : Type) := Prog ProcCall ProcResp α

abbrev ProcMethod (α : Type) := Method ProcCall ProcResp Resolvconf Error α

def spawn (binary : PathBuf) (args : List Text) : ProcProg (Except ErrorKind Unit) :=
  .perform (ProcCall.spawn binary args)

def writeAll (data : Bytes) : ProcProg (Except ErrorKind Unit) := .perform (ProcCall.writeAll data)

def waitWithOutput : ProcProg (Except ErrorKind Output) := .perform ProcCall.waitWithOutput

def propagateIo {α : Type} (r : Except ErrorKind α) : ProcMethod α := propagate (r.mapError .Io)

def run (args : List Text) (stdinData : Text) : ProcMethod Unit := do
  let self ← this
  propagateIo (← lift (spawn self.binary args))
  propagateIo (← lift (writeAll (encode stdinData)))
  let output ← propagateIo (← lift waitWithOutput)
  if !output.success then
    fail (.CommandFailed args (decodeLossy output.stderr))

def inputFor (config : DnsRouteConfig) : Text :=
  config.servers.flatMap fun server => nameserverLine server.display

def addArgs (name : Text) : List Text := ["-a".toList, name]

def deleteArgs (name : Text) : List Text := ["-d".toList, name, "-f".toList]

def set (_interface : Text) (config : DnsRouteConfig) : ProcMethod Unit := do
  let self ← this
  run (addArgs self.registrationName) (inputFor config)
  assign fun self => { self with active := true }

def reset : ProcMethod Unit := do
  let self ← this
  if !self.active then
    return ()
  assign fun self => { self with active := false }
  run (deleteArgs self.registrationName) []

def route : DnsRoute ProcCall ProcResp Resolvconf Error := ⟨set, reset⟩

def registrationPrefix : Text := "tun-".toList

def sanitized (owner : Text) : Text :=
  (owner.filter fun c => c.isAlphanum || c = '-' || c = '_').take 32

/-- The name to register under: not the interface's own, so that it sorts first. -/
def registrationName (owner : Text) : Text := registrationPrefix ++ sanitized owner

section Probe

/-- What `probe()` looks at. -/
structure Environment where
  pathVar : Option Text
  isFile : PathBuf → Bool
  canonicalize : PathBuf → Option PathBuf
  readToString : PathBuf → Option Text

variable (env : Environment)

def findInPath (name : Text) : Option PathBuf := do
  let pathVar ← env.pathVar
  ((pathVar.splitOnP (· = ':')).map fun dir => join dir name).find? env.isFile

def fileName (path : PathBuf) : Option Text := (path.splitOnP (· = '/')).getLast?

def pointsAtResolvectl (path : PathBuf) : Bool :=
  (env.canonicalize path).bind fileName = some "resolvectl".toList

def libcUpdater : PathBuf := "/etc/resolvconf/update.d/libc".toList

def resolvconfDefaults : PathBuf := "/etc/default/resolvconf".toList

def truncateKnob : Text := "TRUNCATE_NAMESERVER_LIST_AFTER_LOOPBACK_ADDRESS".toList

def assignedValue (line : Text) : Option Text := do
  let rest ← stripPrefix truncateKnob (trim line)
  let rest ← stripPrefix ['='] rest
  let isQuote := fun c => c = '"' || c = '\''
  let value := ((trim (rest.takeWhile (· ≠ '#'))).dropWhile isQuote).rdropWhile isQuote
  if value ≠ [] then some value else none

def truncationEnabled (defaultsSrc : Text) : Bool :=
  match ((lines defaultsSrc).filterMap assignedValue).getLast? with
  | some v => v ∈ ["y".toList, "Y".toList, "yes".toList, "YES".toList, "Yes".toList]
  | none => true

def truncatesAt (updater defaults : PathBuf) : Bool :=
  match env.readToString updater with
  | none => false
  | some updaterSrc =>
    truncateKnob <:+: updaterSrc && truncationEnabled ((env.readToString defaults).getD [])

def shimMessage : Text :=
  ("resolvconf is a systemd-resolved compatibility shim; " ++
    "use the systemd-resolved backend instead").toList

def truncatingMessage : Text :=
  ("this resolvconf truncates the merged nameserver list after a " ++
    "leading loopback address (TRUNCATE_NAMESERVER_LIST_AFTER_LOOPBACK_ADDRESS); " ++
    "REFUSED-fallback conditional forwarding needs the whole list kept. " ++
    "Set it to 'no' in /etc/default/resolvconf to use this backend").toList

def probeNamed (name owner : Text) : Except Error Resolvconf :=
  match findInPath env name with
  | none => .error (.NotAvailable (name ++ " not found on PATH".toList))
  | some binary =>
    if pointsAtResolvectl env binary then .error (.NotAvailable shimMessage)
    else if truncatesAt env libcUpdater resolvconfDefaults then
      .error (.NotAvailable truncatingMessage)
    else .ok ⟨binary, registrationName owner, false⟩

def probe (owner : Text) : Except Error Resolvconf := probeNamed env "resolvconf".toList owner

theorem probe_ok {env : Environment} {owner : Text} {self : Resolvconf}
    (h : probe env owner = .ok self) :
    self.registrationName = registrationName owner ∧ self.active = false := by
  unfold probe probeNamed at h
  split at h
  · cases h
  · split_ifs at h
    cases h
    exact ⟨rfl, rfl⟩

end Probe

abbrev Records := Text → Option (List Text)

/-- `resolvconf(8)` as a map from record names to nameservers. -/
def resolvconf (args : List Text) (stdin : Bytes) (records : Records) : Records :=
  match args with
  | [flag, name] =>
    if flag = "-a".toList then Function.update records name (some (parseNameservers stdin))
    else records
  | [flag, name, force] =>
    if flag = "-d".toList ∧ force = "-f".toList then Function.update records name none
    else records
  | _ => records

/-- The registered records, and the child process with what it has been given
on its standard input. -/
structure Host where
  records : Records
  child : Option (List Text × Bytes)

def Host.idle (records : Records) : Host := ⟨records, none⟩

/-- The child reads the end of its input and runs. -/
def Host.complete (host : Host) (rest : Bytes) : Host :=
  match host.child with
  | none => host
  | some (args, stdin) => .idle (resolvconf args (stdin ++ rest) host.records)

def procHandler : Handler ProcCall ProcResp Host
  | .spawn _ args, host => (.ok (), { host with child := some (args, []) })
  | .writeAll data, host => (.ok (), { host with child := host.child.map fun c => (c.1, c.2 ++ data) })
  | .waitWithOutput, host => (.ok ⟨true, []⟩, host.complete [])

/-- A failing call: the command may have run all the same, on as much of its
input as `ran` says, and it may have exited with a failure of its own. -/
structure ProcFault where
  error : ErrorKind
  exit : Option Bytes
  ran : Option Nat

def procFail : (c : ProcCall) → ProcFault → Host → ProcResp c × Host
  | .spawn _ _, f, host => (.error f.error, host)
  | .writeAll data, f, host =>
    (.error f.error, match f.ran with
      | none => .idle host.records
      | some j => host.complete (data.take j))
  | .waitWithOutput, f, host =>
    ((match f.exit with
      | none => .error f.error
      | some stderr => .ok ⟨false, stderr⟩),
      match f.ran with
      | none => .idle host.records
      | some _ => host.complete [])

section Calls

variable (plan : ProcCall → Option ProcFault)

abbrev os : Handler ProcCall ProcResp Host := faulty procHandler procFail plan

/-- What a command reports, and what it makes of the records. -/
def commanded (binary : PathBuf) (args : List Text) (input : Text) (records : Records) :
    Except Error Unit × Records :=
  match plan (.spawn binary args) with
  | some f => (.error (.Io f.error), records)
  | none => match plan (.writeAll (encode input)) with
    | some f => (.error (.Io f.error), match f.ran with
      | none => records
      | some j => resolvconf args ((encode input).take j) records)
    | none => match plan .waitWithOutput with
      | some f =>
        (match f.exit with
          | none => .error (.Io f.error)
          | some stderr => .error (.CommandFailed args (decodeLossy stderr)),
          match f.ran with
          | none => records
          | some _ => resolvconf args (encode input) records)
      | none => (.ok (), resolvconf args (encode input) records)

variable {plan} in
theorem exec_spawn (binary : PathBuf) (args : List Text) (host : Host) :
    exec (os plan) (spawn binary args) host =
      match plan (.spawn binary args) with
      | none => (.ok (), { host with child := some (args, []) })
      | some f => (.error f.error, host) := by
  change faulty procHandler procFail plan (.spawn binary args) host = _
  rw [faulty]
  cases plan (.spawn binary args) <;> rfl

variable {plan} in
theorem exec_writeAll (data : Bytes) (host : Host) :
    exec (os plan) (writeAll data) host =
      match plan (.writeAll data) with
      | none => procHandler (.writeAll data) host
      | some f => procFail (.writeAll data) f host := by
  change faulty procHandler procFail plan (.writeAll data) host = _
  rw [faulty]
  cases plan (.writeAll data) <;> rfl

variable {plan} in
theorem exec_waitWithOutput (host : Host) :
    exec (os plan) waitWithOutput host =
      match plan .waitWithOutput with
      | none => procHandler .waitWithOutput host
      | some f => procFail .waitWithOutput f host := by
  change faulty procHandler procFail plan .waitWithOutput host = _
  rw [faulty]
  cases plan .waitWithOutput <;> rfl

theorem exec_run (args : List Text) (input : Text) (self : Resolvconf) (records : Records) :
    exec (os plan) (run args input self) (.idle records) =
      (((commanded plan self.binary args input records).1, self),
        .idle (commanded plan self.binary args input records).2) := by
  unfold run commanded
  cases hs : plan (.spawn self.binary args) with
  | some f => simp [exec_spawn, hs, propagateIo, Except.mapError]
  | none =>
    cases hw : plan (.writeAll (encode input)) with
    | some f =>
      cases hr : f.ran <;>
        simp [exec_spawn, exec_writeAll, hs, hw, hr, propagateIo, Except.mapError, procFail, Host.idle,
          Host.complete]
    | none =>
      cases hx : plan .waitWithOutput with
      | none =>
        simp [exec_spawn, exec_writeAll, exec_waitWithOutput, hs, hw, hx, propagateIo, Except.mapError,
          procHandler, Host.idle, Host.complete]
      | some f =>
        cases hr : f.ran <;> cases he : f.exit <;>
          simp [exec_spawn, exec_writeAll, exec_waitWithOutput, hs, hw, hx, hr, he, propagateIo,
            Except.mapError, procHandler, procFail, Host.idle, Host.complete]

theorem exec_set (interface : Text) (config : DnsRouteConfig) (self : Resolvconf) (records : Records) :
    exec (os plan) (set interface config self) (.idle records) =
      match commanded plan self.binary (addArgs self.registrationName) (inputFor config) records with
      | (.error e, records') => ((.error e, self), .idle records')
      | (.ok (), records') => ((.ok (), { self with active := true }), .idle records') := by
  rw [set]
  cases hc : commanded plan self.binary (addArgs self.registrationName) (inputFor config) records with
  | mk r records' => cases r <;> simp [exec_run, hc]

theorem exec_reset (self : Resolvconf) (records : Records) :
    exec (os plan) (reset self) (.idle records) =
      if self.active = false then ((.ok (), self), .idle records)
      else
        (((commanded plan self.binary (deleteArgs self.registrationName) [] records).1,
          { self with active := false }),
          .idle (commanded plan self.binary (deleteArgs self.registrationName) [] records).2) := by
  rw [reset]
  by_cases ha : self.active = false <;> simp [ha, exec_run]

end Calls

theorem resolvconf_add (name : Text) (stdin : Bytes) (records : Records) :
    resolvconf (addArgs name) stdin records =
      Function.update records name (some (parseNameservers stdin)) := by
  rw [addArgs, resolvconf, if_pos rfl]

theorem resolvconf_delete (name : Text) (stdin : Bytes) (records : Records) :
    resolvconf (deleteArgs name) stdin records = Function.update records name none := by
  rw [deleteArgs, resolvconf, if_pos ⟨rfl, rfl⟩]

theorem parseNameservers_inputFor (config : DnsRouteConfig) :
    parseNameservers (encode (inputFor config)) = config.servers.map IpAddr.display := by
  rw [inputFor, ← List.flatMap_map]
  apply parseNameservers_lines
  intro addr h
  obtain ⟨server, -, rfl⟩ := List.mem_map.mp h
  exact isWord_display server

end DnsAnnounce.ResolvconfBackend
