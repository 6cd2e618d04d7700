import DnsAnnounce.FileSystem
import DnsAnnounce.Route
import DnsAnnounce.Str

namespace DnsAnnounce.StaticBackend

open DnsAnnounce.Utf8 DnsAnnounce.Str DnsAnnounce.Address DnsAnnounce.Effect
open DnsAnnounce.FileSystem DnsAnnounce.Route Method

def markerPrefix : Text := "# managed-by=dns-host-config;owner=".toList

def backupPathFor (path : PathBuf) : PathBuf := path ++ ".dns-host-config.bak".toList

structure StaticResolvConf where
  owner : Text
  path : PathBuf
  backupPath : PathBuf
  /-- Whether this instance, or one before it that never cleanly reset, has an
  override in place. -/
  active : Bool
  backupPath_eq : backupPath = backupPathFor path

def markerLine (owner : Text) : Text := markerPrefix ++ owner ++ ['\n']

def ownerOfText (content : Text) : Option Text := (lines content).head?.bind (stripPrefix markerPrefix)

def currentOwner (path : PathBuf) : FsProg (Option Text) :=
  (readToString path).bind fun
    | .error _ => .ret none
    | .ok content => .ret (ownerOfText content)

def parseNameservers (content : Bytes) : List Text :=
  (lines (decodeLossy content)).filterMap fun line =>
    (stripPrefix "nameserver".toList (trim line)).bind fun rest => (splitWhitespace rest).head?

def nameserverLine (addr : Text) : Text := "nameserver ".toList ++ addr ++ ['\n']

theorem nameserverLine_eq (addr : Text) :
    nameserverLine addr = "nameserver ".toList ++ (addr ++ ['\n']) := List.append_assoc ..

def render (owner : Text) (config : DnsRouteConfig) (original : Bytes) : Text :=
  markerLine owner ++ config.servers.flatMap (fun server => nameserverLine server.display) ++
    if config.routingDomains ≠ [] then (parseNameservers original).flatMap nameserverLine else []

def withPath (owner : Text) (path : PathBuf) : FsProg StaticResolvConf :=
  (currentOwner path).bind fun current =>
    if current = some owner then
      (pathExists (backupPathFor path)).bind fun e => .ret ⟨owner, path, backupPathFor path, e, rfl⟩
    else .ret ⟨owner, path, backupPathFor path, false, rfl⟩

def new (owner : Text) : FsProg StaticResolvConf := withPath owner "/etc/resolv.conf".toList

abbrev FsMethod (α : Type) := Method FsCall FsResp StaticResolvConf ErrorKind α

def reusingBackup : FsMethod Bool := do
  let self ← this
  if (← lift (currentOwner self.path)) = some self.owner then
    lift (pathExists self.backupPath)
  else
    pure false

/-- The real original content: what is backed up already, or else what a first
takeover finds and backs up. -/
def originalContent (reusing : Bool) : FsMethod Bytes := do
  let self ← this
  if reusing then
    propagate (← lift (read self.backupPath))
  else
    match ← lift (read self.path) with
    | .ok existing =>
      propagate (← lift (write self.backupPath existing))
      pure existing
    | .error .NotFound =>
      propagate (← lift (write self.backupPath []))
      pure []
    | .error e => fail e

def set (_interface : Text) (config : DnsRouteConfig) : FsMethod Unit := do
  let original ← originalContent (← reusingBackup)
  let self ← this
  propagate (← lift (write self.path (encode (render self.owner config original))))
  assign fun self => { self with active := true }

def reset : FsMethod Unit := do
  let self ← this
  if !self.active then
    return ()
  assign fun self => { self with active := false }
  if (← lift (currentOwner self.path)) ≠ some self.owner then
    let _ ← lift (removeFile self.backupPath)
    return ()
  if ← lift (pathExists self.backupPath) then
    let backup ← propagate (← lift (read self.backupPath))
    if backup.isEmpty then
      match ← lift (removeFile self.path) with
      | .ok () => pure ()
      | .error e => if e ≠ .NotFound then fail e
    else
      propagate (← lift (write self.path backup))
    propagate (← lift (removeFile self.backupPath))

def route : DnsRoute FsCall FsResp StaticResolvConf ErrorKind := ⟨set, reset⟩

/-- `current_owner` of a file with this content. -/
def ownerIn (content : Option Bytes) : Option Text :=
  match readTextResult content with
  | .error _ => none
  | .ok text => ownerOfText text

@[simp] theorem exec_currentOwner (path : PathBuf) (fs : Fs) :
    exec fsHandler (currentOwner path) fs = (ownerIn (fs path), fs) := by
  rw [currentOwner, exec_bind, exec_readToString, ownerIn]
  cases readTextResult (fs path) <;> rfl

/-- The owners whose marker line reads back as it was written. -/
def OneLine (owner : Text) : Prop := '\n' ∉ owner ∧ owner.getLast? ≠ some '\r'

instance (owner : Text) : Decidable (OneLine owner) := inferInstanceAs (Decidable (_ ∧ _))

theorem ownerOfText_eq_some {content owner : Text} :
    ownerOfText content = some owner ↔ (lines content).head? = some (markerPrefix ++ owner) := by
  rw [ownerOfText, Option.bind_eq_some_iff]
  constructor
  · rintro ⟨line, hl, ho⟩
    rw [hl, stripPrefix_eq_some.mp ho]
  · intro h
    exact ⟨_, h, stripPrefix_append ..⟩

theorem ownerOfText_markerLine (owner rest : Text) :
    ownerOfText (markerLine owner ++ rest) = some owner ↔ OneLine owner := by
  have hne : '\n' ∉ markerPrefix := by decide
  have hlast : markerPrefix.getLast? = some '=' := by decide
  rw [ownerOfText_eq_some]
  constructor
  · intro h
    have hn : '\n' ∉ markerPrefix ++ owner :=
      newline_not_mem_lines (List.mem_of_mem_head? (Option.mem_def.mpr h))
    have ho : '\n' ∉ owner := fun hm => hn (List.mem_append_right _ hm)
    refine ⟨ho, fun hr => ?_⟩
    have hr' : (markerPrefix ++ owner).getLast? = some '\r' := by simp [List.getLast?_append, hr]
    rw [markerLine, List.append_assoc, List.singleton_append, lines_append _ _ hn, if_pos hr',
      List.head?_cons, Option.some.injEq] at h
    have hl := congrArg List.length h
    rw [List.length_dropLast, List.length_append] at hl
    have hpos : 0 < markerPrefix.length := by decide
    omega
  · rintro ⟨ho, hr⟩
    have hn : '\n' ∉ markerPrefix ++ owner := fun hm => (List.mem_append.mp hm).elim hne ho
    have hr' : (markerPrefix ++ owner).getLast? ≠ some '\r' := by
      rw [List.getLast?_append, hlast]
      cases hl : owner.getLast? with
      | none => decide
      | some c => rwa [hl] at hr
    rw [markerLine, List.append_assoc, List.singleton_append, lines_append _ _ hn, if_neg hr',
      List.head?_cons]

@[simp] theorem ownerIn_encode (text : Text) : ownerIn (some (encode text)) = ownerOfText text := by
  simp [ownerIn, readTextResult]

@[simp] theorem ownerIn_none : ownerIn none = none := rfl

@[simp] theorem ownerIn_nil : ownerIn (some []) = none := rfl

theorem ownerIn_render (owner : Text) (config : DnsRouteConfig) (original : Bytes) :
    ownerIn (some (encode (render owner config original))) = some owner ↔ OneLine owner := by
  rw [ownerIn_encode, render, List.append_assoc, ownerOfText_markerLine]

theorem exists_of_ownerIn {content : Option Bytes} {owner : Text}
    (h : ownerIn content = some owner) : ∃ bytes, content = some bytes := by
  cases content with
  | none => cases h
  | some bytes => exact ⟨bytes, rfl⟩

def Reusing (self : StaticResolvConf) (fs : Fs) : Prop :=
  ownerIn (fs self.path) = some self.owner ∧ (fs self.backupPath).isSome = true

instance (self : StaticResolvConf) (fs : Fs) : Decidable (Reusing self fs) :=
  inferInstanceAs (Decidable (_ ∧ _))

def originalOf (self : StaticResolvConf) (fs : Fs) : Bytes :=
  if Reusing self fs then (fs self.backupPath).getD [] else (fs self.path).getD []

/-- What `set()` makes of the file system. -/
def afterSet (self : StaticResolvConf) (config : DnsRouteConfig) (fs : Fs) : Fs :=
  put (put fs self.backupPath (some (originalOf self fs))) self.path
    (some (encode (render self.owner config (originalOf self fs))))

def afterReset (self : StaticResolvConf) (fs : Fs) : Fs :=
  if self.active = false then fs
  else if ownerIn (fs self.path) ≠ some self.owner then put fs self.backupPath none
  else match fs self.backupPath with
    | none => fs
    | some backup =>
      put (put fs self.path (if backup = [] then none else some backup)) self.backupPath none

theorem path_ne_backupPath (self : StaticResolvConf) : self.path ≠ self.backupPath := by
  intro h
  rw [self.backupPath_eq, backupPathFor] at h
  simp at h

theorem exec_reusingBackup (self : StaticResolvConf) (fs : Fs) :
    exec fsHandler (reusingBackup self) fs = ((.ok (decide (Reusing self fs)), self), fs) := by
  unfold reusingBackup Reusing
  by_cases ho : ownerIn (fs self.path) = some self.owner <;> simp [ho]

theorem exec_originalContent (self : StaticResolvConf) (fs : Fs) :
    exec fsHandler (originalContent (decide (Reusing self fs)) self) fs =
      ((.ok (originalOf self fs), self), put fs self.backupPath (some (originalOf self fs))) := by
  unfold originalContent originalOf
  by_cases hr : Reusing self fs
  · obtain ⟨b, hb⟩ := Option.isSome_iff_exists.mp hr.2
    have hput : put fs self.backupPath (some b) = fs := by rw [← hb, put_get]
    simp [hr, hb, readResult, hput]
  · cases hp : fs self.path with
    | none => simp [hr, hp, readResult]
    | some c => simp [hr, hp, readResult]

theorem exec_set (self : StaticResolvConf) (interface : Text) (config : DnsRouteConfig) (fs : Fs) :
    exec fsHandler (set interface config self) fs =
      ((.ok (), { self with active := true }), afterSet self config fs) := by
  simp [set, exec_reusingBackup, exec_originalContent, afterSet]

theorem exec_reset (self : StaticResolvConf) (fs : Fs) :
    exec fsHandler (reset self) fs =
      ((.ok (), { self with active := false }), afterReset self fs) := by
  have hne := path_ne_backupPath self
  unfold reset afterReset
  by_cases ha : self.active = false
  · have hs : self = { self with active := false } := by cases self; simp_all
    simp [ha, ← hs]
  · by_cases ho : ownerIn (fs self.path) = some self.owner
    · obtain ⟨c, hp⟩ := exists_of_ownerIn ho
      rw [hp] at ho
      cases hb : fs self.backupPath with
      | none => simp [ha, ho, hp, hb]
      | some b =>
        by_cases he : b = []
        · simp [ha, ho, hp, hb, he, readResult, exec_removeFile, put_other _ hne.symm]
        · simp [ha, ho, hp, hb, he, readResult, exec_removeFile, put_other _ hne.symm]
    · simp [ha, ho, exec_removeFile]

@[simp] theorem after_set (self : StaticResolvConf) (fs : Fs) (interface : Text)
    (config : DnsRouteConfig) : after route fsHandler (self, fs) (.set interface config) =
      ({ self with active := true }, afterSet self config fs) := by
  rw [after, serve, route, exec_set]

@[simp] theorem after_reset (self : StaticResolvConf) (fs : Fs) :
    after route fsHandler (self, fs) .reset = ({ self with active := false }, afterReset self fs) := by
  rw [after, serve, route, exec_reset]

@[simp] theorem afterSet_path (self : StaticResolvConf) (config : DnsRouteConfig) (fs : Fs) :
    afterSet self config fs self.path =
      some (encode (render self.owner config (originalOf self fs))) := put_self ..

@[simp] theorem afterSet_backupPath (self : StaticResolvConf) (config : DnsRouteConfig) (fs : Fs) :
    afterSet self config fs self.backupPath = some (originalOf self fs) := by
  rw [afterSet, put_other _ (path_ne_backupPath self).symm, put_self]

theorem originalOf_reusing {self : StaticResolvConf} {fs : Fs} {backup : Bytes}
    (ho : ownerIn (fs self.path) = some self.owner) (hb : fs self.backupPath = some backup) :
    originalOf self fs = backup := by
  have hr : Reusing self fs := ⟨ho, by rw [hb]; rfl⟩
  rw [originalOf, if_pos hr, hb, Option.getD_some]

theorem originalOf_takeover {self : StaticResolvConf} {fs : Fs} (h : ¬ Reusing self fs) :
    originalOf self fs = (fs self.path).getD [] := if_neg h

theorem originalOf_afterSet {self : StaticResolvConf} (hone : OneLine self.owner) (config : DnsRouteConfig)
    (fs : Fs) : originalOf self (afterSet self config fs) = originalOf self fs := by
  apply originalOf_reusing
  · rw [afterSet_path]
    exact (ownerIn_render _ _ _).mpr hone
  · exact afterSet_backupPath self config fs

theorem afterSet_afterSet {self : StaticResolvConf} (hone : OneLine self.owner) (config next : DnsRouteConfig)
    (fs : Fs) : afterSet self next (afterSet self config fs) = afterSet self next fs := by
  have hne := path_ne_backupPath self
  rw [afterSet, originalOf_afterSet hone]
  rw [afterSet, afterSet]
  funext p
  by_cases hp : p = self.path
  · rw [hp, put_self, put_self]
  · rw [put_other _ hp, put_other _ hp]
    by_cases hb : p = self.backupPath
    · rw [hb, put_self, put_self]
    · rw [put_other _ hb, put_other _ hp, put_other _ hb]

theorem afterReset_inactive {self : StaticResolvConf} (ha : self.active = false) (fs : Fs) :
    afterReset self fs = fs := if_pos ha

theorem afterReset_foreign {self : StaticResolvConf} (ha : self.active = true) {fs : Fs}
    (ho : ownerIn (fs self.path) ≠ some self.owner) :
    afterReset self fs = put fs self.backupPath none := by
  rw [afterReset, if_neg (by rw [ha]; decide), if_pos ho]

theorem afterReset_restores {self : StaticResolvConf} (ha : self.active = true) {fs : Fs}
    (ho : ownerIn (fs self.path) = some self.owner) {backup : Bytes}
    (hb : fs self.backupPath = some backup) : afterReset self fs =
      put (put fs self.path (if backup = [] then none else some backup)) self.backupPath none := by
  rw [afterReset, if_neg (by rw [ha]; decide), if_neg (not_not_intro ho), hb]

theorem afterReset_noBackup {self : StaticResolvConf} {fs : Fs}
    (ho : ownerIn (fs self.path) = some self.owner) (hb : fs self.backupPath = none) :
    afterReset self fs = fs := by
  rw [afterReset, if_neg (not_not_intro ho), hb, ite_self]

/-- An instance as the application gets it: `with_path` on this file system. -/
def opened (owner : Text) (path : PathBuf) (fs : Fs) : StaticResolvConf :=
  (exec fsHandler (withPath owner path) fs).1

theorem opened_eq (owner : Text) (path : PathBuf) (fs : Fs) : opened owner path fs =
    ⟨owner, path, backupPathFor path,
      decide (ownerIn (fs path) = some owner ∧ (fs (backupPathFor path)).isSome = true), rfl⟩ := by
  unfold opened withPath
  by_cases ho : ownerIn (fs path) = some owner <;> simp [ho]

end DnsAnnounce.StaticBackend
