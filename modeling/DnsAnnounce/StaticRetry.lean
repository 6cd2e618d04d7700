import DnsAnnounce.Embed
import DnsAnnounce.StaticFaults

namespace DnsAnnounce.StaticRetry

open DnsAnnounce.Utf8 DnsAnnounce.Address DnsAnnounce.Effect DnsAnnounce.Embed DnsAnnounce.FileSystem
open DnsAnnounce.Route DnsAnnounce.StaticBackend DnsAnnounce.StaticFaults

section Frame

def target : FsCall → PathBuf
  | .readToString path | .read path | .pathExists path | .removeFile path => path
  | .write path _ => path

def OnOwn (b : StaticResolvConf) (c : FsCall) : Prop := target c = b.path ∨ target c = b.backupPath

def SameFiles (b self : StaticResolvConf) : Prop :=
  self.path = b.path ∧ self.backupPath = b.backupPath ∧ self.owner = b.owner

variable {b self : StaticResolvConf}

theorem SameFiles.eq (h : SameFiles b self) : self = { b with active := self.active } := by
  obtain ⟨owner, path, backupPath, active, hbackup⟩ := self
  obtain ⟨rfl, rfl, rfl⟩ := h
  rfl

theorem confined_currentOwner {path : PathBuf} (h : path = b.path) :
    Confined (OnOwn b) (currentOwner path) :=
  ⟨.inl h, fun r => by cases r <;> exact trivial⟩

theorem minds_reusingBackup (h : SameFiles b self) :
    Minds (OnOwn b) (SameFiles b) (reusingBackup self) := by
  refine .this (.bind (.lift (confined_currentOwner h.1) h) fun current self' h' => ?_)
  rw [Method.ite_apply]
  split_ifs
  · exact .lift ⟨.inr h.2.1, fun _ => trivial⟩ h'
  · exact h'

theorem minds_backUp (h : SameFiles b self) {path : PathBuf} (hpath : path = b.backupPath) (existing : Bytes) :
    Minds (OnOwn b) (SameFiles b)
      ((do Method.propagate (← Method.lift (write path existing)); pure existing : FsMethod Bytes) self) := by
  refine .bind (.lift ⟨.inr hpath, fun _ => trivial⟩ h) fun r self' h' => ?_
  exact .bind (.propagate r h') fun _ _ h => h

theorem minds_originalContent (reusing : Bool) (h : SameFiles b self) :
    Minds (OnOwn b) (SameFiles b) (originalContent reusing self) := by
  refine .this ?_
  rw [Method.ite_apply]
  split_ifs
  · exact .bind (.lift ⟨.inr h.2.1, fun _ => trivial⟩ h) fun r _ h' => .propagate r h'
  · refine .bind (.lift ⟨.inl h.1, fun _ => trivial⟩ h) fun r self' h' => ?_
    split
    · exact minds_backUp h' h.2.1 _
    · exact minds_backUp h' h.2.1 []
    · exact h'

theorem minds_set (h : SameFiles b self) (interface : Text) (config : DnsRouteConfig) :
    Minds (OnOwn b) (SameFiles b) (StaticBackend.set interface config self) := by
  refine .bind (minds_reusingBackup h) fun reusing self h => ?_
  refine .bind (minds_originalContent reusing h) fun original self h => .this ?_
  refine .bind (.lift ⟨.inl h.1, fun _ => trivial⟩ h) fun r self h => ?_
  exact .bind (.propagate r h) fun _ self h => h

theorem minds_reset (h : SameFiles b self) : Minds (OnOwn b) (SameFiles b) (StaticBackend.reset self) := by
  have hremove : ∀ self', SameFiles b self' → Minds (OnOwn b) (SameFiles b)
      ((do Method.propagate (← Method.lift (removeFile self.backupPath)) : FsMethod Unit) self') :=
    fun _ h' => .bind (.lift ⟨.inr h.2.1, fun _ => trivial⟩ h') fun r _ h' => .propagate r h'
  refine .this ?_
  rw [Method.ite_apply]
  split_ifs
  · exact h
  · refine .bind h fun _ self' h' => ?_
    refine .bind (.lift (confined_currentOwner h.1) h') fun current self' h' => ?_
    rw [Method.ite_apply]
    split_ifs
    · exact .bind (.lift ⟨.inr h.2.1, fun _ => trivial⟩ h') fun _ _ h => h
    · refine .bind (.lift ⟨.inr h.2.1, fun _ => trivial⟩ h') fun found self' h' => ?_
      rw [Method.ite_apply]
      split_ifs
      · refine .bind (.lift ⟨.inr h.2.1, fun _ => trivial⟩ h') fun r _ h' => .bind (.propagate r h') ?_
        intro backup self' h'
        dsimp only
        rw [Method.ite_apply]
        split_ifs
        · refine .bind (.lift ⟨.inl h.1, fun _ => trivial⟩ h') fun r self' h' => ?_
          split
          · exact hremove _ h'
          · rw [Method.ite_apply]
            split_ifs
            · exact .bind h' fun _ _ h' => hremove _ h'
            · exact hremove _ h'
        · refine .bind (.lift ⟨.inl h.1, fun _ => trivial⟩ h') fun r _ h' => .bind (.propagate r h') ?_
          exact fun _ _ h' => hremove _ h'
      · exact h'

variable (plan : FsCall → Option FsFault)

theorem disk_other (c : FsCall) (fs : Fs) {p : PathBuf} (h : p ≠ target c) : (disk plan c fs).2 p = fs p := by
  rw [disk, faulty]
  cases plan c with
  | none =>
    cases c with
    | write path contents => exact put_other fs h _
    | removeFile path =>
      have hremove := congrArg Prod.snd (exec_removeFile fs path)
      exact (congrFun hremove p).trans (put_other fs h _)
    | _ => rfl
  | some f =>
    cases c with
    | write path contents => exact torn_other fs path f h contents
    | _ => rfl

theorem disk_of_reads (c : FsCall) (fs : Fs) (h : c.Reads) : (disk plan c fs).2 = fs := by
  rw [disk, faulty]
  cases c with
  | write | removeFile => exact h.elim
  | _ => split <;> rfl

theorem minds_serve (h : SameFiles b self) (r : Request) :
    Minds (OnOwn b) (SameFiles b) (serve route r self) := by
  cases r with
  | set interface config => exact minds_set h interface config
  | reset => exact minds_reset h

theorem other_files {p : PathBuf} (hp : p ≠ b.path) (hb : p ≠ b.backupPath) (h : SameFiles b self)
    (r : Request) (fs : Fs) : (after route (disk plan) (self, fs) r).2 p = fs p :=
  (minds_serve h r).confined.keeps (fun fs => fs p) (fun c fs hc =>
    disk_other plan c fs (hc.elim (fun he => he ▸ hp) fun he => he ▸ hb)) fs

theorem same_files (h : SameFiles b self) (r : Request) (fs : Fs) :
    SameFiles b (after route (disk plan) (self, fs) r).1 := (minds_serve h r).exec (disk plan) fs

end Frame

section Calls

variable {plan : FsCall → Option FsFault} {self : StaticResolvConf} {fs : Fs} {backup : Bytes}

theorem set_reusing (ho : seenOwner plan self.path fs = some self.owner)
    (he : seenExists plan self.backupPath fs = true) (hb : fs self.backupPath = some backup)
    (interface : Text) (config : DnsRouteConfig) :
    let text := encode (render self.owner config backup)
    exec (disk plan) (StaticBackend.set interface config self) fs =
      match plan (.read self.backupPath) with
      | some _ => ((.error .Other, self), fs)
      | none => match plan (.write self.path text) with
        | some f => ((.error .Other, self), torn f self.path text fs)
        | none => ((.ok (), { self with active := true }), put fs self.path (some text)) := by
  intro text
  have hreusing : exec (disk plan) (reusingBackup self) fs = ((.ok true, self), fs) := by
    simp [reusingBackup, ho, he]
  rw [StaticBackend.set]
  cases hr : plan (.read self.backupPath) with
  | some f => simp [hreusing, originalContent, disk_read, hr]
  | none =>
    cases hw : plan (.write self.path text) <;>
      simp [hreusing, originalContent, disk_read, disk_write, hr, hb, readResult, hw, text]

/-- The failures that a retry makes good: the marker and the backup are seen if they
are there, and no failing write leaves part of the file. -/
structure Gentle (path backupPath : PathBuf) (plan : FsCall → Option FsFault) : Prop where
  marker : plan (.readToString path) = none
  backup : plan (.pathExists backupPath) = none
  whole : ∀ contents f, plan (.write path contents) = some f → f.written = none

section

variable {path backupPath : PathBuf}

theorem Gentle.seenOwner (hg : Gentle path backupPath plan) (fs : Fs) :
    StaticFaults.seenOwner plan path fs = ownerIn (fs path) := by
  rw [StaticFaults.seenOwner, hg.marker]

theorem Gentle.seenExists (hg : Gentle path backupPath plan) (fs : Fs) :
    StaticFaults.seenExists plan backupPath fs = (fs backupPath).isSome := by
  rw [StaticFaults.seenExists, hg.backup]

theorem Gentle.torn (hg : Gentle path backupPath plan) {contents : Bytes} {f : FsFault}
    (hf : plan (.write path contents) = some f) (fs : Fs) : StaticFaults.torn f path contents fs = fs := by
  rw [StaticFaults.torn, hg.whole contents f hf]

end

theorem reset_gentle (hg : Gentle self.path self.backupPath plan) (ha : self.active = true)
    (ho : ownerIn (fs self.path) = some self.owner) (hb : fs self.backupPath = some backup) :
    ∃ r fs', exec (disk plan) (StaticBackend.reset self) fs = ((r, { self with active := false }), fs') ∧
      (fs' self.path = restoredFile backup ∨
        fs' self.path = fs self.path ∧ fs' self.backupPath = some backup) := by
  have hne := path_ne_backupPath self
  have howner := (hg.seenOwner fs).trans ho
  have hexists := (hg.seenExists fs).trans (congrArg Option.isSome hb)
  obtain ⟨content, hcontent⟩ := exists_of_ownerIn ho
  rw [StaticBackend.reset]
  cases hr : plan (.read self.backupPath) with
  | some f => exact ⟨.error .Other, fs, by simp [ha, howner, hexists, disk_read, hr], .inr ⟨rfl, hb⟩⟩
  | none =>
    by_cases hx : backup = []
    · subst hx
      cases hd : plan (.removeFile self.path) with
      | some f =>
        refine ⟨.error .Other, fs, ?_, .inr ⟨rfl, hb⟩⟩
        simp [ha, howner, hexists, disk_read, hr, hb, readResult, disk_removeFile, hd]
      | none =>
        have hrest : put fs self.path none self.path = restoredFile [] := put_self ..
        cases hdb : plan (.removeFile self.backupPath) with
        | some f =>
          refine ⟨.error .Other, put fs self.path none, ?_, .inl hrest⟩
          simp [ha, howner, hexists, disk_read, hr, hb, hcontent, readResult, disk_removeFile, hd, hdb,
            exec_removeFile]
        | none =>
          refine ⟨.ok (), put (put fs self.path none) self.backupPath none, ?_,
            .inl ((put_other _ hne _).trans hrest)⟩
          simp [ha, howner, hexists, disk_read, hr, hb, hcontent, readResult, disk_removeFile, hd, hdb,
            exec_removeFile, put_other _ hne.symm]
    · cases hw : plan (.write self.path backup) with
      | some f =>
        refine ⟨.error .Other, fs, ?_, .inr ⟨rfl, hb⟩⟩
        simp [ha, howner, hexists, disk_read, hr, hb, hx, readResult, disk_write, hw, hg.torn hw]
      | none =>
        have hrest : put fs self.path (some backup) self.path = restoredFile backup := by
          rw [put_self, restoredFile, if_neg hx]
        cases hdb : plan (.removeFile self.backupPath) with
        | some f =>
          refine ⟨.error .Other, put fs self.path (some backup), ?_, .inl hrest⟩
          simp [ha, howner, hexists, disk_read, hr, hb, hx, readResult, disk_write, hw, disk_removeFile, hdb]
        | none =>
          refine ⟨.ok (), put (put fs self.path (some backup)) self.backupPath none, ?_,
            .inl ((put_other _ hne _).trans hrest)⟩
          simp [ha, howner, hexists, disk_read, hr, hb, hx, readResult, disk_write, hw, disk_removeFile, hdb,
            exec_removeFile, put_other _ hne.symm]

end Calls

section Kept

variable {plan : FsCall → Option FsFault} {self : StaticResolvConf} {found fs : Fs}

def originalIn (self : StaticResolvConf) (found : Fs) : Bytes := (found self.path).getD []

def written (self : StaticResolvConf) (found : Fs) (config : DnsRouteConfig) : Bytes :=
  encode (render self.owner config (originalIn self found))

/-- What was found is still there, or it is backed up by what took its place. -/
inductive Kept (self : StaticResolvConf) (found fs : Fs) : Prop
  | asFound : self.active = false → fs self.path = found self.path → Kept self found fs
  | backedUp (config : DnsRouteConfig) : fs self.path = some (written self found config) →
    fs self.backupPath = some (originalIn self found) → Kept self found fs

/-- A `set()` that keeps the original, and that returns `Ok` only if it has done its work. -/
def KeptBySet (plan : FsCall → Option FsFault) (self : StaticResolvConf) (found fs : Fs) (interface : Text)
    (config : DnsRouteConfig) : Prop :=
  ∃ r active fs', exec (disk plan) (StaticBackend.set interface config self) fs =
      ((r, { self with active := active }), fs') ∧ Kept { self with active := active } found fs' ∧
    (r = .ok () → active = true ∧ fs' self.path = some (written self found config) ∧
      fs' self.backupPath = some (originalIn self found))

theorem keptBySet_asFound (ha : self.active = false) (hp : fs self.path = found self.path)
    (hmark : ownerIn (found self.path) ≠ some self.owner) (hg : Gentle self.path self.backupPath plan)
    (interface : Text) (config : DnsRouteConfig) : KeptBySet plan self found fs interface config := by
  have hne := path_ne_backupPath self
  have ho : seenOwner plan self.path fs ≠ some self.owner := by
    rw [hg.seenOwner, hp]
    exact hmark
  have hset := set_takeover ho interface config
  rw [hp] at hset
  change exec (disk plan) (StaticBackend.set interface config self) fs =
    match plan (.read self.path) with
    | some _ => ((.error .Other, self), fs)
    | none => match plan (.write self.backupPath (originalIn self found)) with
      | some f => ((.error .Other, self), torn f self.backupPath (originalIn self found) fs)
      | none => match plan (.write self.path (written self found config)) with
        | some f => ((.error .Other, self), torn f self.path (written self found config)
            (put fs self.backupPath (some (originalIn self found))))
        | none => ((.ok (), { self with active := true }),
            put (put fs self.backupPath (some (originalIn self found))) self.path
              (some (written self found config))) at hset
  cases hr : plan (.read self.path) with
  | some f =>
    rw [hr] at hset
    exact ⟨.error .Other, self.active, fs, hset, .asFound ha hp, nofun⟩
  | none =>
    rw [hr] at hset
    cases hb : plan (.write self.backupPath (originalIn self found)) with
    | some f =>
      rw [hb] at hset
      exact ⟨.error .Other, self.active, _, hset, .asFound ha ((torn_other _ _ f hne _).trans hp), nofun⟩
    | none =>
      rw [hb] at hset
      cases hw : plan (.write self.path (written self found config)) with
      | some f =>
        rw [hw] at hset
        dsimp only at hset
        rw [hg.torn hw] at hset
        exact ⟨.error .Other, self.active, _, hset, .asFound ha ((put_other _ hne _).trans hp), nofun⟩
      | none =>
        rw [hw] at hset
        have hbackup := (put_other (put fs self.backupPath (some (originalIn self found))) hne.symm
          (some (written self found config))).trans (put_self ..)
        exact ⟨.ok (), true, _, hset, .backedUp config (put_self ..) hbackup,
          fun _ => ⟨rfl, put_self .., hbackup⟩⟩

theorem keptBySet_backedUp (before : DnsRouteConfig) (hp : fs self.path = some (written self found before))
    (hb : fs self.backupPath = some (originalIn self found)) (hone : OneLine self.owner)
    (hg : Gentle self.path self.backupPath plan) (interface : Text) (config : DnsRouteConfig) :
    KeptBySet plan self found fs interface config := by
  have hne := path_ne_backupPath self
  have ho : seenOwner plan self.path fs = some self.owner := by
    rw [hg.seenOwner, hp]
    exact (ownerIn_render ..).mpr hone
  have he := (hg.seenExists fs).trans (congrArg Option.isSome hb)
  have hset := set_reusing ho he hb interface config
  change exec (disk plan) (StaticBackend.set interface config self) fs =
    match plan (.read self.backupPath) with
    | some _ => ((.error .Other, self), fs)
    | none => match plan (.write self.path (written self found config)) with
      | some f => ((.error .Other, self), torn f self.path (written self found config) fs)
      | none => ((.ok (), { self with active := true }),
          put fs self.path (some (written self found config))) at hset
  cases hr : plan (.read self.backupPath) with
  | some f =>
    rw [hr] at hset
    exact ⟨.error .Other, self.active, fs, hset, .backedUp before hp hb, nofun⟩
  | none =>
    rw [hr] at hset
    cases hw : plan (.write self.path (written self found config)) with
    | some f =>
      rw [hw] at hset
      dsimp only at hset
      rw [hg.torn hw] at hset
      exact ⟨.error .Other, self.active, fs, hset, .backedUp before hp hb, nofun⟩
    | none =>
      rw [hw] at hset
      have hbackup := (put_other fs hne.symm (some (written self found config))).trans hb
      exact ⟨.ok (), true, _, hset, .backedUp config (put_self ..) hbackup,
        fun _ => ⟨rfl, put_self .., hbackup⟩⟩

theorem Kept.set (h : Kept self found fs) (hone : OneLine self.owner)
    (hmark : ownerIn (found self.path) ≠ some self.owner) (hg : Gentle self.path self.backupPath plan)
    (interface : Text) (config : DnsRouteConfig) : KeptBySet plan self found fs interface config := by
  cases h with
  | asFound ha hp => exact keptBySet_asFound ha hp hmark hg interface config
  | backedUp before hp hb => exact keptBySet_backedUp before hp hb hone hg interface config

theorem Kept.reset (h : Kept self found fs) (hone : OneLine self.owner) (hcontent : found self.path ≠ some [])
    (hg : Gentle self.path self.backupPath plan) :
    ∃ r fs', exec (disk plan) (StaticBackend.reset self) fs = ((r, { self with active := false }), fs') ∧
      Kept { self with active := false } found fs' := by
  cases hactive : self.active with
  | false =>
    have hself : { self with active := false } = self := by rw [← hactive]
    refine ⟨_, _, (reset_inactive hactive).trans (by rw [hself]), ?_⟩
    rwa [hself]
  | true =>
    cases h with
    | asFound ha =>
      rw [hactive] at ha
      contradiction
    | backedUp config hp hb =>
      have ho : ownerIn (fs self.path) = some self.owner := by
        rw [hp]
        exact (ownerIn_render ..).mpr hone
      obtain ⟨r, fs', hreset, hrest | ⟨hsame, hbackup⟩⟩ := reset_gentle hg hactive ho hb
      · refine ⟨r, fs', hreset, .asFound rfl (hrest.trans ?_)⟩
        rw [restoredFile, originalIn]
        cases hfile : found self.path with
        | none => rfl
        | some content => exact if_neg fun he => hcontent (hfile.trans (congrArg some he))
      · exact ⟨r, fs', hreset, .backedUp config (hsame.trans hp) hbackup⟩

theorem Kept.after (h : Kept self found fs) (hone : OneLine self.owner)
    (hmark : ownerIn (found self.path) ≠ some self.owner) (hcontent : found self.path ≠ some [])
    (hg : Gentle self.path self.backupPath plan) (r : Request) :
    Kept (Route.after route (disk plan) (self, fs) r).1 found (Route.after route (disk plan) (self, fs) r).2 := by
  cases r with
  | set interface config =>
    obtain ⟨_, _, _, hset, hkept, -⟩ := h.set hone hmark hg interface config
    rw [Route.after, serve, route, hset]
    exact hkept
  | reset =>
    obtain ⟨_, _, hreset, hkept⟩ := h.reset hone hcontent hg
    rw [Route.after, serve, route, hreset]
    exact hkept

/-- What a new process makes of the files: it is in the same place as the one before. -/
theorem disk_withPath (plan : FsCall → Option FsFault) (self : StaticResolvConf) (fs : Fs) :
    exec (disk plan) (withPath self.owner self.path) fs =
      ({ self with active := decide (seenOwner plan self.path fs = some self.owner) &&
          seenExists plan self.backupPath fs }, fs) := by
  obtain ⟨owner, path, backupPath, active, rfl⟩ := self
  rw [withPath]
  by_cases ho : seenOwner plan path fs = some owner <;> simp [ho]

theorem Kept.withPath (h : Kept self found fs) (hmark : ownerIn (found self.path) ≠ some self.owner)
    (hg : Gentle self.path self.backupPath plan) :
    Kept (exec (disk plan) (StaticBackend.withPath self.owner self.path) fs).1 found fs := by
  rw [disk_withPath]
  cases h with
  | asFound _ hp =>
    refine .asFound ?_ hp
    rw [hg.seenOwner, hp, decide_eq_false hmark, Bool.false_and]
  | backedUp config hp hb => exact .backedUp config hp hb

end Kept

end DnsAnnounce.StaticRetry
