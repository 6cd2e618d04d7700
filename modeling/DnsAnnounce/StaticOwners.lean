import DnsAnnounce.StaticRestore

namespace DnsAnnounce.StaticOwners

open DnsAnnounce.Utf8 DnsAnnounce.Address DnsAnnounce.Effect DnsAnnounce.Runs
open DnsAnnounce.FileSystem DnsAnnounce.Route DnsAnnounce.StaticBackend DnsAnnounce.StaticRestore

variable {ι : Type} [DecidableEq ι]

structure Shared (ι : Type) where
  instances : ι → StaticResolvConf
  files : Fs

def step (w : Shared ι) (c : ι × Request) : Shared ι :=
  let st := after route fsHandler (w.instances c.1, w.files) c.2
  ⟨Function.update w.instances c.1 st.1, st.2⟩

def start (owner : ι → Text) (path : PathBuf) (fs : Fs) : Shared ι :=
  ⟨fun i => opened (owner i) path fs, fs⟩

/-- Whose override is in place, and with which configuration, as the callers
mean it. -/
def holder (who : Option (ι × DnsRouteConfig)) : ι × Request → Option (ι × DnsRouteConfig)
  | (i, .set _ config) => some (i, config)
  | (i, .reset) => if who.map Prod.fst = some i then none else who

/-- A `set()` finds no override in place but the caller's own. -/
def Undisturbed (who : Option (ι × DnsRouteConfig)) : ι × Request → Prop
  | (i, .set _ _) => who = none ∨ who.map Prod.fst = some i
  | (_, .reset) => True

/-- The last call of every instance that makes any is a `reset()`. -/
def EndsReset (calls : List (ι × Request)) : Prop :=
  ∀ c ∈ calls, (calls.filter (fun d => d.1 = c.1)).getLast? = some (c.1, .reset)

instance (calls : List (ι × Request)) : Decidable (EndsReset calls) :=
  inferInstanceAs (Decidable (∀ c ∈ calls, _))

theorem last_of_holder {calls : List (ι × Request)} {i : ι} {config : DnsRouteConfig}
    (h : run holder none calls = some (i, config)) :
    ∃ interface, (calls.filter (fun d => d.1 = i)).getLast? = some (i, .set interface config) := by
  induction calls using List.reverseRecOn with
  | nil => cases h
  | append_singleton calls c ih =>
    rw [run_append, run_cons, run_nil] at h
    rw [List.filter_append]
    obtain ⟨j, ⟨interface, next⟩ | _⟩ := c
    · simp only [holder, Option.some.injEq, Prod.mk.injEq] at h
      obtain ⟨rfl, rfl⟩ := h
      exact ⟨interface, by simp⟩
    · simp only [holder] at h
      split_ifs at h with hj
      have hne : j ≠ i := fun he => hj (by rw [h, he]; rfl)
      simpa [hne] using ih h

theorem holder_of_endsReset {calls : List (ι × Request)} (h : EndsReset calls) :
    run holder none calls = none := by
  cases hr : run holder none calls with
  | none => rfl
  | some who =>
    obtain ⟨interface, hl⟩ := last_of_holder hr
    have hm : (who.1, Request.set interface who.2) ∈ calls :=
      (List.mem_filter.mp (List.mem_of_getLast? hl)).1
    rw [h _ hm] at hl
    cases hl

/-- The instances and the disk carry out the override of `who`, over `base`. -/
structure Agrees (owner : ι → Text) (path : PathBuf) (base : Option Bytes) (w : Shared ι)
    (who : Option (ι × DnsRouteConfig)) : Prop where
  fixed : ∀ i, (w.instances i).owner = owner i ∧ (w.instances i).path = path
  active : ∀ i, (w.instances i).active = decide (who.map Prod.fst = some i)
  disk : ∀ i, who = none ∨ who.map Prod.fst = some i →
    OnDisk path (owner i) base w.files (who.map Prod.snd)

variable {owner : ι → Text} {path : PathBuf} {base : Option Bytes}

theorem agrees_start {fs : Fs} (hp : fs path = base) (hb : fs (backupPathFor path) = none) :
    Agrees owner path base (start owner path fs) none where
  fixed i := by simp [start, opened_eq]
  active i := by simp [start, opened_eq, hb]
  disk i _ := ⟨hp, hb⟩

theorem step_fixed {w : Shared ι}
    (h : ∀ i, (w.instances i).owner = owner i ∧ (w.instances i).path = path)
    (c : ι × Request) (i : ι) :
    ((step w c).instances i).owner = owner i ∧ ((step w c).instances i).path = path := by
  obtain ⟨j, r⟩ := c
  by_cases hi : i = j
  · subst hi
    cases r <;> simpa [step] using h i
  · simpa [step, hi] using h i

theorem agrees_set (hone : ∀ i, OneLine (owner i)) {w : Shared ι}
    {who : Option (ι × DnsRouteConfig)} (h : Agrees owner path base w who) {i : ι}
    (hfree : who = none ∨ who.map Prod.fst = some i) (interface : Text) (config : DnsRouteConfig) :
    Agrees owner path base (step w (i, .set interface config)) (some (i, config)) where
  fixed := step_fixed h.fixed _
  active j := by
    by_cases hj : j = i
    · subst hj
      simp [step]
    · have hw : who.map Prod.fst ≠ some j := by
        obtain rfl | hf := hfree
        · simp
        · rw [hf]
          exact fun he => hj (Option.some.inj he).symm
      simp [step, hj, h.active, hw, Ne.symm hj]
  disk j hj := by
    obtain ⟨ho, hp⟩ := h.fixed i
    have hd := h.disk i hfree
    rw [← ho, ← hp] at hd
    have hr := (represents_set (by rw [ho]; exact hone i) hd interface config).2
    obtain rfl : i = j := by simpa using hj
    rw [after_set] at hr
    simp only [step, after_set, ← ho, ← hp]
    exact hr

theorem step_reset_inactive {w : Shared ι} {i : ι} (ha : (w.instances i).active = false) :
    step w (i, .reset) = w := by
  have hs : { w.instances i with active := false } = w.instances i := by
    generalize w.instances i = self at ha
    cases self
    simp_all
  simp only [step, after_reset, afterReset_inactive ha, hs, Function.update_eq_self]

theorem agrees_reset (hone : ∀ i, OneLine (owner i)) (hbase : base ≠ some []) {w : Shared ι}
    {who : Option (ι × DnsRouteConfig)} (h : Agrees owner path base w who) (i : ι) :
    Agrees owner path base (step w (i, .reset)) (holder who (i, .reset)) := by
  by_cases hi : who.map Prod.fst = some i
  · rw [holder, if_pos hi]
    refine ⟨step_fixed h.fixed _, fun j => ?_, fun j _ => ?_⟩
    · by_cases hj : j = i
      · subst hj
        simp [step]
      · simp [step, hj, h.active, hi, Ne.symm hj]
    · obtain ⟨ho, hp⟩ := h.fixed i
      have ha : (w.instances i).active = (who.map Prod.snd).isSome := by
        rw [h.active, decide_eq_true hi]
        cases who with
        | none => cases hi
        | some p => rfl
      have hd := h.disk i (.inr hi)
      rw [← ho, ← hp] at hd
      have hr := (represents_reset (by rw [ho]; exact hone i) hbase ⟨ha, hd⟩).2
      rw [after_reset] at hr
      simp only [step, after_reset, ← hp]
      exact hr
  · have ha : (w.instances i).active = false := by rw [h.active, decide_eq_false hi]
    rw [holder, if_neg hi, step_reset_inactive ha]
    exact h

theorem run_agrees (hone : ∀ i, OneLine (owner i)) (hbase : base ≠ some []) {w : Shared ι}
    {who : Option (ι × DnsRouteConfig)} (h : Agrees owner path base w who)
    {calls : List (ι × Request)} (hu : Along holder Undisturbed who calls) :
    Agrees owner path base (run step w calls) (run holder who calls) := by
  refine run_simulates ?_ h hu
  rintro w who ⟨i, ⟨interface, config⟩ | _⟩ h hfree
  · exact agrees_set hone h hfree interface config
  · exact agrees_reset hone hbase h i

/-- The original is nowhere any more: the file and the backup, if there is one,
both carry a marker of one of the instances. -/
structure Lost (owner : ι → Text) (path : PathBuf) (w : Shared ι) : Prop where
  fixed : ∀ i, (w.instances i).owner = owner i ∧ (w.instances i).path = path
  file : ∃ i, ownerIn (w.files path) = some (owner i)
  backup : ∀ b, w.files (backupPathFor path) = some b → ∃ i, ownerIn (some b) = some (owner i)

theorem lost_set (hone : ∀ i, OneLine (owner i)) {w : Shared ι}
    (hfixed : ∀ i, (w.instances i).owner = owner i ∧ (w.instances i).path = path) {i : ι}
    (ho : ∃ j, ownerIn (some (originalOf (w.instances i) w.files)) = some (owner j))
    (interface : Text) (config : DnsRouteConfig) :
    Lost owner path (step w (i, .set interface config)) := by
  have hf := hfixed i
  have hb : backupPathFor path = (w.instances i).backupPath := by
    rw [(w.instances i).backupPath_eq, hf.2]
  refine ⟨step_fixed hfixed _, ⟨i, ?_⟩, fun b h => ?_⟩
  · simp only [step, after_set, ← hf.1, ← hf.2, afterSet_path]
    exact (ownerIn_render ..).mpr (by rw [hf.1]; exact hone i)
  · simp only [step, after_set, hb, afterSet_backupPath, Option.some.injEq] at h
    rwa [← h]

omit [DecidableEq ι] in
theorem Lost.originalOf {w : Shared ι} (h : Lost owner path w) (i : ι) :
    ∃ j, ownerIn (some (originalOf (w.instances i) w.files)) = some (owner j) := by
  have hf := h.fixed i
  by_cases hr : Reusing (w.instances i) w.files
  · obtain ⟨b, hb⟩ := Option.isSome_iff_exists.mp hr.2
    rw [originalOf_reusing hr.1 hb]
    rw [(w.instances i).backupPath_eq, hf.2] at hb
    exact h.backup b hb
  · obtain ⟨j, hj⟩ := h.file
    obtain ⟨c, hc⟩ := exists_of_ownerIn hj
    rw [originalOf_takeover hr, hf.2, hc]
    exact ⟨j, by rw [← hj, hc]; rfl⟩

theorem lost_reset {w : Shared ι} (h : Lost owner path w) (i : ι) :
    Lost owner path (step w (i, .reset)) := by
  by_cases ha : (w.instances i).active = false
  · rwa [step_reset_inactive ha]
  rw [Bool.not_eq_false] at ha
  have hp := (h.fixed i).2
  have hb : backupPathFor path = (w.instances i).backupPath := by
    rw [(w.instances i).backupPath_eq, hp]
  have hne : path ≠ backupPathFor path := by
    rw [hb, ← hp]
    exact path_ne_backupPath _
  have hfile := h.file
  have hbackup := h.backup
  refine ⟨step_fixed h.fixed _, ?_, ?_⟩ <;> simp only [step, after_reset]
  all_goals by_cases ho : ownerIn (w.files (w.instances i).path) = some (w.instances i).owner
  · cases hc : w.files (w.instances i).backupPath with
    | none => rwa [afterReset_noBackup ho hc]
    | some b =>
      rw [← hb] at hc
      obtain ⟨j, hj⟩ := hbackup b hc
      have he : b ≠ [] := by
        rintro rfl
        cases hj
      rw [hb] at hc
      rw [afterReset_restores ha ho hc, if_neg he, ← hb, put_other _ hne, hp, put_self]
      exact ⟨j, hj⟩
  · rw [afterReset_foreign ha ho, ← hb, put_other _ hne]
    exact hfile
  · cases hc : w.files (w.instances i).backupPath with
    | none => rwa [afterReset_noBackup ho hc]
    | some b =>
      rw [afterReset_restores ha ho hc, ← hb, put_self]
      exact fun _ hnone => absurd hnone (Option.some_ne_none _).symm
  · rw [afterReset_foreign ha ho, ← hb, put_self]
    exact fun _ hnone => absurd hnone (Option.some_ne_none _).symm

theorem lost_step (hone : ∀ i, OneLine (owner i)) {w : Shared ι} (h : Lost owner path w)
    (c : ι × Request) : Lost owner path (step w c) := by
  obtain ⟨i, ⟨interface, config⟩ | _⟩ := c
  · exact lost_set hone h.fixed (h.originalOf i) interface config
  · exact lost_reset h i

theorem lost_of_disturbed (hone : ∀ i, OneLine (owner i)) (hinj : Function.Injective owner)
    {w : Shared ι} {who : Option (ι × DnsRouteConfig)} (h : Agrees owner path base w who)
    {c : ι × Request} (hc : ¬ Undisturbed who c) : Lost owner path (step w c) := by
  obtain ⟨i, ⟨interface, config⟩ | _⟩ := c
  · simp only [Undisturbed, not_or] at hc
    obtain ⟨⟨j, held⟩, rfl⟩ := Option.ne_none_iff_exists'.mp hc.1
    have hji : j ≠ i := fun he => hc.2 (by rw [he]; rfl)
    have hd := (h.disk j (.inr rfl)).1
    have hj := (ownerIn_render (owner j) held (base.getD [])).mpr (hone j)
    have hf := h.fixed i
    have hr : ¬ Reusing (w.instances i) w.files := by
      rintro ⟨ho, -⟩
      rw [hf.1, hf.2, hd, hj, Option.some.injEq] at ho
      exact hji (hinj ho)
    refine lost_set hone h.fixed ⟨j, ?_⟩ interface config
    rw [originalOf_takeover hr, hf.2, hd]
    exact hj
  · exact absurd trivial hc

def filesAfterCalls (owner : ι → Text) (path : PathBuf) (fs : Fs) (calls : List (ι × Request)) : Fs :=
  (run step (start owner path fs) calls).files

/-- Instances with different owners leave the original in place exactly if none
of them calls `set()` while another one's override is in place. -/
theorem owners_independent_iff (owner : ι → Text) (hone : ∀ i, OneLine (owner i))
    (hinj : Function.Injective owner) (path : PathBuf) (content : Bytes) (hne : content ≠ [])
    (hm : ownerIn (some content) = none) (fs : Fs) (hp : fs path = some content)
    (hb : fs (backupPathFor path) = none) (calls : List (ι × Request)) (hend : EndsReset calls) :
    (filesAfterCalls owner path fs calls path = some content ∧
      filesAfterCalls owner path fs calls (backupPathFor path) = none) ↔
        Along holder Undisturbed none calls := by
  have hstart : Agrees owner path (some content) (start owner path fs) none := agrees_start hp hb
  have hbase : some content ≠ some [] := fun he => hne (Option.some.inj he)
  constructor
  · intro hfinal
    by_contra hu
    obtain ⟨pre, c, post, rfl, hpre, hc⟩ := (not_along_iff ..).mp hu
    have hlost := lost_of_disturbed hone hinj (run_agrees hone hbase hstart hpre) hc
    have hend := run_invariant step (I := Lost owner path) (fun w c h => lost_step hone h c) hlost post
    obtain ⟨i, hi⟩ := hend.file
    have hf : filesAfterCalls owner path fs (pre ++ c :: post) =
        (run step (step (run step (start owner path fs) pre) c) post).files := by
      rw [filesAfterCalls, run_append, run_cons]
    rw [← hf, hfinal.1, hm] at hi
    cases hi
  · intro hu
    have hw := run_agrees hone hbase hstart hu
    rw [holder_of_endsReset hend] at hw
    cases isEmpty_or_nonempty ι with
    | inl _ =>
      cases calls with
      | nil => exact ⟨hp, hb⟩
      | cons c _ => exact isEmptyElim c.1
    | inr hι => exact hw.disk hι.some (.inl rfl)

def twoOwners : Bool → Text
  | true => "owner-a".toList
  | false => "owner-b".toList

theorem twoOwners_injective : Function.Injective twoOwners :=
  Bool.injective_iff.mpr (by decide)

theorem turns_keep_original :
    let fs := diskWith nameservers
    let calls := [(true, Request.set "wg0".toList vpnConfig), (true, .reset),
      (false, .set "wg1".toList vpnConfig), (false, .reset), (true, .reset)]
    filesAfterCalls twoOwners resolvConf fs calls resolvConf =
        some (encode nameservers) ∧
      filesAfterCalls twoOwners resolvConf fs calls (backupPathFor resolvConf) = none :=
  (owners_independent_iff twoOwners (by decide +kernel) twoOwners_injective resolvConf
    (encode nameservers) (by decide +kernel) (by decide +kernel) _ (by decide +kernel) (by decide +kernel)
    _ (by decide +kernel)).mpr (by simp [Along, Undisturbed, holder])

/-- One owner's override is backed up as the other's original, the next
`reset()` drops that backup, and the first override stays for good. -/
theorem overlap_loses_original :
    let fs := diskWith nameservers
    let calls := [(true, Request.set "wg0".toList vpnConfig), (false, .set "wg1".toList vpnConfig),
      (false, .reset), (true, .reset)]
    (∀ i, OneLine (twoOwners i)) ∧ Function.Injective twoOwners ∧ fs resolvConf ≠ some [] ∧
      ownerIn (fs resolvConf) = none ∧ fs (backupPathFor resolvConf) = none ∧ EndsReset calls ∧
      ¬ (filesAfterCalls twoOwners resolvConf fs calls resolvConf = fs resolvConf ∧
        filesAfterCalls twoOwners resolvConf fs calls (backupPathFor resolvConf) = none) :=
  ⟨by decide +kernel, twoOwners_injective, by decide +kernel, by decide +kernel, by decide +kernel,
    by decide +kernel, by decide +kernel⟩

end DnsAnnounce.StaticOwners
