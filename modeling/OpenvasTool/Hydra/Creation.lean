import OpenvasTool.Gvm.Files
import OpenvasTool.Hydra.Steps

/-!
# Creation of hydra tasks

The files that a new task owns, what a failed creation leaves after the
rollback, and what a successful one adds.
-/

namespace OpenvasTool

open Posix Support

/-! ### The files of a task -/

/-- The path is below the directory of the task with this identifier, or it is its cron file. -/
def HydraOwns (id path : Text) : Prop :=
  ((hydraPaths id).taskDir ++ "/".toList) <+: path ∨ path = (hydraPaths id).cronFileNorm

/-- The six files that a new task writes into its directory. -/
theorem below_taskDir (id : Text) :
    ∀ path ∈ [(hydraPaths id).loginFile, (hydraPaths id).loginFileTmp, (hydraPaths id).passwdFile,
      (hydraPaths id).passwdFileTmp, (hydraPaths id).ipListFile, (hydraPaths id).ipListFileTmp],
      ((hydraPaths id).taskDir ++ "/".toList) <+: path := by
  intro path hpath
  simp only [List.mem_cons, List.not_mem_nil, or_false] at hpath
  rcases hpath with rfl | rfl | rfl | rfl | rfl | rfl
  all_goals exact List.prefix_append _ _

/-- These files have different names. -/
theorem nodup_taskFiles (id : Text) :
    [(hydraPaths id).loginFile, (hydraPaths id).loginFileTmp, (hydraPaths id).passwdFile,
      (hydraPaths id).passwdFileTmp, (hydraPaths id).ipListFile,
      (hydraPaths id).ipListFileTmp].Nodup := by
  have hnames : ["hydra_login".toList, ".hydra_login".toList, "hydra_passwd".toList,
      ".hydra_passwd".toList, "hydra_ip_list".toList, ".hydra_ip_list".toList].Nodup := by decide
  exact hnames.map (f := fun name => (hydraPaths id).taskDir ++ "/".toList ++ name)
    fun _ _ heq => List.append_cancel_left heq

/-- Two texts that begin differently behind a common part are no prefixes of each other. -/
theorem not_prefix_of_head {x s t : Text} (hs : s ≠ []) (h : s.head? ≠ t.head?) :
    ¬ x ++ s <+: x ++ t := by
  rw [List.prefix_append_right_inj]
  rintro ⟨r, rfl⟩
  obtain ⟨c, s, rfl⟩ := List.exists_cons_of_ne_nil hs
  simp at h

theorem not_below_hydraTaskFile (id : Text) :
    ¬ ((hydraPaths id).taskDir ++ "/".toList) <+: hydraTaskFile ∧
      ¬ ((hydraPaths id).taskDir ++ "/".toList) <+: hydraTaskFileTmp := by
  simp only [hydraPaths, hydraTaskFile, hydraTaskFileTmp, List.append_assoc]
  constructor
  · rw [List.prefix_append_right_inj]
    exact not_prefix_of_head (by simp) (by simp)
  · rw [List.prefix_append_right_inj]
    exact not_prefix_of_head (by simp) (by simp)

theorem defHydraPrivDataDir_eq : ∃ t, defHydraPrivDataDir = '/' :: 'u' :: t := ⟨_, rfl⟩

theorem cronFileNorm_eq (id : Text) : ∃ t, (hydraPaths id).cronFileNorm = '/' :: 'e' :: t := by
  have hdir : "/etc/cron.d".toList = '/' :: 'e' :: "tc/cron.d".toList := rfl
  simp only [hydraPaths, hdir, List.cons_append]
  exact ⟨_, rfl⟩

/-- The cron files are in another directory. -/
theorem cronFileNorm_ne_append (id s : Text) :
    (hydraPaths id).cronFileNorm ≠ defHydraPrivDataDir ++ s := by
  obtain ⟨t, ht⟩ := cronFileNorm_eq id
  obtain ⟨u, hu⟩ := defHydraPrivDataDir_eq
  rw [ht, hu]
  simp

theorem not_below_cronFileNorm (id id' : Text) :
    ¬ ((hydraPaths id).taskDir ++ "/".toList) <+: (hydraPaths id').cronFileNorm := by
  rintro ⟨r, hr⟩
  simp only [hydraPaths, List.append_assoc] at hr
  exact cronFileNorm_ne_append id' _ (by simp only [hydraPaths, List.append_assoc]; exact hr.symm)

theorem cronFileNorm_ne (id : Text) :
    (hydraPaths id).cronFileNorm ≠ hydraTaskFile ∧
      (hydraPaths id).cronFileNorm ≠ hydraTaskFileTmp := by
  simp only [hydraTaskFile, hydraTaskFileTmp, List.append_assoc]
  exact ⟨cronFileNorm_ne_append id _, cronFileNorm_ne_append id _⟩

theorem cronFileNorm_injective {id id' : Text}
    (h : (hydraPaths id).cronFileNorm = (hydraPaths id').cronFileNorm) : id = id' :=
  List.append_cancel_left h

/-- The task file and its temporary file belong to no task. -/
theorem not_hydraOwns_hydraTaskFile (id : Text) :
    ¬HydraOwns id hydraTaskFile ∧ ¬HydraOwns id hydraTaskFileTmp := by
  obtain ⟨hfile, htmp⟩ := not_below_hydraTaskFile id
  obtain ⟨hcron, hcronTmp⟩ := cronFileNorm_ne id
  exact ⟨not_or.mpr ⟨hfile, hcron.symm⟩, not_or.mpr ⟨htmp, hcronTmp.symm⟩⟩

theorem taskDir_eq (id : Text) :
    (hydraPaths id).taskDir ++ "/".toList =
      (defHydraPrivDataDir ++ "/".toList ++ "task_".toList) ++ (id ++ ['/']) := by
  simp only [hydraPaths, List.append_assoc]
  rfl

/-- A path belongs to only one task. -/
theorem HydraOwns.unique {id id' : CStr maxUuidSize} {path : Text} (hslash : '/' ∉ id.text)
    (hlen : id'.text.length ≤ id.text.length) (h : HydraOwns id.text path)
    (h' : HydraOwns id'.text path) : id'.text = id.text := by
  rcases h with h | rfl
  · rcases h' with h' | rfl
    · rw [taskDir_eq] at h h'
      have hprefix := List.prefix_of_prefix_length_le h' h (by simp [hlen])
      rw [List.prefix_append_right_inj] at hprefix
      obtain ⟨r, hr⟩ := hprefix
      rw [List.append_assoc, List.singleton_append] at hr
      -- the identifier that is not longer is a prefix of the other one
      have hpre : id'.text <+: id.text :=
        List.prefix_of_prefix_length_le ⟨_, hr⟩ (List.prefix_append _ _) hlen
      exact (append_delim_inj (fun hmem => hslash (hpre.subset hmem)) hslash hr).1
    · exact absurd h (not_below_cronFileNorm _ _)
  · rcases h' with h' | h'
    · exact absurd h' (not_below_cronFileNorm _ _)
    · exact (cronFileNorm_injective h').symm

/-! ### Writing -/

/-- The call stores all of its bytes. -/
theorem storeBytes_eq_zero {stored : Option ℕ} {old : Option Text} {bytes : Text}
    (h : (storeBytes stored old bytes).1 = 0) :
    stored.isSome ∧ (storeBytes stored old bytes).2 = some (old.getD [] ++ bytes) := by
  cases stored with
  | none => simp [storeBytes] at h
  | some k =>
    simp only [storeBytes] at h ⊢
    split at h
    · rename_i hle
      rw [if_pos hle]
      exact ⟨rfl, rfl⟩
    · simp at h

section Files

variable {env : HydraEnv} {files : Files} {path : Text}

theorem writeFile_other {content dst : Text} (h : path ≠ dst) :
    (writeFile env content dst files).2 path = files path := by
  unfold writeFile
  dsimp only
  split
  · rfl
  · simp [Files.set, h]

theorem writeFile_eq_zero {content dst : Text} (h : (writeFile env content dst files).1 = 0) :
    (writeFile env content dst files).2 dst = some content := by
  obtain ⟨hopen, hcontent⟩ := storeBytes_eq_zero h
  obtain ⟨k, hk⟩ := Option.isSome_iff_exists.mp hopen
  unfold writeFile
  dsimp only
  rw [if_neg (by simp [hk]), hcontent]
  simp [Files.set]

theorem copyContent_other {dst content : Text} {n : ℕ} (h : path ≠ dst) :
    (copyContent env dst n content files).2 path = files path := by
  unfold copyContent
  dsimp only
  split_ifs <;> simp [Files.set, h]

theorem copyContent_isSome {dst content : Text} {n : ℕ}
    (h : (copyContent env dst n content files).1 = 0) :
    ((copyContent env dst n content files).2 dst).isSome := by
  have hstored : ∀ {stored : Option ℕ} {old : Option Text} {bytes : Text}, old.isSome →
      (storeBytes stored old bytes).2.isSome := by
    intro stored old bytes hold
    unfold storeBytes
    split
    · exact hold
    · split <;> rfl
  unfold copyContent at h ⊢
  dsimp only at h ⊢
  generalize (if n = 0 then none else files dst) = old at h ⊢
  have hzero : (storeBytes (env.store dst n) old content).1 = 0 := by
    split at h
    · rename_i hline
      exact hline.1
    · exact h
  obtain ⟨hopen, hcontent⟩ := storeBytes_eq_zero hzero
  obtain ⟨k, hk⟩ := Option.isSome_iff_exists.mp hopen
  rw [if_neg (show ¬(n = 0 ∧ env.store dst n = none) by simp [hk])]
  split
  · simp only [Files.set, Function.update_self]
    exact hstored (by rw [hcontent]; rfl)
  · simp only [Files.set, Function.update_self, hcontent]
    rfl

theorem copyFileLoop_other {basedir dst : Text} (h : path ≠ dst) :
    ∀ fuel n filelist files,
      (copyFileLoop env basedir dst fuel n filelist files).2 path = files path := by
  intro fuel
  induction fuel with
  | zero => intro n filelist files; rfl
  | succ fuel ih =>
    intro n filelist files
    unfold copyFileLoop
    split
    · rfl
    · rfl
    · dsimp only
      split
      · rfl
      · split
        · split
          · rename_i hcopy
            rw [ih]
            exact (congrFun (congrArg Prod.snd hcopy) path).symm.trans (copyContent_other h)
          · exact copyContent_other h
        · rfl
        · exact ih _ _ _
        · rfl

theorem copyFileLoop_isSome {basedir dst : Text} :
    ∀ fuel n filelist files, (copyFileLoop env basedir dst fuel n filelist files).1 = 0 →
      (0 < n → (files dst).isSome) →
        ((copyFileLoop env basedir dst fuel n filelist files).2 dst).isSome := by
  intro fuel
  induction fuel with
  | zero =>
    intro n filelist files h
    simp [copyFileLoop] at h
  | succ fuel ih =>
    intro n filelist files h hsome
    unfold copyFileLoop at h ⊢
    split at h
    · dsimp only at h ⊢
      split at h
      · rename_i hpos
        exact hsome hpos
      · simp at h
    · simp at h
    · dsimp only at h ⊢
      split at h
      · simp at h
      · rename_i hname
        rw [if_neg hname]
        split at h
        · split at h
          · rename_i hcopy
            refine ih _ _ _ h fun _ => ?_
            have hdst := copyContent_isSome (congrArg Prod.fst hcopy)
            rwa [hcopy] at hdst
          · rename_i hne
            exact (hne _ (Prod.ext h rfl)).elim
        · simp at h
        · exact ih _ _ _ h hsome
        · simp at h

/-- `copyFileListSafe` writes only the two paths. -/
theorem copyFileListSafe_other {basedir filelist dst dstTmp : Text} (hdst : path ≠ dst)
    (htmp : path ≠ dstTmp) :
    (copyFileListSafe env basedir filelist dst dstTmp files).2 path = files path := by
  have hcopy : (copyFileList env basedir filelist dstTmp files).2 path = files path :=
    copyFileLoop_other htmp _ _ _ _
  unfold copyFileListSafe
  split
  · rename_i heq
    rw [heq] at hcopy
    split
    · simpa [Files.set, hdst, htmp] using hcopy
    · exact hcopy
  · exact hcopy

/-- On success the destination exists, and the temporary file does not. -/
theorem copyFileListSafe_eq_zero {basedir filelist dst dstTmp : Text} (hne : dst ≠ dstTmp)
    (h : (copyFileListSafe env basedir filelist dst dstTmp files).1 = 0) :
    ((copyFileListSafe env basedir filelist dst dstTmp files).2 dst).isSome ∧
      (copyFileListSafe env basedir filelist dst dstTmp files).2 dstTmp = none := by
  unfold copyFileListSafe at h ⊢
  split at h
  · rename_i files' heq
    have hsome : (files' dstTmp).isSome := by
      have hcopy : copyFileLoop env basedir dstTmp (filelist.length + 1) 0 filelist files =
          (0, files') := heq
      have hloop := copyFileLoop_isSome _ _ _ _ (congrArg Prod.fst hcopy) (by simp)
      rwa [hcopy] at hloop
    split at h
    · rename_i hrename
      rw [if_pos hrename]
      simp [Files.set, hne, hsome]
    · simp at h
  · rename_i hnot
    exact (hnot _ (Prod.ext h rfl)).elim

end Files

/-! ### The files of a new task -/

/-- Of the files that belong to the task exactly these exist. -/
def OwnFiles (id : Text) (files : Files) (paths : List Text) : Prop :=
  ∀ path, HydraOwns id path → ((files path).isSome ↔ path ∈ paths)

section OwnFiles

variable {id dst tmp : Text} {files files' : Files} {paths : List Text}

/-- One more file is written through a temporary one. -/
theorem OwnFiles.write (h : OwnFiles id files paths)
    (hother : ∀ path, path ≠ dst → path ≠ tmp → files' path = files path)
    (hdst : (files' dst).isSome) (htmp : files' tmp = none) (hnew : tmp ∉ paths) (hne : tmp ≠ dst) :
    OwnFiles id files' (dst :: paths) := by
  intro path hpath
  by_cases hp : path = dst
  · simp [hp, hdst]
  by_cases ht : path = tmp
  · subst ht
    simp [htmp, hnew, hne]
  · rw [hother path hp ht, h path hpath]
    simp [hp]

end OwnFiles

/-- The files that a new task leaves. -/
def createdFiles (t : ListHydraTask) : List Text :=
  let paths := hydraPaths t.taskId.text
  (if t.scheduleType = icalDateNone then [] else [paths.cronFileNorm]) ++
    (if t.hostsType = .ipList then [paths.ipListFile] else []) ++ [paths.passwdFile, paths.loginFile]

/-- The cron file of a task with a schedule has the lines of `formatCronTask`. -/
def CronWritten (env : HydraEnv) (t : ListHydraTask) (files : Files) : Prop :=
  t.scheduleType ≠ icalDateNone → ∃ content,
    formatCronTask maxCacheSize t.scheduleType t.firstScheduleTime.text t.scheduleList.text
      cronUserName (startHydraCmd env.progPath t) = some content ∧
    files (hydraPaths t.taskId.text).cronFileNorm = some content

theorem writeScheduleFiles_other {env : HydraEnv} {t : ListHydraTask} {paths : HydraPaths}
    {files : Files} {path : Text} (h : path ≠ paths.cronFileNorm) :
    (writeScheduleFiles env t paths files).2 path = files path := by
  unfold writeScheduleFiles
  split
  · rfl
  · dsimp only
    split
    · split
      · rfl
      · exact writeFile_other h
    · rfl

theorem writeScheduleFiles_eq_zero {env : HydraEnv} {t : ListHydraTask} {files : Files}
    (h : (writeScheduleFiles env t (hydraPaths t.taskId.text) files).1 = 0) :
    CronWritten env t (writeScheduleFiles env t (hydraPaths t.taskId.text) files).2 := by
  intro htype
  unfold writeScheduleFiles at h ⊢
  rw [if_neg htype] at h ⊢
  dsimp only at h ⊢
  split at h
  · rename_i hroom
    rw [if_pos hroom]
    split at h
    · simp at h
    · rename_i content hcontent
      exact ⟨content, hcontent, writeFile_eq_zero h⟩
  · simp at h

/-- The part of `writeHydraTaskDir` for the list of addresses. -/
def writeIpList (env : HydraEnv) (t : ListHydraTask) (paths : HydraPaths) (files : Files) :
    ℤ × Files :=
  match t.hostsType with
  | .ipList =>
      match convIPsByLine t.hosts.text maxCacheSize with
      | none => (-1, files)
      | some ips => env.writeFileSafe ips paths.ipListFile paths.ipListFileTmp files
  | .ipBlock => (0, files)

/-- The next files are written when the ones before were. -/
def onSuccess (r : ℤ × Files) (next : Files → ℤ × Files) : ℤ × Files :=
  match r with
  | (0, files) => next files
  | r => r

/-- The four parts of `writeHydraTaskDir`: the first one that fails ends it. -/
theorem writeHydraTaskDir_cases (env : HydraEnv) (t : ListHydraTask) (paths : HydraPaths)
    (files : Files) {out : ℤ × Files} (hout : writeHydraTaskDir env t paths files = out) :
    let login := copyFileListSafe env hydraTemplDir t.loginList.text paths.loginFile
      paths.loginFileTmp files
    let passwd := copyFileListSafe env hydraTemplDir t.passwdList.text paths.passwdFile
      paths.passwdFileTmp login.2
    let ips := writeIpList env t paths passwd.2
    login.1 ≠ 0 ∧ out = login ∨ login.1 = 0 ∧ (passwd.1 ≠ 0 ∧ out = passwd ∨ passwd.1 = 0 ∧
      (ips.1 ≠ 0 ∧ out = ips ∨ ips.1 = 0 ∧ out = writeScheduleFiles env t paths ips.2)) := by
  intro login passwd ips
  unfold writeHydraTaskDir at hout
  split at hout
  · rename_i files₁ hlogin
    have hpasswd : passwd = copyFileListSafe env hydraTemplDir t.passwdList.text paths.passwdFile
        paths.passwdFileTmp files₁ := by
      simp only [passwd, login, hlogin]
    refine Or.inr ⟨congrArg Prod.fst hlogin, ?_⟩
    split at hout
    · rename_i files₂ heq
      have hpass := hpasswd.trans heq
      have hips : ips = writeIpList env t paths files₂ := by simp only [ips, hpass]
      refine Or.inr ⟨congrArg Prod.fst hpass, ?_⟩
      change onSuccess (writeIpList env t paths files₂) (writeScheduleFiles env t paths) = out at hout
      unfold onSuccess at hout
      split at hout
      · rename_i files₃ heq₃
        have hwritten := hips.trans heq₃
        exact Or.inr ⟨congrArg Prod.fst hwritten, by rw [hwritten, hout]⟩
      · rename_i hne
        refine Or.inl ⟨fun hzero => hne _ (Prod.ext ?_ rfl), by rw [hips, hout]⟩
        rw [← hips]
        exact hzero
    · rename_i hne
      refine Or.inl ⟨fun hzero => hne _ (Prod.ext ?_ rfl), by rw [hpasswd, hout]⟩
      rw [← hpasswd]
      exact hzero
  · rename_i hne
    exact Or.inl ⟨fun hzero => hne _ (Prod.ext hzero rfl), hout.symm⟩

/-- Only files of the task are written. -/
theorem writeHydraTaskDir_other {env : HydraEnv} {t : ListHydraTask} {id : Text} {files : Files}
    {path : Text} (h : ¬HydraOwns id path) :
    (writeHydraTaskDir env t (hydraPaths id) files).2 path = files path := by
  have hne : ∀ own ∈ [(hydraPaths id).loginFile, (hydraPaths id).loginFileTmp,
      (hydraPaths id).passwdFile, (hydraPaths id).passwdFileTmp, (hydraPaths id).ipListFile,
      (hydraPaths id).ipListFileTmp], path ≠ own := by
    rintro own hown rfl
    exact h (Or.inl (below_taskDir id _ hown))
  simp only [List.forall_mem_cons, List.not_mem_nil, false_implies, implies_true, and_true] at hne
  obtain ⟨hlogin, hloginTmp, hpasswd, hpasswdTmp, hips, hipsTmp⟩ := hne
  have hcron : path ≠ (hydraPaths id).cronFileNorm := fun heq => h (Or.inr heq)
  have hipList : ∀ files : Files, (writeIpList env t (hydraPaths id) files).2 path = files path := by
    intro files
    unfold writeIpList
    split
    · split
      · rfl
      · exact env.writeFileSafe_other _ _ _ _ hips hipsTmp
    · rfl
  rcases writeHydraTaskDir_cases env t (hydraPaths id) files rfl with
    ⟨-, hout⟩ | ⟨-, ⟨-, hout⟩ | ⟨-, ⟨-, hout⟩ | ⟨-, hout⟩⟩⟩
  · rw [hout, copyFileListSafe_other hlogin hloginTmp]
  · rw [hout, copyFileListSafe_other hpasswd hpasswdTmp, copyFileListSafe_other hlogin hloginTmp]
  · rw [hout, hipList, copyFileListSafe_other hpasswd hpasswdTmp,
      copyFileListSafe_other hlogin hloginTmp]
  · rw [hout, writeScheduleFiles_other hcron, hipList, copyFileListSafe_other hpasswd hpasswdTmp,
      copyFileListSafe_other hlogin hloginTmp]

theorem writeFileSafe_eq_zero {env : Env} {content dst tmp : Text} {files : Files} (hne : dst ≠ tmp)
    (h : (env.writeFileSafe content dst tmp files).1 = 0) :
    ((env.writeFileSafe content dst tmp files).2 dst).isSome ∧
      (env.writeFileSafe content dst tmp files).2 tmp = none := by
  unfold Env.writeFileSafe at h ⊢
  split at h
  · simp [Files.set, Ne.symm hne]
  · simp at h
  · simp at h
  · simp at h

/-- The list of addresses is written for this type of hosts. -/
theorem writeIpList_eq_zero {env : HydraEnv} {t : ListHydraTask} {id : Text} {files : Files}
    {paths : List Text} (h : (writeIpList env t (hydraPaths id) files).1 = 0)
    (hne : (hydraPaths id).ipListFile ≠ (hydraPaths id).ipListFileTmp)
    (hnew : (hydraPaths id).ipListFileTmp ∉ paths) (hfiles : OwnFiles id files paths) :
    OwnFiles id (writeIpList env t (hydraPaths id) files).2
      ((if t.hostsType = .ipList then [(hydraPaths id).ipListFile] else []) ++ paths) := by
  unfold writeIpList at h ⊢
  split at h
  · rename_i htype
    rw [if_pos htype]
    split at h
    · simp at h
    · obtain ⟨hsome, hnone⟩ := writeFileSafe_eq_zero hne h
      exact hfiles.write (fun _ => env.writeFileSafe_other _ _ _ _) hsome hnone hnew (Ne.symm hne)
  · rename_i htype
    rw [if_neg (by simp [htype])]
    exact hfiles

/-- A new task leaves its files, and its cron file if it has a schedule. -/
theorem writeHydraTaskDir_eq_zero {env : HydraEnv} {t : ListHydraTask} {files : Files}
    (hfree : ∀ path, HydraOwns t.taskId.text path → files path = none)
    (h : (writeHydraTaskDir env t (hydraPaths t.taskId.text) files).1 = 0) :
    OwnFiles t.taskId.text (writeHydraTaskDir env t (hydraPaths t.taskId.text) files).2
        (createdFiles t) ∧
      CronWritten env t (writeHydraTaskDir env t (hydraPaths t.taskId.text) files).2 := by
  have hnodup := nodup_taskFiles t.taskId.text
  simp only [List.nodup_cons, List.mem_cons, List.not_mem_nil, or_false, not_or] at hnodup
  obtain ⟨⟨hlogin, hloginPasswd, hloginPasswdTmp, hloginIp, hloginIpTmp⟩, ⟨-, -, -, -⟩,
    ⟨hpasswd, hpasswdIp, hpasswdIpTmp⟩, -, hip, -⟩ := hnodup
  rcases writeHydraTaskDir_cases env t (hydraPaths t.taskId.text) files rfl with
    ⟨hne, hout⟩ | ⟨hlogin0, ⟨hne, hout⟩ | ⟨hpasswd0, ⟨hne, hout⟩ | ⟨hip0, hout⟩⟩⟩
  · exact absurd (hout ▸ h) hne
  · exact absurd (hout ▸ h) hne
  · exact absurd (hout ▸ h) hne
  rw [hout] at h ⊢
  have hstart : OwnFiles t.taskId.text files [] := by
    intro path hpath
    simp [hfree path hpath]
  obtain ⟨hloginSome, hloginNone⟩ := copyFileListSafe_eq_zero hlogin hlogin0
  have hloginFiles := hstart.write (fun _ => copyFileListSafe_other) hloginSome hloginNone
    (by simp) (Ne.symm hlogin)
  obtain ⟨hpasswdSome, hpasswdNone⟩ := copyFileListSafe_eq_zero hpasswd hpasswd0
  have hpasswdFiles := hloginFiles.write (fun _ => copyFileListSafe_other) hpasswdSome hpasswdNone
    (by simpa using Ne.symm hloginPasswdTmp) (Ne.symm hpasswd)
  have hipFiles := writeIpList_eq_zero hip0 hip (by simp [Ne.symm hpasswdIpTmp, Ne.symm hloginIpTmp])
    hpasswdFiles
  have hcron := writeScheduleFiles_eq_zero h
  refine ⟨?_, hcron⟩
  unfold createdFiles
  dsimp only
  by_cases htype : t.scheduleType = icalDateNone
  · unfold writeScheduleFiles
    rw [if_pos htype, if_pos htype]
    exact hipFiles
  · rw [if_neg htype]
    obtain ⟨content, -, hcontent⟩ := hcron htype
    intro path hpath
    by_cases hp : path = (hydraPaths t.taskId.text).cronFileNorm
    · simp [hp, hcontent]
    · rw [writeScheduleFiles_other hp, hipFiles path hpath]
      simp [hp]

theorem writeHydraTaskFile_cases (env : HydraEnv) (w : HydraWorld) :
    ((writeHydraTaskFile env w).1 = 0 ∧
        writeHydraRecords maxCacheSize (w.data.createque.items.map w.task) =
          (writeHydraTaskFile env w).2 hydraTaskFile ∨
      (writeHydraTaskFile env w).1 ≠ 0 ∧
        (writeHydraTaskFile env w).2 hydraTaskFile = w.files hydraTaskFile) ∧
      ∀ path, path ≠ hydraTaskFile → path ≠ hydraTaskFileTmp →
        (writeHydraTaskFile env w).2 path = w.files path := by
  unfold writeHydraTaskFile
  split
  · exact ⟨Or.inr ⟨by simp, rfl⟩, fun _ _ _ => rfl⟩
  · rename_i content hcontent
    refine ⟨?_, fun path hfile htmp => env.writeFileSafe_other _ _ _ _ hfile htmp⟩
    rcases env.writeFileSafe_normal content _ _ w.files
      (show hydraTaskFile ≠ hydraTaskFileTmp by decide) with ⟨hcode, hfile⟩ | hfailed
    · exact Or.inl ⟨hcode, by rw [hcontent, hfile]⟩
    · exact Or.inr hfailed

theorem writeHydraRelationFile_eq_true {env : HydraEnv} {w : HydraWorld} {p : Ptr}
    (h : (writeHydraRelationFile env w p).1 = true) :
    CronWritten env (w.task p) (writeHydraRelationFile env w p).2.files := by
  unfold writeHydraRelationFile at h ⊢
  rw [prepareHydraPaths_eq] at h ⊢
  dsimp only at h ⊢
  split at h
  · simp at h
  · rename_i added hadded
    split at h
    · rename_i hmkdir
      rw [if_pos hmkdir]
      split at h
      · rename_i files heq
        have hcron : CronWritten env (w.task p) files := by
          rcases writeHydraTaskDir_cases env (w.task p) _ w.files heq with
            ⟨hne, hout⟩ | ⟨-, ⟨hne, hout⟩ | ⟨-, ⟨hne, hout⟩ | ⟨-, hout⟩⟩⟩
          · exact absurd (congrArg Prod.fst hout).symm hne
          · exact absurd (congrArg Prod.fst hout).symm hne
          · exact absurd (congrArg Prod.fst hout).symm hne
          · have hwritten := writeScheduleFiles_eq_zero (congrArg Prod.fst hout).symm
            rwa [← congrArg Prod.snd hout] at hwritten
        split at h
        · rename_i files' hlast
          -- the task file is another one than the cron file
          intro htype
          obtain ⟨content, hformat, hfile⟩ := hcron htype
          refine ⟨content, hformat, ?_⟩
          obtain ⟨hne, hneTmp⟩ := cronFileNorm_ne (w.task p).taskId.text
          obtain ⟨-, hother⟩ := writeHydraTaskFile_cases env { added with files := files }
          have hkept := hother _ hne hneTmp
          rw [hlast] at hkept
          exact hkept.trans hfile
        · simp at h
      · simp at h
    · simp at h

/-- A successful request formatted the schedule of the task and left it in the cron file. -/
theorem daemonCreateHydra_cron {env : HydraEnv} {w : HydraWorld} {input : Text}
    {task : ListHydraTask} (htask : getCreateHydraParam env input = some task)
    (hcode : (daemonCreateHydra env w input).code = .success) :
    CronWritten env (stampHydra env task) (daemonCreateHydra env w input).world.files := by
  unfold daemonCreateHydra at hcode ⊢
  split at hcode
  · rename_i halloc
    rw [if_pos halloc]
    rw [htask] at hcode ⊢
    dsimp only at hcode ⊢
    split at hcode
    · simp [HydraOutcome.fail] at hcode
    · split at hcode
      · rename_i w' hwrite
        have hcron := writeHydraRelationFile_eq_true (congrArg Prod.fst hwrite)
        rw [show ((w.newTask (stampHydra env task)).2.task
          (w.newTask (stampHydra env task)).1) = stampHydra env task from
            HydraWorld.task_setTask_self w w.next _, hwrite] at hcron
        exact hcron
      · simp [HydraOutcome.fail] at hcode
  · simp [HydraOutcome.fail] at hcode

/-! ### The indexes -/

/-- A task leaves both indexes. -/
def HydraWorld.unlink (w : HydraWorld) (p : Ptr) : HydraWorld :=
  { w with data :=
      { nameset := { w.data.nameset with
          data := w.data.nameset.data.erase p, size := w.data.nameset.size - 1 }
        createque := w.data.createque.delItem p } }

/-- A stored task leaves both indexes, and nothing else changes. -/
theorem HydraWorld.Indexed.delHydraTask_eq {w : HydraWorld} (h : w.Indexed) {p : Ptr}
    (hp : p ∈ w.data.nameset.data) :
    w.delHydraTask (w.task p) = some (w.unlink p) := by
  have hdel := h.items.set.delFromSet_of_mem (h.items.separated comparison_cmpHydraName _) hp
    (cmpHydraName_eq_zero.mpr rfl)
  rw [HydraWorld.delHydraTask, hdel, Option.map_some]
  rfl

/-- The indexes of `w'` are those of `w` and the item. -/
structure HydraLinked (w w' : HydraWorld) (p : Ptr) : Prop where
  mem : p ∈ w'.data.nameset.data
  nameset : w'.data.nameset.data.erase p = w.data.nameset.data
  size : w'.data.nameset.size = w.data.nameset.size + 1
  createque : w'.data.createque.delItem p = w.data.createque

theorem HydraWorld.Indexed.linked {w added : HydraWorld} (h : w.Indexed) {t : ListHydraTask}
    {realloc : Bool} (hadd : (w.newTask t).2.addHydraTask realloc w.next = some added) :
    HydraLinked w added w.next := by
  obtain ⟨s, hs, rfl⟩ := Option.map_eq_some_iff.mp hadd
  have hnot : w.next ∉ w.data.nameset.data := fun hmem => absurd (h.lt_next hmem) (lt_irrefl _)
  have hqueue : w.next ∉ w.data.createque.items := fun hq => hnot ((h.items.que_iff _).mp hq)
  obtain ⟨hvalid, hdata⟩ := h.items.set.addToSet hnot hs
  have hsize := h.items.set.size_eq
  have hsize' := hvalid.size_eq
  rw [hdata, length_insertLast] at hsize'
  refine ⟨?_, ?_, ?_, ListQueue.delItem_pushBack hqueue⟩
  · exact hdata ▸ mem_insertLast.mpr (Or.inl rfl)
  · exact hdata ▸ erase_insertLast hnot
  · change s.size = _
    omega

/-! ### The whole request -/

/-- What a failed request leaves: the indexes, the stored tasks and the files of before. A part of
the temporary file of the task file may remain. -/
structure HydraUnchanged (w w' : HydraWorld) : Prop where
  nameset : w'.data.nameset.data = w.data.nameset.data
  size : w'.data.nameset.size = w.data.nameset.size
  createque : w'.data.createque = w.data.createque
  stored : w'.stored = w.stored
  files : ∀ path, path ≠ hydraTaskFileTmp → w'.files path = w.files path

/-- What a successful request leaves: the new task in both indexes, in the task file and in its own
files, of which the cron file exists just if there is a schedule. -/
structure HydraCreated (env : HydraEnv) (w w' : HydraWorld) (t : ListHydraTask) : Prop where
  indexed : w'.Indexed
  fresh : w.stored w.next = none
  stored : w'.stored = Function.update w.stored w.next (some t)
  linked : HydraLinked w w' w.next
  taskFile : writeHydraRecords maxCacheSize (w'.data.createque.items.map w'.task) =
    w'.files hydraTaskFile
  own : OwnFiles t.taskId.text w'.files (createdFiles t)
  cron : CronWritten env t w'.files
  files : ∀ path, ¬HydraOwns t.taskId.text path → path ≠ hydraTaskFile → path ≠ hydraTaskFileTmp →
    w'.files path = w.files path

/-- The identifier is not in use: no file has one of its paths, and they belong to no stored
task. -/
def UnusedId (w : HydraWorld) (id : Text) : Prop :=
  ∀ path, HydraOwns id path →
    w.files path = none ∧ ∀ p t, w.stored p = some t → ¬HydraOwns t.taskId.text path

/-- The paths of a new identifier belong to no task with another one. -/
theorem unusedId_of_ne {w : HydraWorld} {id : CStr maxUuidSize} (hid : chkUuid id.text = true)
    (hids : ∀ p t, w.stored p = some t → chkUuid t.taskId.text = true ∧ t.taskId ≠ id)
    (hfiles : ∀ path, HydraOwns id.text path → w.files path = none) : UnusedId w id.text := by
  refine fun path hpath => ⟨hfiles path hpath, fun p t hp hown => ?_⟩
  obtain ⟨hchk, hne⟩ := hids p t hp
  have hslash : ∀ {id : CStr maxUuidSize}, chkUuid id.text = true → '/' ∉ id.text := by
    intro id hid hmem
    have hchar := forall_of_chkUuid (p := fun c => c ≠ '/') hid
      (by rintro c hc rfl; exact absurd hc (by decide)) (by decide) _ hmem
    exact hchar rfl
  rcases le_total t.taskId.text.length id.text.length with hle | hle
  · exact hne (CStr.ext (hpath.unique (hslash hid) hle hown))
  · exact hne (CStr.ext (hown.unique (hslash hchk) hle hpath).symm)

/-- The rollback removes what belongs to the task and keeps all other files. -/
theorem rollbackHydra_files {env : HydraEnv} (hunlink : ∀ path, env.unlink path = true)
    (added : HydraWorld) (p : Ptr) (id : Text) (files : Files) (path : Text) :
    (HydraOwns id path → (rollbackHydra env added p (hydraPaths id) files).files path = none) ∧
      (¬HydraOwns id path →
        (rollbackHydra env added p (hydraPaths id) files).files path = files path) := by
  unfold rollbackHydra Env.deleteDir deleteFile HydraOwns
  simp only [hunlink, and_true, if_true]
  constructor
  · rintro (hbelow | rfl)
    · rw [if_pos hbelow]
    · rw [if_neg (not_below_cronFileNorm _ _)]
      simp [Files.set]
  · rintro hnot
    obtain ⟨hbelow, hcron⟩ := not_or.mp hnot
    rw [if_neg hbelow]
    simp [Files.set, hcron]

namespace HydraLinked

variable {w added : HydraWorld} {p : Ptr}

/-- The rollback takes the task out of both indexes again. -/
theorem rollback (h : HydraLinked w added p) (hidx : added.Indexed) (env : HydraEnv)
    (paths : HydraPaths) (files : Files) :
    (rollbackHydra env added p paths files).data.nameset.data = w.data.nameset.data ∧
      (rollbackHydra env added p paths files).data.nameset.size = w.data.nameset.size ∧
      (rollbackHydra env added p paths files).data.createque = w.data.createque := by
  unfold rollbackHydra
  rw [hidx.delHydraTask_eq h.mem, Option.getD_some]
  refine ⟨h.nameset, ?_, h.createque⟩
  have hsize := h.size
  change added.data.nameset.size - 1 = w.data.nameset.size
  omega

end HydraLinked

/-- `writeHydraRelationFile` for a new task: after a failure everything is as before. -/
theorem writeHydraRelationFile_atomic {w : HydraWorld} (h : w.Indexed) {env : HydraEnv}
    {t : ListHydraTask} (hname : ∀ p u, w.stored p = some u → u.taskName ≠ t.taskName)
    (hfree : ∀ path, HydraOwns t.taskId.text path → w.files path = none)
    (hunlink : ∀ path, env.unlink path = true) {r : Bool × HydraWorld}
    (hr : writeHydraRelationFile env (w.newTask t).2 w.next = r) :
    (r.1 = false → HydraUnchanged w r.2) ∧ (r.1 = true → HydraCreated env w r.2 t) := by
  obtain ⟨hidx, -, -, -, hstored⟩ := h.writeHydraRelationFile env hname hr
  have htask : (w.newTask t).2.task w.next = t := HydraWorld.task_setTask_self w w.next t
  unfold writeHydraRelationFile at hr
  rw [prepareHydraPaths_eq, htask] at hr
  dsimp only at hr
  cases hadd : (w.newTask t).2.addHydraTask env.realloc w.next with
  | none =>
    rw [hadd] at hr
    subst hr
    exact ⟨fun _ => ⟨rfl, rfl, rfl, hstored, fun _ _ => rfl⟩, by simp⟩
  | some added =>
    obtain ⟨hadded, -, -, -, -, -, -⟩ := h.newTask_add hname hadd
    have hlinked := h.linked hadd
    -- the rollback after a step that wrote only files of the task and the temporary file
    have hrollback : ∀ files : Files,
        (∀ path, ¬HydraOwns t.taskId.text path → path ≠ hydraTaskFileTmp →
          files path = w.files path) →
        r = (false, rollbackHydra env added w.next (hydraPaths t.taskId.text) files) →
        (r.1 = false → HydraUnchanged w r.2) ∧ (r.1 = true → HydraCreated env w r.2 t) := by
      rintro files hfiles rfl
      obtain ⟨hnameset, hsize, hqueue⟩ := hlinked.rollback hadded env (hydraPaths t.taskId.text) files
      refine ⟨fun _ => ⟨hnameset, hsize, hqueue, hstored, fun path htmp => ?_⟩, by simp⟩
      obtain ⟨hown, hother⟩ := rollbackHydra_files hunlink added w.next t.taskId.text files path
      by_cases hpath : HydraOwns t.taskId.text path
      · exact (hown hpath).trans (hfree path hpath).symm
      · exact (hother hpath).trans (hfiles path hpath htmp)
    have hdir : ∀ path, ¬HydraOwns t.taskId.text path →
        (writeHydraTaskDir env t (hydraPaths t.taskId.text) w.files).2 path = w.files path :=
      fun path hpath => writeHydraTaskDir_other hpath
    rw [hadd] at hr
    dsimp only at hr
    split at hr
    swap
    · exact hrollback _ (fun _ _ _ => rfl) hr.symm
    split at hr
    swap
    · rename_i code files _ heq
      have hfiles : (writeHydraTaskDir env t (hydraPaths t.taskId.text) w.files).2 = files :=
        congrArg Prod.snd heq
      exact hrollback _ (fun path hpath _ => hfiles ▸ hdir path hpath) hr.symm
    rename_i files hwritten
    have hfiles : (writeHydraTaskDir env t (hydraPaths t.taskId.text) w.files).2 = files :=
      congrArg Prod.snd hwritten
    obtain ⟨hfile, hother⟩ := writeHydraTaskFile_cases env { added with files := files }
    obtain ⟨hnot, hnotTmp⟩ := not_hydraOwns_hydraTaskFile t.taskId.text
    split at hr
    · rename_i files' hlast
      rw [hlast] at hfile hother
      subst hr
      obtain ⟨hown, hcron⟩ := writeHydraTaskDir_eq_zero hfree (congrArg Prod.fst hwritten)
      rw [hfiles] at hown hcron
      have hkept : ∀ path, HydraOwns t.taskId.text path → files' path = files path := by
        intro path hpath
        apply hother path
        · rintro rfl
          exact hnot hpath
        · rintro rfl
          exact hnotTmp hpath
      refine ⟨by simp, fun _ => ⟨hidx, h.stored_next, hstored,
        ⟨hlinked.mem, hlinked.nameset, hlinked.size, hlinked.createque⟩, ?_, ?_, ?_, ?_⟩⟩
      · exact (hfile.resolve_right fun hne => hne.1 rfl).2
      · intro path hpath
        change (files' path).isSome ↔ _
        rw [hkept path hpath]
        exact hown path hpath
      · intro htype
        obtain ⟨content, hformat, hcontent⟩ := hcron htype
        exact ⟨content, hformat, (hkept _ (Or.inr rfl)).trans hcontent⟩
      · intro path hpath htaskFile htmp
        exact (hother path htaskFile htmp).trans (hfiles ▸ hdir path hpath)
    · rename_i code files' hne hlast
      rw [hlast] at hfile hother
      refine hrollback _ (fun path hpath htmp => ?_) hr.symm
      have hkeep : files path = w.files path := hfiles ▸ hdir path hpath
      by_cases htaskFile : path = hydraTaskFile
      · subst htaskFile
        rcases hfile with ⟨hzero, -⟩ | ⟨-, hsame⟩
        · exact (hne hzero).elim
        · exact hsame.trans hkeep
      · exact (hother path htaskFile htmp).trans hkeep

theorem getCreateHydraParam_taskId {env : HydraEnv} {input : Text} {task : ListHydraTask}
    (h : getCreateHydraParam env input = some task) : task.taskId = genUUID env.uuid := by
  unfold getCreateHydraParam at h
  iterate 10 obtain ⟨⟨_, _⟩, _, h⟩ := Option.bind_eq_some_iff.mp h
  dsimp only at h
  split at h
  · obtain ⟨hostsType, -, h⟩ := Option.bind_eq_some_iff.mp h
    rw [← Option.some.inj h]
  · simp at h

/-- **The creation of a hydra task is atomic.** A request that fails leaves indexes, task file, cron
files and task directories as they were; one that succeeds adds the new task to each of them. The
other stored tasks keep their records and files. -/
theorem daemonCreateHydra_atomic {w : HydraWorld} (h : w.Indexed) {env : HydraEnv}
    (hunlink : ∀ path, env.unlink path = true) (hunused : UnusedId w (genUUID env.uuid).text)
    (input : Text) :
    ((daemonCreateHydra env w input).code ≠ .success →
        HydraUnchanged w (daemonCreateHydra env w input).world) ∧
      ((daemonCreateHydra env w input).code = .success →
        ∃ task, getCreateHydraParam env input = some task ∧
          HydraCreated env w (daemonCreateHydra env w input).world (stampHydra env task)) ∧
      ∀ p u, w.stored p = some u →
        (daemonCreateHydra env w input).world.stored p = some u ∧
          ∀ path, HydraOwns u.taskId.text path →
            (daemonCreateHydra env w input).world.files path = w.files path := by
  have hothers : ∀ {w' : HydraWorld} {task : ListHydraTask},
      getCreateHydraParam env input = some task → HydraUnchanged w w' ∨
        HydraCreated env w w' (stampHydra env task) → ∀ p u, w.stored p = some u →
          w'.stored p = some u ∧ ∀ path, HydraOwns u.taskId.text path →
            w'.files path = w.files path := by
    intro w' task htask hw' p u hp
    have hid : task.taskId = genUUID env.uuid := getCreateHydraParam_taskId htask
    have hnotFile : ∀ path, HydraOwns u.taskId.text path →
        path ≠ hydraTaskFile ∧ path ≠ hydraTaskFileTmp := by
      intro path hpath
      obtain ⟨hfile, htmp⟩ := not_hydraOwns_hydraTaskFile u.taskId.text
      exact ⟨fun heq => hfile (heq ▸ hpath), fun heq => htmp (heq ▸ hpath)⟩
    rcases hw' with hsame | hnew
    · exact ⟨hsame.stored ▸ hp, fun path hpath => hsame.files path (hnotFile path hpath).2⟩
    · have hne : p ≠ w.next := by
        rintro rfl
        rw [hnew.fresh] at hp
        simp at hp
      refine ⟨by rw [hnew.stored, Function.update_of_ne hne, hp], fun path hpath => ?_⟩
      refine hnew.files path ?_ (hnotFile path hpath).1 (hnotFile path hpath).2
      change ¬HydraOwns task.taskId.text path
      rw [hid]
      exact fun hown => (hunused path hown).2 p u hp hpath
  have hself : HydraUnchanged w w := ⟨rfl, rfl, rfl, rfl, fun _ _ => rfl⟩
  have hfail : ∀ code, code ≠ GvmErrCode.success →
      ((HydraOutcome.fail w code).code ≠ .success → HydraUnchanged w (HydraOutcome.fail w code).world) ∧
        ((HydraOutcome.fail w code).code = .success →
          ∃ task, getCreateHydraParam env input = some task ∧
            HydraCreated env w (HydraOutcome.fail w code).world (stampHydra env task)) ∧
        ∀ p u, w.stored p = some u → (HydraOutcome.fail w code).world.stored p = some u ∧
          ∀ path, HydraOwns u.taskId.text path →
            (HydraOutcome.fail w code).world.files path = w.files path :=
    fun code hcode => ⟨fun _ => hself, fun hsuccess => absurd hsuccess hcode,
      fun p u hp => ⟨hp, fun _ _ => rfl⟩⟩
  unfold daemonCreateHydra
  split
  swap
  · exact hfail _ (by decide)
  split
  · exact hfail _ (by decide)
  rename_i task htask
  split
  · exact hfail _ (by decide)
  rename_i hfind
  have hname : ∀ p u, w.stored p = some u → u.taskName ≠ (stampHydra env task).taskName :=
    h.findHydraTask_eq_none.mp hfind
  have hfree : ∀ path, HydraOwns (stampHydra env task).taskId.text path → w.files path = none := by
    intro path hpath
    have hid : task.taskId = genUUID env.uuid := getCreateHydraParam_taskId htask
    change HydraOwns task.taskId.text path at hpath
    rw [hid] at hpath
    exact (hunused path hpath).1
  dsimp only
  split
  · rename_i w' hwrite
    obtain ⟨-, hnew⟩ := writeHydraRelationFile_atomic h hname hfree hunlink hwrite
    exact ⟨fun hne => absurd rfl hne, fun _ => ⟨task, htask, hnew rfl⟩,
      hothers htask (Or.inr (hnew rfl))⟩
  · rename_i w' hwrite
    obtain ⟨hsame, -⟩ := writeHydraRelationFile_atomic h hname hfree hunlink hwrite
    obtain ⟨hidx, -, -, -, hstored⟩ := h.writeHydraRelationFile env hname hwrite
    rw [if_neg Bool.false_ne_true] at hstored
    obtain ⟨-, hfreed⟩ := hidx.freeHydraTask (show w'.stored w.next = none by
      rw [hstored, h.stored_next])
    have hunchanged : HydraUnchanged w (w'.freeHydraTask w.next) :=
      ⟨(hsame rfl).nameset, (hsame rfl).size, (hsame rfl).createque, hfreed.trans hstored,
        (hsame rfl).files⟩
    exact ⟨fun _ => hunchanged, fun hcode => by simp [HydraOutcome.fail] at hcode,
      hothers htask (Or.inl hunchanged)⟩

/-- The word lists of the small system belong to no task. -/
theorem unusedId_sampleHydraState (id : Text) : UnusedId sampleHydraState.world id := by
  have htempl : ∀ name : Text, ¬HydraOwns id (hydraTemplDir ++ name) := by
    intro name
    refine not_or.mpr ⟨?_, ?_⟩
    · simp only [hydraPaths, hydraTemplDir, List.append_assoc]
      rw [List.prefix_append_right_inj, List.prefix_append_right_inj]
      change ¬ 't' :: 'a' :: _ <+: 't' :: 'e' :: _
      simp [List.cons_prefix_cons]
    · simp only [hydraTemplDir, List.append_assoc]
      exact (cronFileNorm_ne_append id _).symm
  refine fun path hpath => ⟨?_, fun p t hp => ?_⟩
  · have hne : ∀ name : Text, path ≠ hydraTemplDir ++ name := by
      rintro name rfl
      exact htempl name hpath
    change sampleHydraFiles path = none
    simp only [sampleHydraFiles, Files.set]
    rw [Function.update_of_ne (hne _), Function.update_of_ne (hne _)]
  · exact absurd hp (by simp [sampleHydraState, HydraWorld.stored_emptyHydraWorld])

theorem daemonCreateHydra_atomic_sampleHydraCreate :
    ∃ task, getCreateHydraParam (.smooth 0) sampleHydraCreate = some task ∧
      HydraCreated (.smooth 0) sampleHydraState.world
        (daemonCreateHydra (.smooth 0) sampleHydraState.world sampleHydraCreate).world
        (stampHydra (.smooth 0) task) :=
  (daemonCreateHydra_atomic (HydraWorld.indexed_emptyHydraWorld _) (fun _ => rfl)
    (unusedId_sampleHydraState _) sampleHydraCreate).2.1 (by decide +kernel)

end OpenvasTool
