import OpenvasTool.Gvmd.NvtSelectors

/-!
# Configs made of several configs

`multi_copy_config` on the tables of the manager. A `Database` carries the
constraints of its tables, so a statement that would break one has no result: `sql`
then ends the process and the transaction is undone. The loop copies the rows of
every listed config as they are, so the new config has a preference once exactly
when no two places of the list give it.
-/

namespace OpenvasTool.Gvmd

open Posix

/-- A row of `users`. -/
structure User where
  id : ℕ
  uuid : Text

/-- A row of `configs`. A config of a positive type is one of an OSP scanner. -/
structure Config where
  id : ℕ
  uuid : Text
  owner : Option ℕ
  name : Text
  nvtSelector : Option Text
  comment : Option Text
  familyCount : Option ℤ
  nvtCount : Option ℤ
  familiesGrowing : Option Bool
  nvtsGrowing : Option Bool
  type : ℤ
  usageType : Text
  predefined : Bool
  deriving DecidableEq, Repr

/-- A row of `config_preferences`. -/
structure ConfigPreference where
  config : ℕ
  type : Option Text
  name : Option Text
  value : Option Text
  defaultValue : Option Text
  hrName : Option Text
  deriving DecidableEq, Repr

/-- What identifies a preference within a config. -/
def ConfigPreference.key (p : ConfigPreference) : Option Text × Option Text := (p.type, p.name)

/-- The tables and their constraints. -/
structure Database where
  users : List User
  nvts : List Nvt
  nvtSelectors : List NvtSelector
  configs : List Config
  configPreferences : List ConfigPreference
  /-- The next number of the sequence behind `configs.id`. -/
  nextConfig : ℕ
  nvt_oids : (nvts.map Nvt.oid).Nodup
  config_ids : (configs.map Config.id).Nodup
  config_uuids : (configs.map Config.uuid).Nodup
  config_id_lt : ∀ c ∈ configs, c.id < nextConfig
  preference_configs : ∀ p ∈ configPreferences, p.config ∈ configs.map Config.id

namespace Database

variable (db : Database)

/-! ### Statements -/

/-- The new row of an `INSERT` into `configs`, the id of which comes from the sequence. -/
def insertConfig (row : Config) : Option Database :=
  if h : row.uuid ∈ db.configs.map Config.uuid then none
  else some { db with
    configs := db.configs ++ [{ row with id := db.nextConfig }]
    nextConfig := db.nextConfig + 1
    config_ids := by
      rw [List.map_append, List.map_singleton, ← List.concat_eq_append]
      refine db.config_ids.concat fun hmem => ?_
      obtain ⟨c, hc, hid⟩ := List.mem_map.mp hmem
      exact lt_irrefl db.nextConfig (hid.symm.trans_lt (db.config_id_lt c hc))
    config_uuids := by
      rw [List.map_append, List.map_singleton, ← List.concat_eq_append]
      exact db.config_uuids.concat h
    config_id_lt := by
      intro c hc
      rcases List.mem_append.mp hc with hc | hc
      · exact Nat.lt_succ_of_lt (db.config_id_lt c hc)
      · obtain rfl := List.mem_singleton.mp hc
        exact Nat.lt_succ_self db.nextConfig
    preference_configs := by
      intro p hp
      rw [List.map_append]
      exact List.mem_append_left _ (db.preference_configs p hp) }

/-- An `INSERT` into `config_preferences`. -/
def insertPreferences (rows : List ConfigPreference) : Option Database :=
  if h : ∀ p ∈ rows, p.config ∈ db.configs.map Config.id then
    some { db with
      configPreferences := db.configPreferences ++ rows
      preference_configs := by
        intro p hp
        rcases List.mem_append.mp hp with hp | hp
        · exact db.preference_configs p hp
        · exact h p hp }
  else none

/-- An `INSERT` into `nvt_selectors`. -/
def insertSelectors (rows : List NvtSelector) : Database :=
  { db with nvtSelectors := db.nvtSelectors ++ rows }

/-- An `UPDATE` of the cached columns of the configs with a name. -/
def updateCaches (name : Text) (familyCount nvtCount : ℤ) (familiesGrowing nvtsGrowing : Bool) :
    Database :=
  let cached (c : Config) : Config :=
    if c.name = name then
      { c with familyCount := familyCount, nvtCount := nvtCount, familiesGrowing := familiesGrowing,
               nvtsGrowing := nvtsGrowing }
    else c
  have hid : (db.configs.map cached).map Config.id = db.configs.map Config.id := by
    rw [List.map_map]
    refine List.map_congr_left fun c _ => ?_
    simp only [Function.comp_apply, cached]
    split <;> rfl
  have huuid : (db.configs.map cached).map Config.uuid = db.configs.map Config.uuid := by
    rw [List.map_map]
    refine List.map_congr_left fun c _ => ?_
    simp only [Function.comp_apply, cached]
    split <;> rfl
  { db with
    configs := db.configs.map cached
    config_ids := hid ▸ db.config_ids
    config_uuids := huuid ▸ db.config_uuids
    config_id_lt := by
      intro c hc
      have hmem : c.id ∈ db.configs.map Config.id := hid ▸ List.mem_map_of_mem hc
      obtain ⟨c', hc', heq⟩ := List.mem_map.mp hmem
      exact heq ▸ db.config_id_lt c' hc'
    preference_configs := fun p hp => hid ▸ db.preference_configs p hp }

/-! ### Queries -/

/-- `SELECT id FROM users WHERE users.uuid = ...`. -/
def userId (uuid : Text) : Option ℕ := (db.users.find? fun u => u.uuid = uuid).map User.id

/-- The config with a uuid. The uuids are made of hexadecimal digits and dashes, so quoting a listed
uuid does not change it. -/
def configOf (uuid : Text) : Option Config := db.configs.find? fun c => c.uuid = uuid

/-- The preferences of the config with a uuid. -/
def preferencesOf (uuid : Text) : List ConfigPreference :=
  db.configPreferences.filter fun p => (db.configOf uuid).map Config.id = some p.config

/-- The selector rows of the config with a uuid. -/
def selectorsOf (uuid : Text) : List NvtSelector :=
  db.nvtSelectors.filter fun r => (db.configOf uuid).bind Config.nvtSelector = some r.name

end Database

/-- The user of the session, with the answers of the access control. -/
structure Session where
  uuid : Text
  /-- `acl_user_may`. -/
  userMay : Text → Bool
  /-- `acl_user_has_access_uuid` for configs that are not in the trashcan. -/
  hasAccess : (uuid permission : Text) → Bool

namespace Session

variable (session : Session) (db : Database)

/-- `ACL_USER_OWNS`. -/
def owns (owner : Option ℕ) : Bool := owner.isSome && decide (owner = db.userId session.uuid)

/-- `find_resource_with_permission` for configs, with 0 for none. -/
def findConfigWithPermission (uuid permission : Text) : ℕ :=
  if session.hasAccess uuid permission then ((db.configOf uuid).map Config.id).getD 0 else 0

/-- `resource_with_name_exists` for configs. -/
def configWithNameExists (name : Text) : Bool :=
  db.configs.any fun c => decide (c.name = name) && session.owns db c.owner

end Session

/-- `sql_quote`. -/
def sqlQuote (text : Text) : Text := text.flatMap fun c => if c = '\'' then ['\'', '\''] else [c]

/-- `g_strsplit` at commas; it makes no piece of an empty text. -/
def gStrsplit (text : Text) : List Text := if text = [] then [] else text.splitOn ','

/-- `validate_multi_config_param`. The name is quoted here and once more by the check that uses it. -/
def validateMultiConfigParam (session : Session) (db : Database)
    (name usageType multiConfigId : Option Text) : ℤ :=
  if usageType.map (·.map Char.toLower) ≠ some "scan".toList then 1
  else if (multiConfigId.getD []).isEmpty then 2
  else if (name.getD []).isEmpty then 3
  else if session.configWithNameExists db (sqlQuote (name.getD [])) then 4
  else if !session.userMay "create_config".toList then 99
  else if (gStrsplit (multiConfigId.getD [])).any fun uuid =>
      session.findConfigWithPermission db uuid "get_configs".toList = 0 then 2
  else 0

/-- `update_config_cache`. -/
def updateConfigCache (c : Config) (db : Database) : Option Database :=
  if 0 < c.type then some db
  else c.nvtSelector.map fun selector =>
    let familiesGrowing := nvtSelectorFamiliesGrowing db.nvtSelectors selector
    db.updateCaches c.name (nvtSelectorFamilyCount db.nvts db.nvtSelectors selector familiesGrowing)
      (nvtSelectorNvtCount db.nvts db.nvtSelectors selector familiesGrowing) familiesGrowing
      (nvtSelectorNvtsGrowing2 db.nvts db.nvtSelectors selector familiesGrowing)

/-- `update_config_caches` for one config. -/
def updateConfigCaches (session : Session) (config : ℕ) (db : Database) : Option Database :=
  (db.configs.filter fun c => decide (c.id = config) && session.owns db c.owner).foldlM
    (fun db c => updateConfigCache c db) db

/-- One round of the loop of `multi_copy_config`. -/
def copyConfigRows (newId : ℕ) (selectorUuid : Text) (db : Database) (uuid : Text) : Option Database :=
  (db.insertPreferences ((db.preferencesOf uuid).map fun p => { p with config := newId })).map
    fun db' =>
      db'.insertSelectors ((db'.selectorsOf uuid).map fun r => { r with name := selectorUuid })

/-- `multi_copy_config`, with the answers of the two calls of `gvm_uuid_make`. It answers the new
config, or the code of a failure. -/
def multiCopyConfig (session : Session) (configUuid selectorUuid : Option Text)
    (name comment usageType multiConfigId : Option Text) (db : Database) :
    Option (Except ℤ ℕ × Database) :=
  match selectorUuid, configUuid with
  | some selectorUuid, some configUuid =>
      let ret := validateMultiConfigParam session db name usageType multiConfigId
      if ret ≠ 0 then some (.error ret, db)
      else do
        let inserted ← db.insertConfig
          { id := 0, uuid := configUuid, owner := db.userId session.uuid, name := name.getD [],
            nvtSelector := some selectorUuid, comment := comment, familyCount := none,
            nvtCount := none, familiesGrowing := none, nvtsGrowing := none, type := 0,
            usageType := "scan".toList, predefined := false }
        let copied ← (gStrsplit (multiConfigId.getD [])).foldlM
          (copyConfigRows db.nextConfig selectorUuid) inserted
        let cached ← updateConfigCaches session db.nextConfig copied
        some (.ok db.nextConfig, cached)
  | _, _ => some (.error (-1), db)

/-! ### What a successful call does -/

section Copy

variable {session : Session} {db db' : Database} {newId : ℕ} {uuid selectorUuid : Text}

theorem Database.insertConfig_eq_some {row : Config} (h : db.insertConfig row = some db') :
    row.uuid ∉ db.configs.map Config.uuid ∧ db'.users = db.users ∧ db'.nvts = db.nvts ∧
      db'.nvtSelectors = db.nvtSelectors ∧ db'.configPreferences = db.configPreferences ∧
      db'.configs = db.configs ++ [{ row with id := db.nextConfig }] := by
  unfold Database.insertConfig at h
  split at h
  · cases h
  · rename_i hmem
    obtain rfl := Option.some.inj h
    exact ⟨hmem, rfl, rfl, rfl, rfl, rfl⟩

theorem Database.insertPreferences_eq_some {rows : List ConfigPreference}
    (h : db.insertPreferences rows = some db') :
    db'.users = db.users ∧ db'.nvts = db.nvts ∧ db'.nvtSelectors = db.nvtSelectors ∧
      db'.configs = db.configs ∧ db'.configPreferences = db.configPreferences ++ rows := by
  unfold Database.insertPreferences at h
  split at h
  · obtain rfl := Option.some.inj h
    exact ⟨rfl, rfl, rfl, rfl, rfl⟩
  · cases h

/-- One round appends the rows of one listed config and leaves all else. -/
theorem copyConfigRows_eq_some (h : copyConfigRows newId selectorUuid db uuid = some db') :
    db'.users = db.users ∧ db'.nvts = db.nvts ∧ db'.configs = db.configs ∧
      db'.nvtSelectors =
        db.nvtSelectors ++ (db.selectorsOf uuid).map (fun r => { r with name := selectorUuid }) ∧
      db'.configPreferences =
        db.configPreferences ++ (db.preferencesOf uuid).map (fun p => { p with config := newId }) := by
  obtain ⟨mid, hmid, rfl⟩ := Option.map_eq_some_iff.mp h
  obtain ⟨husers, hnvts, hselectors, hconfigs, hprefs⟩ := Database.insertPreferences_eq_some hmid
  have hof : mid.selectorsOf uuid = db.selectorsOf uuid := by
    unfold Database.selectorsOf Database.configOf
    rw [hselectors, hconfigs]
  refine ⟨husers, hnvts, hconfigs, ?_, hprefs⟩
  rw [← hof, ← hselectors]
  rfl

/-- The loop appends the preferences of the listed configs, one config after the other. -/
theorem foldlM_copyConfigRows_preferences {uuids : List Text}
    (hnew : ∀ uuid ∈ uuids, (db.configOf uuid).map Config.id ≠ some newId)
    (h : uuids.foldlM (copyConfigRows newId selectorUuid) db = some db') :
    db'.configPreferences = db.configPreferences ++
      (uuids.flatMap db.preferencesOf).map fun p => { p with config := newId } := by
  induction uuids generalizing db with
  | nil =>
    obtain rfl := Option.some.inj h
    simp
  | cons uuid uuids ih =>
    rw [List.foldlM_cons] at h
    obtain ⟨mid, hround, hrest⟩ := Option.bind_eq_some_iff.mp h
    obtain ⟨-, -, hconfigs, -, hprefs⟩ := copyConfigRows_eq_some hround
    have hconfigOf (u : Text) : mid.configOf u = db.configOf u := by
      unfold Database.configOf
      rw [hconfigs]
    have hof : ∀ u ∈ uuids, mid.preferencesOf u = db.preferencesOf u := by
      intro u hu
      unfold Database.preferencesOf
      rw [hprefs, List.filter_append, hconfigOf, List.append_right_eq_self, List.filter_eq_nil_iff]
      intro p hp
      obtain ⟨p', -, rfl⟩ := List.mem_map.mp hp
      simpa using hnew u (List.mem_cons_of_mem _ hu)
    rw [ih (fun u hu => hconfigOf u ▸ hnew u (List.mem_cons_of_mem _ hu)) hrest, hprefs,
      List.flatMap_congr hof, List.flatMap_cons, List.map_append, List.append_assoc]

/-- The loop changes neither the users, nor the NVTs, nor the configs. -/
theorem foldlM_copyConfigRows_frame {uuids : List Text}
    (h : uuids.foldlM (copyConfigRows newId selectorUuid) db = some db') :
    db'.users = db.users ∧ db'.nvts = db.nvts ∧ db'.configs = db.configs := by
  induction uuids generalizing db with
  | nil =>
    obtain rfl := Option.some.inj h
    exact ⟨rfl, rfl, rfl⟩
  | cons uuid uuids ih =>
    rw [List.foldlM_cons] at h
    obtain ⟨mid, hround, hrest⟩ := Option.bind_eq_some_iff.mp h
    obtain ⟨husers, hnvts, hconfigs, -, -⟩ := copyConfigRows_eq_some hround
    obtain ⟨husers', hnvts', hconfigs'⟩ := ih hrest
    exact ⟨husers'.trans husers, hnvts'.trans hnvts, hconfigs'.trans hconfigs⟩

end Copy

section Caches

variable {session : Session} {db db' : Database}

/-- Refreshing the caches of a config touches no table but `configs`. -/
theorem updateConfigCache_frame {c : Config} (h : updateConfigCache c db = some db') :
    db'.users = db.users ∧ db'.nvts = db.nvts ∧ db'.nvtSelectors = db.nvtSelectors ∧
      db'.configPreferences = db.configPreferences := by
  unfold updateConfigCache at h
  split at h
  · obtain rfl := Option.some.inj h
    exact ⟨rfl, rfl, rfl, rfl⟩
  · obtain ⟨selector, -, rfl⟩ := Option.map_eq_some_iff.mp h
    exact ⟨rfl, rfl, rfl, rfl⟩

theorem updateConfigCaches_frame {config : ℕ} (h : updateConfigCaches session config db = some db') :
    db'.users = db.users ∧ db'.nvts = db.nvts ∧ db'.nvtSelectors = db.nvtSelectors ∧
      db'.configPreferences = db.configPreferences := by
  unfold updateConfigCaches at h
  generalize (db.configs.filter _) = cs at h
  induction cs generalizing db with
  | nil =>
    obtain rfl := Option.some.inj h
    exact ⟨rfl, rfl, rfl, rfl⟩
  | cons c cs ih =>
    rw [List.foldlM_cons] at h
    obtain ⟨mid, hround, hrest⟩ := Option.bind_eq_some_iff.mp h
    obtain ⟨husers, hnvts, hselectors, hprefs⟩ := updateConfigCache_frame hround
    obtain ⟨husers', hnvts', hselectors', hprefs'⟩ := ih hrest
    exact ⟨husers'.trans husers, hnvts'.trans hnvts, hselectors'.trans hselectors,
      hprefs'.trans hprefs⟩

end Caches

/-- What a call that returns 0 went through. -/
theorem multiCopyConfig_ok {session : Session} {configUuid selectorUuid : Option Text}
    {name comment usageType multiConfigId : Option Text} {db db' : Database} {new : ℕ}
    (h : multiCopyConfig session configUuid selectorUuid name comment usageType multiConfigId db =
      some (.ok new, db')) :
    ∃ configUuid' selectorUuid' row inserted copied,
      configUuid = some configUuid' ∧ selectorUuid = some selectorUuid' ∧
      row.uuid = configUuid' ∧ row.owner = db.userId session.uuid ∧
      row.nvtSelector = some selectorUuid' ∧ row.type = 0 ∧ new = db.nextConfig ∧
      validateMultiConfigParam session db name usageType multiConfigId = 0 ∧
      db.insertConfig row = some inserted ∧
      (gStrsplit (multiConfigId.getD [])).foldlM (copyConfigRows new selectorUuid') inserted =
        some copied ∧
      updateConfigCaches session new copied = some db' := by
  unfold multiCopyConfig at h
  split at h
  · rename_i selector config
    dsimp only at h
    split at h
    · simp at h
    · rename_i hret
      obtain ⟨inserted, hinsert, h⟩ := Option.bind_eq_some_iff.mp h
      obtain ⟨copied, hcopy, h⟩ := Option.bind_eq_some_iff.mp h
      obtain ⟨cached, hcache, h⟩ := Option.bind_eq_some_iff.mp h
      simp only [Option.some.injEq, Prod.mk.injEq, Except.ok.injEq] at h
      obtain ⟨rfl, rfl⟩ := h
      exact ⟨config, selector, _, inserted, copied, rfl, rfl, rfl, rfl, rfl, rfl, rfl,
        not_not.mp hret, hinsert, hcopy, hcache⟩
  · simp at h

/-- A call that fails leaves the tables as they are. -/
theorem multiCopyConfig_error {session : Session} {configUuid selectorUuid : Option Text}
    {name comment usageType multiConfigId : Option Text} {db db' : Database} {code : ℤ}
    (h : multiCopyConfig session configUuid selectorUuid name comment usageType multiConfigId db =
      some (.error code, db')) : db' = db := by
  unfold multiCopyConfig at h
  split at h
  · dsimp only at h
    split at h
    · exact (Prod.mk.inj (Option.some.inj h)).2.symm
    · obtain ⟨inserted, -, h⟩ := Option.bind_eq_some_iff.mp h
      obtain ⟨copied, -, h⟩ := Option.bind_eq_some_iff.mp h
      obtain ⟨cached, -, h⟩ := Option.bind_eq_some_iff.mp h
      simp at h
  · exact (Prod.mk.inj (Option.some.inj h)).2.symm

/-- A listed config of an accepted list exists. -/
theorem validateMultiConfigParam_listed {session : Session} {db : Database}
    {name usageType multiConfigId : Option Text}
    (h : validateMultiConfigParam session db name usageType multiConfigId = 0) :
    ∀ uuid ∈ gStrsplit (multiConfigId.getD []), ∃ c ∈ db.configs, c.uuid = uuid ∧
      db.configOf uuid = some c := by
  intro uuid huuid
  simp only [validateMultiConfigParam] at h
  repeat' split at h
  all_goals try simp at h
  rename_i hall
  simp only [List.any_eq_true, decide_eq_true_eq, not_exists, not_and] at hall
  have hfound := hall uuid huuid
  unfold Session.findConfigWithPermission at hfound
  split at hfound
  · cases hof : db.configOf uuid with
    | none => simp [hof] at hfound
    | some c =>
      refine ⟨c, List.mem_of_find?_eq_some hof, ?_, rfl⟩
      simpa using List.find?_some hof
  · simp at hfound

/-- A listed config is found as before when a new one was added, and it is not the new one. -/
theorem Database.configOf_insertConfig {db inserted : Database} {row c : Config} {uuid : Text}
    (hinsert : db.insertConfig row = some inserted) (hc : db.configOf uuid = some c) :
    inserted.configOf uuid = some c ∧ c.id ≠ db.nextConfig := by
  obtain ⟨-, -, -, -, -, hconfigs⟩ := Database.insertConfig_eq_some hinsert
  refine ⟨?_, (db.config_id_lt c (List.mem_of_find?_eq_some hc)).ne⟩
  unfold Database.configOf at hc ⊢
  rw [hconfigs, List.find?_append, hc]
  rfl

/-- The preferences after a call that returns 0: the old rows, and behind them those of the listed
configs with the id of the new one. -/
theorem multiCopyConfig_preferences {session : Session} {configUuid selectorUuid : Option Text}
    {name comment usageType multiConfigId : Option Text} {db db' : Database} {new : ℕ}
    (h : multiCopyConfig session configUuid selectorUuid name comment usageType multiConfigId db =
      some (.ok new, db')) :
    new = db.nextConfig ∧ db'.configPreferences = db.configPreferences ++
      ((gStrsplit (multiConfigId.getD [])).flatMap db.preferencesOf).map
        fun p => { p with config := new } := by
  obtain ⟨_, _, row, inserted, copied, -, -, -, -, -, -, hnew, hvalid, hinsert, hcopy, hcache⟩ :=
    multiCopyConfig_ok h
  refine ⟨hnew, ?_⟩
  have hlisted := validateMultiConfigParam_listed hvalid
  obtain ⟨-, -, -, -, hprefs, -⟩ := Database.insertConfig_eq_some hinsert
  obtain ⟨-, -, -, hcached⟩ := updateConfigCaches_frame hcache
  have hof : ∀ uuid ∈ gStrsplit (multiConfigId.getD []),
      inserted.preferencesOf uuid = db.preferencesOf uuid := by
    intro uuid huuid
    obtain ⟨c, -, -, hc⟩ := hlisted uuid huuid
    unfold Database.preferencesOf
    rw [hprefs, (Database.configOf_insertConfig hinsert hc).1, hc]
  rw [hcached, foldlM_copyConfigRows_preferences ?_ hcopy, hprefs, List.flatMap_congr hof]
  intro uuid huuid
  obtain ⟨c, -, -, hc⟩ := hlisted uuid huuid
  obtain ⟨hfound, hne⟩ := Database.configOf_insertConfig hinsert hc
  simpa [hfound, hnew] using hne

/-! ### One row for each preference -/

/-- What a merged config should hold. A preference is identified by its type and its name. -/
structure MergedOnce (db db' : Database) (uuids : List Text) (new : ℕ) : Prop where
  /-- There is one row for each preference of a listed config, and none for any other. -/
  once : ∀ key, ((db'.configPreferences.filter fun p => p.config = new).map
      ConfigPreference.key).count key =
    if ∃ uuid ∈ uuids, key ∈ (db.preferencesOf uuid).map ConfigPreference.key then 1 else 0
  /-- Its value is one that a listed config gives. -/
  value : ∀ p ∈ db'.configPreferences, p.config = new →
    ∃ uuid ∈ uuids, ∃ p' ∈ db.preferencesOf uuid, p'.key = p.key ∧ p'.value = p.value
  /-- The rows of the other configs are as before. -/
  others : (db'.configPreferences.filter fun p => p.config ≠ new) =
    db.configPreferences.filter fun p => p.config ≠ new

/-- No preference occurs at two places of the list. -/
def DisjointPreferences (db : Database) (uuids : List Text) : Prop :=
  (uuids.map fun uuid => (db.preferencesOf uuid).map ConfigPreference.key).Pairwise List.Disjoint

/-- Every config has a preference at most once. -/
def PreferencesUnique (db : Database) : Prop :=
  ∀ config, ((db.configPreferences.filter fun p => p.config = config).map
    ConfigPreference.key).Nodup

theorem PreferencesUnique.preferencesOf {db : Database} (h : PreferencesUnique db) (uuid : Text) :
    ((db.preferencesOf uuid).map ConfigPreference.key).Nodup := by
  unfold Database.preferencesOf
  cases hof : (db.configOf uuid).map Config.id with
  | none => simp
  | some config =>
    have heq : (fun p : ConfigPreference => decide (some config = some p.config)) =
        fun p => decide (p.config = config) := by
      funext p
      simp [eq_comm]
    rw [heq]
    exact h config

/-- After a call that returns 0 every preference of a listed config stands once in the new one exactly
when no preference occurs at two places of the list. -/
theorem multiCopyConfig_mergedOnce_iff {session : Session} {configUuid selectorUuid : Option Text}
    {name comment usageType multiConfigId : Option Text} {db db' : Database} {new : ℕ}
    (hunique : PreferencesUnique db)
    (h : multiCopyConfig session configUuid selectorUuid name comment usageType multiConfigId db =
      some (.ok new, db')) :
    MergedOnce db db' (gStrsplit (multiConfigId.getD [])) new ↔
      DisjointPreferences db (gStrsplit (multiConfigId.getD [])) := by
  obtain ⟨rfl, hprefs⟩ := multiCopyConfig_preferences h
  set uuids := gStrsplit (multiConfigId.getD [])
  set new := db.nextConfig
  set keys : List (Option Text × Option Text) :=
    uuids.flatMap fun uuid => (db.preferencesOf uuid).map ConfigPreference.key with hkeys
  have hold : ∀ p ∈ db.configPreferences, p.config ≠ new := by
    intro p hp
    obtain ⟨c, hc, hid⟩ := List.mem_map.mp (db.preference_configs p hp)
    exact hid ▸ (db.config_id_lt c hc).ne
  have hnewKeys : (db'.configPreferences.filter fun p => p.config = new).map ConfigPreference.key =
      keys := by
    rw [hprefs, List.filter_append, List.filter_eq_nil_iff.mpr (by simpa using hold),
      List.nil_append, List.filter_eq_self.mpr, hkeys]
    · simp only [List.map_map, List.map_flatMap]
      rfl
    · intro p hp
      obtain ⟨p', -, rfl⟩ := List.mem_map.mp hp
      simp
  have hmem (key) : key ∈ keys ↔
      ∃ uuid ∈ uuids, key ∈ (db.preferencesOf uuid).map ConfigPreference.key := List.mem_flatMap
  have hdisjoint : DisjointPreferences db uuids ↔ keys.Nodup := by
    rw [DisjointPreferences, List.pairwise_map, hkeys, List.nodup_flatMap]
    exact (and_iff_right fun uuid _ => hunique.preferencesOf uuid).symm
  rw [hdisjoint]
  constructor
  · intro hmerged
    rw [List.nodup_iff_count_le_one]
    intro key
    rw [← hnewKeys, hmerged.once key]
    split <;> omega
  · intro hnodup
    constructor
    · intro key
      rw [hnewKeys, hnodup.count]
      exact if_congr (hmem key) rfl rfl
    · intro p hp hconfig
      rw [hprefs] at hp
      rcases List.mem_append.mp hp with hp | hp
      · exact absurd hconfig (hold p hp)
      · obtain ⟨p', hp', rfl⟩ := List.mem_map.mp hp
        obtain ⟨uuid, huuid, hof⟩ := List.mem_flatMap.mp hp'
        exact ⟨uuid, huuid, p', hof, rfl, rfl⟩
    · rw [hprefs, List.filter_append, List.append_right_eq_self, List.filter_eq_nil_iff]
      intro p hp
      obtain ⟨p', -, rfl⟩ := List.mem_map.mp hp
      simp

/-- A user who may do everything. -/
def superSession : Session where
  uuid := "admin".toList
  userMay _ := true
  hasAccess _ _ := true

def baseUuid : Text := "d21f6c81-2b88-4ac1-b7b4-a2a9f2ad4663".toList
def fullUuid : Text := "daba56c8-73ec-11df-a475-002264764cea".toList
def mergedUuid : Text := "0ab11c27-e51e-4dc2-bf79-7e6ff0c4f1c2".toList
def mergedSelector : Text := "b3e9a2ce-46bb-4d0d-9b4c-b4bb5a3d5b42".toList

def sampleConfig (id : ℕ) (uuid name : Text) : Config where
  id := id
  uuid := uuid
  owner := some 1
  name := name
  nvtSelector := some uuid
  comment := none
  familyCount := some 0
  nvtCount := some 0
  familiesGrowing := some false
  nvtsGrowing := some false
  type := 0
  usageType := "scan".toList
  predefined := true

def samplePreference (config : ℕ) (name value : Text) : ConfigPreference where
  config := config
  type := some "SERVER_PREFS".toList
  name := some name
  value := some value
  defaultValue := none
  hrName := none

/-- Two configs that set one preference each. -/
def sampleDatabase : Database where
  users := [⟨1, "admin".toList⟩]
  nvts := []
  nvtSelectors := []
  configs := [sampleConfig 1 baseUuid "Base".toList, sampleConfig 2 fullUuid "Full and fast".toList]
  configPreferences :=
    [samplePreference 1 "max_checks".toList "4".toList,
      samplePreference 2 "safe_checks".toList "yes".toList]
  nextConfig := 3
  nvt_oids := by decide
  config_ids := by decide
  config_uuids := by decide +kernel
  config_id_lt := by decide
  preference_configs := by decide

theorem sampleDatabase_unique : PreferencesUnique sampleDatabase := by
  intro config
  by_cases h1 : config = 1
  · subst h1
    decide +kernel
  by_cases h2 : config = 2
  · subst h2
    decide +kernel
  simp [sampleDatabase, samplePreference, Ne.symm h1, Ne.symm h2]

/-- The answer of a call on the sample tables. -/
def sampleCall (uuids : Text) : Option (Except ℤ ℕ × Database) :=
  multiCopyConfig superSession (some mergedUuid) (some mergedSelector) (some "Both".toList) none
    (some "scan".toList) (some uuids) sampleDatabase

theorem exists_of_map_toOption {r : Option (Except ℤ ℕ × Database)} {new : ℕ}
    (h : r.map (fun r => r.1.toOption) = some (some new)) : ∃ db', r = some (.ok new, db') := by
  obtain ⟨⟨answer, db'⟩, rfl, hcode⟩ := Option.map_eq_some_iff.mp h
  cases answer with
  | error code => cases hcode
  | ok new' =>
    obtain rfl := Option.some.inj hcode
    exact ⟨db', rfl⟩

theorem multiCopyConfig_mergedOnce_iff_two :
    ∃ db', sampleCall (baseUuid ++ [','] ++ fullUuid) = some (.ok 3, db') ∧
      (MergedOnce sampleDatabase db' (gStrsplit (baseUuid ++ [','] ++ fullUuid)) 3 ↔
        DisjointPreferences sampleDatabase (gStrsplit (baseUuid ++ [','] ++ fullUuid))) := by
  have hcall : (sampleCall (baseUuid ++ [','] ++ fullUuid)).map (fun r => r.1.toOption) =
      some (some 3) := by decide +kernel
  obtain ⟨db', hanswer⟩ := exists_of_map_toOption hcall
  exact ⟨db', hanswer, multiCopyConfig_mergedOnce_iff sampleDatabase_unique hanswer⟩

/-- A config that is listed twice gives its preference twice. -/
theorem not_mergedOnce_repeated :
    ¬ ∀ (session : Session) (configUuid selectorUuid name comment usageType multiConfigId : Option Text)
        (db db' : Database) (new : ℕ), PreferencesUnique db →
      multiCopyConfig session configUuid selectorUuid name comment usageType multiConfigId db =
        some (.ok new, db') → MergedOnce db db' (gStrsplit (multiConfigId.getD [])) new := by
  intro hclaim
  have hcall : (sampleCall (baseUuid ++ [','] ++ baseUuid)).map (fun r => r.1.toOption) =
      some (some 3) := by decide +kernel
  obtain ⟨db', hanswer⟩ := exists_of_map_toOption hcall
  obtain ⟨-, hprefs⟩ := multiCopyConfig_preferences hanswer
  have honce := (hclaim _ _ _ _ _ _ _ _ _ _ sampleDatabase_unique hanswer).once
    (some "SERVER_PREFS".toList, some "max_checks".toList)
  rw [hprefs] at honce
  revert honce
  decide +kernel

end OpenvasTool.Gvmd
