import OpenvasTool.Hydra.TaskFile

/-!
# The command line of hydra

The array `params` that `genCmdParams` fills and the buffer that its entries point
into. The line is the intended one for a list of hosts and for a block without a
port. For a block with a port the entry behind `-f` stays NULL, and the line ends
there.
-/

namespace OpenvasTool

open Posix Support

/-- `MAX_CMD_PARAM_SIZE`. -/
def maxCmdParamSize : ℕ := 64

/-- What an entry of `params` points to: an offset in the buffer, or one of the two arrays that
`runHydraTask` fills for every service. -/
inductive CmdParam where
  | buffer (offset : ℕ)
  | outfile
  | service
  deriving DecidableEq, Repr

/-- The variables of `genCmdParams`: the array, `cnt` and the used part of the buffer. -/
structure CmdParams where
  params : List (Option CmdParam) := List.replicate maxCmdParamSize none
  cnt : ℕ := 0
  buf : Text := []
  deriving DecidableEq

namespace CmdParams

/-- `params[i] = param`. -/
def assign (s : CmdParams) (i : ℕ) (param : Option CmdParam) : CmdParams :=
  { s with params := s.params.set i param }

/-- `params[cnt++] = param`. -/
def push (s : CmdParams) (param : Option CmdParam) : CmdParams :=
  { s.assign s.cnt param with cnt := s.cnt + 1 }

/-- `params[++cnt] = param`. -/
def pushNext (s : CmdParams) (param : Option CmdParam) : CmdParams :=
  { s.assign (s.cnt + 1) param with cnt := s.cnt + 1 }

/-- `snprintf` behind the used part, which then has the text and its NUL. -/
def print (capacity : ℕ) (s : CmdParams) (text : Text) : Option CmdParams :=
  if 0 < text.length ∧ text.length < capacity - s.buf.length then
    some { s with buf := s.buf ++ (text ++ ['\x00']) }
  else none

/-- Print a text and push it. -/
def pushText (capacity : ℕ) (s : CmdParams) (text : Text) : Option CmdParams :=
  (s.print capacity text).map fun printed => printed.push (some (.buffer s.buf.length))

end CmdParams

/-- One argument: a text to print, or one of the two arrays. -/
inductive CmdItem where
  | text (t : Text)
  | outfile
  | service

/-- Push one argument. -/
def CmdParams.add (capacity : ℕ) (s : CmdParams) : CmdItem → Option CmdParams
  | .text t => s.pushText capacity t
  | .outfile => some (s.push (some .outfile))
  | .service => some (s.push (some .service))

/-- The arguments up to `-f`. -/
def cmdHead (paths : HydraPaths) : List CmdItem :=
  [.text "/usr/bin/hydra".toList, .text "-I".toList, .text "-t".toList, .text "4".toList,
    .text "-T".toList, .text "8".toList, .text "-w".toList, .text "10".toList,
    .text "-o".toList, .outfile, .text "-b".toList, .text "json".toList,
    .text "-L".toList, .text paths.loginFile, .text "-P".toList, .text paths.passwdFile,
    .text "-f".toList]

/-- The arguments behind the hosts. -/
def cmdTail (task : ListHydraTask) : List CmdItem :=
  .service :: if task.opts.text.isEmpty then [] else [.text task.opts.text]

/-- The branch of `genCmdParams` for a block. -/
def addIpBlock (capacity : ℕ) (hosts : Text) (s : CmdParams) : Option CmdParams := do
  let printed ← s.print capacity "-s".toList
  let s := printed.pushNext (some (.buffer s.buf.length))
  let printed ← s.print capacity hosts
  let block := some (.buffer s.buf.length)
  if ':' ∈ hosts then
    -- `*psz = '\0'` ends the block, and the port starts behind it
    let psz := s.buf.length + hosts.idxOf ':'
    let cut := { printed with buf := printed.buf.set psz '\x00' }
    some ((cut.pushNext (some (.buffer (psz + 1)))).pushNext block)
  else
    some (printed.assign (printed.cnt - 1) block)

/-- The hosts. -/
def addHosts (capacity : ℕ) (task : ListHydraTask) (paths : HydraPaths) (s : CmdParams) :
    Option CmdParams :=
  match task.hostsType with
  | .ipList => [CmdItem.text "-M".toList, .text paths.ipListFile].foldlM (CmdParams.add capacity) s
  | .ipBlock => addIpBlock capacity task.hosts.text s

/-- `genCmdParams` with the array and the buffer that it fills, if it returns 0. -/
def fillCmdParams (capacity : ℕ) (task : ListHydraTask) (paths : HydraPaths) :
    Option CmdParams := do
  let s ← (cmdHead paths).foldlM (CmdParams.add (leftOf capacity)) {}
  let s ← addHosts (leftOf capacity) task paths s
  let s ← (cmdTail task).foldlM (CmdParams.add (leftOf capacity)) s
  some (s.push none)

/-! ### What the new process gets -/

/-- The string of an entry while the two arrays have these contents. -/
def CmdParam.string (service outfile buf : Text) : CmdParam → Text
  | .buffer offset => cstring (buf.drop offset)
  | .outfile => outfile
  | .service => service

/-- The entries in front of the first NULL. -/
def entries : List (Option CmdParam) → List CmdParam
  | some param :: params => param :: entries params
  | _ => []

/-- The arguments that `execv` passes on. -/
def CmdParams.argv (service outfile : Text) (s : CmdParams) : List Text :=
  (entries s.params).map (CmdParam.string service outfile s.buf)

/-- The intended hosts arguments: the port stands behind the first colon of a block. -/
def hostsArgs (task : ListHydraTask) (paths : HydraPaths) : List Text :=
  match task.hostsType with
  | .ipList => ["-M".toList, paths.ipListFile]
  | .ipBlock =>
      let block := task.hosts.text.takeWhile (· != ':')
      if ':' ∈ task.hosts.text then
        ["-s".toList, (task.hosts.text.dropWhile (· != ':')).tail, block]
      else [block]

/-- The string of an argument while the two arrays have these contents. -/
def CmdItem.string (service outfile : Text) : CmdItem → Text
  | .text t => t
  | .outfile => outfile
  | .service => service

/-- The intended command line. -/
def hydraCmdLine (task : ListHydraTask) (paths : HydraPaths) (service outfile : Text) :
    List Text :=
  ["/usr/bin/hydra".toList, "-I".toList, "-t".toList, "4".toList, "-T".toList, "8".toList,
    "-w".toList, "10".toList, "-o".toList, outfile, "-b".toList, "json".toList, "-L".toList,
    paths.loginFile, "-P".toList, paths.passwdFile, "-f".toList] ++
  hostsArgs task paths ++
  service :: if task.opts.text.isEmpty then [] else [task.opts.text]

/-! ### The room in the buffer -/

/-- The rest of the buffer. -/
def CmdParams.left (capacity : ℕ) (s : CmdParams) : ℕ := capacity - s.buf.length

/-- The rest of the buffer after a text, if it fits. -/
def roomStep (left : ℕ) (text : Text) : Option ℕ :=
  if 0 < text.length ∧ text.length < left then some (left - (text.length + 1)) else none

/-- The room that these texts take. -/
def cmdRoom (texts : List Text) : ℕ := (texts.map fun t => t.length + 1).sum

theorem cmdRoom_append (texts texts' : List Text) :
    cmdRoom (texts ++ texts') = cmdRoom texts + cmdRoom texts' := by
  rw [cmdRoom, List.map_append, List.sum_append]
  rfl

/-- The texts that are printed for these arguments. -/
def printedTexts (items : List CmdItem) : List Text :=
  items.filterMap fun
    | .text t => some t
    | _ => none

/-- The texts that are printed for the hosts. -/
def hostsTexts (task : ListHydraTask) (paths : HydraPaths) : List Text :=
  match task.hostsType with
  | .ipList => ["-M".toList, paths.ipListFile]
  | .ipBlock => ["-s".toList, task.hosts.text]

theorem cmdTexts_eq (task : ListHydraTask) (paths : HydraPaths) :
    cmdTexts task paths =
      printedTexts (cmdHead paths) ++ hostsTexts task paths ++ printedTexts (cmdTail task) := by
  unfold cmdTexts cmdTail hostsTexts
  cases task.hostsType <;> cases task.opts.text.isEmpty <;> rfl

section Room

variable {capacity : ℕ} {s : CmdParams} {param : Option CmdParam}

@[simp] theorem CmdParams.left_assign {i : ℕ} : (s.assign i param).left capacity = s.left capacity :=
  rfl

@[simp] theorem CmdParams.left_push : (s.push param).left capacity = s.left capacity := rfl

@[simp] theorem CmdParams.left_pushNext : (s.pushNext param).left capacity = s.left capacity := rfl

theorem CmdParams.left_print (capacity : ℕ) (s : CmdParams) (text : Text) :
    (s.print capacity text).map (left capacity) = roomStep (s.left capacity) text := by
  unfold CmdParams.print roomStep
  split
  · rw [if_pos (by assumption)]
    simp only [CmdParams.left, Option.map_some, Option.some.injEq, List.length_append,
      List.length_singleton]
    omega
  · rw [if_neg (by assumption)]
    rfl

theorem CmdParams.left_pushText (capacity : ℕ) (s : CmdParams) (text : Text) :
    (s.pushText capacity text).map (left capacity) = roomStep (s.left capacity) text := by
  rw [← CmdParams.left_print, CmdParams.pushText, Option.map_map]
  rfl

/-- Printing the arguments takes the room of their texts. -/
theorem left_foldlM_add (capacity : ℕ) (s : CmdParams) (items : List CmdItem) :
    (items.foldlM (CmdParams.add capacity) s).map (CmdParams.left capacity) =
      (printedTexts items).foldlM roomStep (s.left capacity) := by
  induction items generalizing s with
  | nil => rfl
  | cons item items ih =>
    cases item with
    | text t =>
      have hroom := CmdParams.left_pushText capacity s t
      simp only [List.foldlM_cons, CmdParams.add, printedTexts, List.filterMap_cons]
      rw [← hroom]
      cases s.pushText capacity t with
      | none => rfl
      | some pushed => exact ih pushed
    | outfile => exact ih _
    | service => exact ih _

/-- The branch for a block takes the room of its option and of the block. -/
theorem left_addIpBlock (capacity : ℕ) (s : CmdParams) (hosts : Text) :
    (addIpBlock capacity hosts s).map (CmdParams.left capacity) =
      ["-s".toList, hosts].foldlM roomStep (s.left capacity) := by
  have hopt := CmdParams.left_print capacity s "-s".toList
  unfold addIpBlock
  rw [List.foldlM_cons, ← hopt]
  cases s.print capacity "-s".toList with
  | none => rfl
  | some printed =>
    have hblock := CmdParams.left_print capacity
      (printed.pushNext (some (.buffer s.buf.length))) hosts
    rw [CmdParams.left_pushNext] at hblock
    simp only [Option.map_some, List.foldlM_cons, List.foldlM_nil, Option.bind_eq_bind,
      Option.bind_some]
    rw [← hblock]
    cases CmdParams.print capacity _ hosts with
    | none => rfl
    | some block =>
      by_cases hcolon : ':' ∈ hosts
      · simp [hcolon, CmdParams.left, CmdParams.pushNext, CmdParams.assign]
      · simp [hcolon]

theorem left_addHosts (capacity : ℕ) (s : CmdParams) (task : ListHydraTask) (paths : HydraPaths) :
    (addHosts capacity task paths s).map (CmdParams.left capacity) =
      (hostsTexts task paths).foldlM roomStep (s.left capacity) := by
  unfold addHosts hostsTexts
  cases task.hostsType with
  | ipList => exact left_foldlM_add _ _ _
  | ipBlock => exact left_addIpBlock _ _ _

end Room

/-- The array is filled exactly when `genCmdParams` returns 0. -/
theorem fillCmdParams_isSome (capacity : ℕ) (task : ListHydraTask) (paths : HydraPaths) :
    (fillCmdParams capacity task paths).isSome = genCmdParams capacity task paths := by
  unfold fillCmdParams genCmdParams
  generalize leftOf capacity = left
  have hhead := left_foldlM_add left {} (cmdHead paths)
  have hempty : CmdParams.left left {} = left := rfl
  rw [hempty] at hhead
  change _ = ((cmdTexts task paths).foldlM roomStep left).isSome
  rw [cmdTexts_eq, List.foldlM_append, List.foldlM_append, ← hhead]
  cases (cmdHead paths).foldlM (CmdParams.add left) {} with
  | none => rfl
  | some s =>
    have hhosts := left_addHosts left s task paths
    simp only [Option.map_some, Option.bind_eq_bind, Option.bind_some]
    rw [← hhosts]
    cases addHosts left task paths s with
    | none => rfl
    | some s =>
      have hrest := left_foldlM_add left s (cmdTail task)
      simp only [Option.map_some, Option.bind_some]
      rw [← hrest]
      cases (cmdTail task).foldlM (CmdParams.add left) s <;> rfl

/-! ### The entries and their strings -/

/-- The entry points to this string, whatever is printed behind the used part of the buffer. -/
def CmdParam.Points (service outfile buf : Text) : CmdParam → Text → Prop
  | .buffer offset, t => '\x00' ∉ t ∧ ∃ rest, buf.drop offset = t ++ '\x00' :: rest
  | .outfile, t => t = outfile
  | .service, t => t = service

/-- The array has entries for these strings, and only NULL behind them. -/
structure CmdParams.Holds (service outfile : Text) (s : CmdParams) (texts : List Text) : Prop where
  filled : ∃ args : List CmdParam, s.cnt = args.length ∧
    s.params = args.map some ++ List.replicate (maxCmdParamSize - args.length) none ∧
    List.Forall₂ (CmdParam.Points service outfile s.buf) args texts

section Strings

variable {service outfile buf : Text} {param : CmdParam} {t : Text} {texts : List Text}
  {s : CmdParams} {capacity : ℕ}

theorem CmdParam.Points.string_eq (h : param.Points service outfile buf t) :
    param.string service outfile buf = t := by
  cases param with
  | buffer offset =>
    obtain ⟨hnul, rest, hdrop⟩ := h
    have hne : ∀ c ∈ t, (c != '\x00') = true := by
      intro c hc
      have : c ≠ '\x00' := fun heq => hnul (heq ▸ hc)
      simpa using this
    rw [CmdParam.string, hdrop, cstring, List.takeWhile_append_of_pos hne]
    simp
  | outfile => exact h.symm
  | service => exact h.symm

theorem CmdParam.Points.append (h : param.Points service outfile buf t) (chunk : Text) :
    param.Points service outfile (buf ++ chunk) t := by
  cases param with
  | buffer offset =>
    obtain ⟨hnul, rest, hdrop⟩ := h
    have hle : offset ≤ buf.length := by
      by_contra hlt
      rw [List.drop_of_length_le (by omega)] at hdrop
      simp at hdrop
    refine ⟨hnul, rest ++ chunk, ?_⟩
    rw [List.drop_append_of_le_length hle, hdrop]
    simp
  | outfile => exact h
  | service => exact h

/-- The text behind the old buffer. -/
theorem points_buffer (service outfile buf rest : Text) (hnul : '\x00' ∉ t) :
    (CmdParam.buffer buf.length).Points service outfile (buf ++ (t ++ '\x00' :: rest)) t := by
  refine ⟨hnul, rest, ?_⟩
  rw [List.drop_left]

theorem entries_map_some (args : List CmdParam) (rest : List (Option CmdParam)) :
    entries (args.map some ++ none :: rest) = args := by
  induction args with
  | nil => rfl
  | cons param args ih => simp [entries, ih]

theorem map_string_eq {args : List CmdParam}
    (h : List.Forall₂ (CmdParam.Points service outfile buf) args texts) :
    args.map (CmdParam.string service outfile buf) = texts := by
  induction h with
  | nil => rfl
  | cons hpoints _ ih => rw [List.map_cons, hpoints.string_eq, ih]

namespace CmdParams

/-- Before the first argument. -/
theorem holds_empty : Holds service outfile {} [] := ⟨[], rfl, rfl, .nil⟩

/-- When the array is closed, the strings are those that the new process gets. -/
theorem Holds.argv_push_none (h : s.Holds service outfile texts)
    (hroom : texts.length < maxCmdParamSize) : (s.push none).argv service outfile = texts := by
  obtain ⟨args, hcnt, hparams, hpoints⟩ := h.filled
  have hlength := hpoints.length_eq
  obtain ⟨n, hn⟩ : ∃ n, maxCmdParamSize - args.length = n + 1 :=
    ⟨maxCmdParamSize - args.length - 1, by omega⟩
  have hclosed : (s.push none).params = args.map some ++ none :: List.replicate n none := by
    simp [CmdParams.push, assign, hparams, hcnt, hn, List.replicate_succ, List.set_append_right]
  rw [argv, hclosed, entries_map_some]
  exact map_string_eq hpoints

/-- More text in the buffer changes no string. -/
theorem Holds.append (h : s.Holds service outfile texts) (chunk : Text) :
    Holds service outfile { s with buf := s.buf ++ chunk } texts := by
  obtain ⟨args, hcnt, hparams, hpoints⟩ := h.filled
  exact ⟨args, hcnt, hparams, hpoints.imp fun _ _ hpoint => hpoint.append chunk⟩

/-- One more entry. -/
theorem Holds.push (h : s.Holds service outfile texts)
    (hpoint : param.Points service outfile s.buf t) (hroom : texts.length < maxCmdParamSize) :
    (s.push (some param)).Holds service outfile (texts ++ [t]) := by
  obtain ⟨args, hcnt, hparams, hpoints⟩ := h.filled
  have hlength := hpoints.length_eq
  refine ⟨args ++ [param], ?_, ?_, ?_⟩
  · simp [CmdParams.push, hcnt]
  · obtain ⟨n, hn⟩ : ∃ n, maxCmdParamSize - args.length = n + 1 :=
      ⟨maxCmdParamSize - args.length - 1, by omega⟩
    have hrest : maxCmdParamSize - (args.length + 1) = n := by omega
    simp only [CmdParams.push, assign, hparams, hcnt, hn, List.replicate_succ, List.map_append,
      List.map_cons, List.map_nil, List.length_append, List.length_singleton, hrest]
    rw [List.set_append_right _ _ (by simp)]
    simp
  · exact List.rel_append hpoints (.cons hpoint .nil)

/-- A text that fits becomes the next string. -/
theorem Holds.pushText (h : s.Holds service outfile texts) (hne : 0 < t.length)
    (hnul : '\x00' ∉ t) (hfit : t.length < capacity - s.buf.length)
    (hroom : texts.length < maxCmdParamSize) :
    ∃ pushed, s.pushText capacity t = some pushed ∧
      pushed.Holds service outfile (texts ++ [t]) ∧
      pushed.left capacity = s.left capacity - (t.length + 1) := by
  have hprint : s.print capacity t = some { s with buf := s.buf ++ (t ++ ['\x00']) } :=
    if_pos ⟨hne, hfit⟩
  refine ⟨_, by rw [CmdParams.pushText, hprint, Option.map_some],
    (h.append (t ++ ['\x00'])).push (points_buffer _ _ _ _ hnul) hroom, ?_⟩
  change capacity - (s.buf ++ (t ++ ['\x00'])).length = capacity - s.buf.length - (t.length + 1)
  rw [List.length_append, List.length_append, List.length_singleton]
  omega

/-- Arguments that fit become the next strings. -/
theorem Holds.foldlM_add {items : List CmdItem} (h : s.Holds service outfile texts)
    (hprintable : ∀ t ∈ printedTexts items, 0 < t.length ∧ '\x00' ∉ t)
    (hfit : cmdRoom (printedTexts items) ≤ s.left capacity)
    (hroom : texts.length + items.length ≤ maxCmdParamSize) :
    ∃ added, items.foldlM (add capacity) s = some added ∧
      added.Holds service outfile (texts ++ items.map (CmdItem.string service outfile)) ∧
      added.left capacity = s.left capacity - cmdRoom (printedTexts items) := by
  induction items generalizing s texts with
  | nil => exact ⟨s, rfl, by simpa using h, by simp [cmdRoom, printedTexts]⟩
  | cons item items ih =>
    rw [List.length_cons] at hroom
    have hlt : texts.length < maxCmdParamSize := by omega
    -- the next argument, and then the others
    have hstep : ∃ next, s.add capacity item = some next ∧
        next.Holds service outfile (texts ++ [item.string service outfile]) ∧
        next.left capacity = s.left capacity - cmdRoom (printedTexts [item]) := by
      cases item with
      | text t =>
        obtain ⟨hne, hnul⟩ := hprintable t (by simp [printedTexts])
        have hsum : cmdRoom (printedTexts (.text t :: items)) =
            t.length + 1 + cmdRoom (printedTexts items) := by simp [cmdRoom, printedTexts]
        have hbytes : t.length < capacity - s.buf.length := by
          unfold CmdParams.left at hfit
          omega
        obtain ⟨pushed, hpushed, hholds, hleft⟩ := h.pushText hne hnul hbytes hlt
        exact ⟨pushed, hpushed, hholds, by simpa [cmdRoom, printedTexts] using hleft⟩
      | outfile => exact ⟨_, rfl, h.push rfl hlt, rfl⟩
      | service => exact ⟨_, rfl, h.push rfl hlt, rfl⟩
    obtain ⟨next, hnext, hholds, hleft⟩ := hstep
    have hsum : cmdRoom (printedTexts (item :: items)) =
        cmdRoom (printedTexts [item]) + cmdRoom (printedTexts items) := by
      cases item <;> simp [cmdRoom, printedTexts]
    have hmem : ∀ t ∈ printedTexts items, t ∈ printedTexts (item :: items) := by
      intro t ht
      cases item <;> simp_all [printedTexts]
    obtain ⟨added, hadded, hall, hrest⟩ := ih hholds (fun t ht => hprintable t (hmem t ht))
      (by omega) (by rw [List.length_append, List.length_singleton]; omega)
    refine ⟨added, ?_, by simpa using hall, by omega⟩
    rw [List.foldlM_cons, hnext]
    exact hadded

theorem print_eq (hne : 0 < t.length) (hfit : t.length + 1 ≤ s.left capacity) :
    s.print capacity t = some { s with buf := s.buf ++ (t ++ ['\x00']) } := by
  refine if_pos ⟨hne, ?_⟩
  unfold CmdParams.left at hfit
  omega

section Block

variable {hosts : Text} (hne : 0 < hosts.length)
  (hfit : cmdRoom ["-s".toList, hosts] ≤ s.left capacity)

include hne hfit

/-- The texts of the branch for a block fit. -/
theorem addIpBlock_prints :
    s.print capacity "-s".toList = some { s with buf := s.buf ++ "-s\x00".toList } ∧
      CmdParams.print capacity
          (pushNext { s with buf := s.buf ++ "-s\x00".toList } (some (.buffer s.buf.length)))
          hosts =
        some { pushNext { s with buf := s.buf ++ "-s\x00".toList }
            (some (.buffer s.buf.length)) with
          buf := s.buf ++ "-s\x00".toList ++ (hosts ++ ['\x00']) } := by
  have hbytes : cmdRoom ["-s".toList, hosts] = 3 + (hosts.length + 1) := by simp [cmdRoom]
  have hbuf : (s.buf ++ "-s\x00".toList).length = s.buf.length + 3 := by simp
  constructor
  · exact print_eq (by decide) (by change 3 ≤ _; omega)
  · apply print_eq hne
    rw [left_pushNext, CmdParams.left, hbuf]
    unfold CmdParams.left at hfit
    omega

/-- Without a port the block goes in front of the entry of the option. -/
theorem addIpBlock_of_notMem (hcolon : ':' ∉ hosts) :
    addIpBlock capacity hosts s = some
      { params := (s.params.set (s.cnt + 1) (some (.buffer s.buf.length))).set s.cnt
          (some (.buffer (s.buf ++ "-s\x00".toList).length))
        cnt := s.cnt + 1
        buf := s.buf ++ "-s\x00".toList ++ (hosts ++ ['\x00']) } := by
  obtain ⟨hopt, hprint⟩ := addIpBlock_prints hne hfit
  unfold addIpBlock
  rw [hopt, Option.bind_eq_bind, Option.bind_some]
  dsimp only
  rw [hprint, Option.bind_some, if_neg hcolon]
  rfl

/-- With a port three entries are written behind a skipped one. -/
theorem addIpBlock_of_mem (hcolon : ':' ∈ hosts) :
    ∃ port block buf, addIpBlock capacity hosts s = some
      { params := ((s.params.set (s.cnt + 1) (some (.buffer s.buf.length))).set (s.cnt + 2)
          port).set (s.cnt + 3) block
        cnt := s.cnt + 3
        buf := buf } := by
  obtain ⟨hopt, hprint⟩ := addIpBlock_prints hne hfit
  unfold addIpBlock
  rw [hopt, Option.bind_eq_bind, Option.bind_some]
  dsimp only
  rw [hprint, Option.bind_some, if_pos hcolon]
  exact ⟨_, _, _, rfl⟩

end Block

/-- Without a port the entry of the option is overwritten by the service. -/
theorem Holds.push_block {hosts : Text} (h : s.Holds service outfile texts) (hne : 0 < hosts.length)
    (hnul : '\x00' ∉ hosts) (hcolon : ':' ∉ hosts)
    (hfit : cmdRoom ["-s".toList, hosts] ≤ s.left capacity)
    (hroom : texts.length + 2 ≤ maxCmdParamSize) :
    ∃ block, addIpBlock capacity hosts s = some block ∧
      (block.push (some .service)).Holds service outfile (texts ++ [hosts, service]) ∧
      block.left capacity = s.left capacity - cmdRoom ["-s".toList, hosts] := by
  obtain ⟨args, hcnt, hparams, hpoints⟩ := h.filled
  have hlength := hpoints.length_eq
  obtain ⟨n, hn⟩ : ∃ n, maxCmdParamSize - args.length = n + 2 :=
    ⟨maxCmdParamSize - args.length - 2, by omega⟩
  have hrest : maxCmdParamSize - (args.length + 2) = n := by omega
  refine ⟨_, addIpBlock_of_notMem hne hfit hcolon,
    ⟨args ++ [.buffer (s.buf ++ "-s\x00".toList).length, .service], ?_, ?_, ?_⟩, ?_⟩
  · simp [CmdParams.push, hcnt]
  · simp only [CmdParams.push, assign, hparams, hcnt, hn, List.replicate_succ, List.map_append,
      List.map_cons, List.map_nil, List.length_append, List.length_cons, List.length_nil, hrest]
    simp [List.set_append_right]
  · have hblock := points_buffer service outfile (s.buf ++ "-s\x00".toList) [] hnul
    refine List.rel_append (hpoints.imp fun _ _ hpoint => ?_) (.cons hblock (.cons rfl .nil))
    exact (hpoint.append _).append _
  · simp only [CmdParams.left, cmdRoom, List.length_append, List.map_cons, List.map_nil,
      List.sum_cons, List.sum_nil, List.length_singleton]
    change _ - (_ + 3 + _) = _ - _ - (2 + 1 + _)
    omega

/-! ### A skipped entry -/

/-- The entry behind these is NULL, and the next one is written behind it. -/
structure Skips (s : CmdParams) (args : List CmdParam) : Prop where
  skipped : ∃ rest, s.params = args.map some ++ none :: rest
  behind : args.length < s.cnt

variable {args : List CmdParam}

theorem set_skipped (args : List CmdParam) (rest : List (Option CmdParam)) {i : ℕ}
    (hi : args.length < i) (param : Option CmdParam) :
    ∃ rest', (args.map some ++ none :: rest).set i param = args.map some ++ none :: rest' := by
  obtain ⟨k, rfl⟩ : ∃ k, i = args.length + (k + 1) := ⟨i - args.length - 1, by omega⟩
  refine ⟨rest.set k param, ?_⟩
  rw [List.set_append_right _ _ (by rw [List.length_map]; omega), List.length_map,
    Nat.add_sub_cancel_left, List.set_cons_succ]

theorem Skips.push (h : s.Skips args) (param : Option CmdParam) : (s.push param).Skips args := by
  obtain ⟨rest, hparams⟩ := h.skipped
  obtain ⟨rest', hset⟩ := set_skipped args rest h.behind param
  refine ⟨⟨rest', ?_⟩, Nat.lt_succ_of_lt h.behind⟩
  rw [← hset, ← hparams]
  rfl

theorem Skips.addItem {item : CmdItem} {added : CmdParams} (h : s.Skips args)
    (hadd : s.add capacity item = some added) : added.Skips args := by
  cases item with
  | text t =>
    obtain ⟨printed, hprinted, rfl⟩ := Option.map_eq_some_iff.mp hadd
    unfold print at hprinted
    split at hprinted
    · obtain rfl := Option.some.inj hprinted
      have hprinted : Skips { s with buf := s.buf ++ (t ++ ['\x00']) } args :=
        ⟨h.skipped, h.behind⟩
      exact hprinted.push _
    · exact absurd hprinted (by simp)
  | outfile => exact Option.some.inj hadd ▸ h.push _
  | service => exact Option.some.inj hadd ▸ h.push _

theorem Skips.foldlM_add {items : List CmdItem} {added : CmdParams} (h : s.Skips args)
    (hadd : items.foldlM (add capacity) s = some added) : added.Skips args := by
  induction items generalizing s with
  | nil => exact Option.some.inj hadd ▸ h
  | cons item items ih =>
    rw [List.foldlM_cons] at hadd
    obtain ⟨next, hnext, hadd⟩ := Option.bind_eq_some_iff.mp hadd
    exact ih (h.addItem hnext) hadd

/-- The new process gets nothing behind a skipped entry. -/
theorem Skips.length_argv (h : s.Skips args) : (s.argv service outfile).length = args.length := by
  obtain ⟨rest, hparams⟩ := h.skipped
  rw [argv, List.length_map, hparams, entries_map_some]

/-- With a port the entry in front of the option is skipped. -/
theorem Holds.skips_block {hosts : Text} {block : CmdParams}
    (h : s.Holds service outfile texts) (hne : 0 < hosts.length)
    (hfit : cmdRoom ["-s".toList, hosts] ≤ s.left capacity) (hcolon : ':' ∈ hosts)
    (hroom : texts.length < maxCmdParamSize) (hblock : addIpBlock capacity hosts s = some block) :
    ∃ args : List CmdParam, args.length = texts.length ∧ block.Skips args := by
  obtain ⟨args, hcnt, hparams, hpoints⟩ := h.filled
  have hlength := hpoints.length_eq
  obtain ⟨n, hn⟩ : ∃ n, maxCmdParamSize - args.length = n + 1 :=
    ⟨maxCmdParamSize - args.length - 1, by omega⟩
  obtain ⟨port, start, buf, heq⟩ := addIpBlock_of_mem hne hfit hcolon
  obtain rfl := Option.some.inj (heq.symm.trans hblock)
  rw [hn, List.replicate_succ] at hparams
  obtain ⟨rest, hopt⟩ := set_skipped args (List.replicate n none)
    (show args.length < s.cnt + 1 by omega) (some (.buffer s.buf.length))
  obtain ⟨rest, hport⟩ := set_skipped args rest
    (show args.length < s.cnt + 2 by omega) port
  obtain ⟨rest, hstart⟩ := set_skipped args rest
    (show args.length < s.cnt + 3 by omega) start
  refine ⟨args, hlength, ⟨rest, ?_⟩, by change _ < s.cnt + 3; omega⟩
  rw [← hstart, ← hport, ← hopt, ← hparams]

end CmdParams

end Strings

/-! ### The intended line -/

theorem printable_hydraPaths {taskId : Text} (hid : '\x00' ∉ taskId) :
    ∀ path ∈ (hydraPaths taskId).all, 0 < path.length ∧ '\x00' ∉ path := by
  have hdir : 0 < defHydraPrivDataDir.length ∧ '\x00' ∉ defHydraPrivDataDir := by decide
  intro path hpath
  simp only [HydraPaths.all, hydraPaths, List.mem_cons, List.not_mem_nil, or_false] at hpath
  rcases hpath with rfl | rfl | rfl | rfl | rfl | rfl | rfl | rfl | rfl <;> simp [hdir, hid]

theorem addIpBlock_nil (capacity : ℕ) (s : CmdParams) : addIpBlock capacity [] s = none := by
  unfold addIpBlock
  cases s.print capacity "-s".toList with
  | none => rfl
  | some printed => simp [CmdParams.print]

theorem length_cmdHead (paths : HydraPaths) : (cmdHead paths).length = 17 := rfl

theorem printable_cmdHead {paths : HydraPaths}
    (hlogin : 0 < paths.loginFile.length ∧ '\x00' ∉ paths.loginFile)
    (hpasswd : 0 < paths.passwdFile.length ∧ '\x00' ∉ paths.passwdFile) :
    ∀ t ∈ printedTexts (cmdHead paths), 0 < t.length ∧ '\x00' ∉ t := by
  change ∀ t ∈ ["/usr/bin/hydra".toList, "-I".toList, "-t".toList, "4".toList, "-T".toList,
    "8".toList, "-w".toList, "10".toList, "-o".toList, "-b".toList, "json".toList,
    "-L".toList, paths.loginFile, "-P".toList, paths.passwdFile, "-f".toList], _
  simp only [List.forall_mem_cons, List.not_mem_nil, false_implies, implies_true, and_true]
  exact ⟨by decide, by decide, by decide, by decide, by decide, by decide, by decide, by decide,
    by decide, by decide, by decide, by decide, hlogin, by decide, hpasswd, by decide⟩

theorem printable_cmdTail (task : ListHydraTask) :
    ∀ t ∈ printedTexts (cmdTail task), 0 < t.length ∧ '\x00' ∉ t := by
  unfold cmdTail
  split
  · simp [printedTexts]
  · rename_i hopts
    have hne : task.opts.text ≠ [] := by simpa using hopts
    simpa [printedTexts, List.length_pos_iff] using ⟨hne, task.opts.nulFree⟩

theorem length_cmdTail (task : ListHydraTask) : (cmdTail task).length ≤ 2 := by
  unfold cmdTail
  split <;> simp

section Line

variable {capacity : ℕ} {task : ListHydraTask} {service outfile : Text}

/-- The arguments up to `-f` fit in front of the hosts. -/
theorem holds_cmdHead (service outfile : Text)
    (hfit : cmdRoom (cmdTexts task (hydraPaths task.taskId.text)) ≤ capacity) :
    ∃ s, (cmdHead (hydraPaths task.taskId.text)).foldlM (CmdParams.add capacity) {} = some s ∧
      s.Holds service outfile
        ((cmdHead (hydraPaths task.taskId.text)).map (CmdItem.string service outfile)) ∧
      cmdRoom (hostsTexts task (hydraPaths task.taskId.text)) +
        cmdRoom (printedTexts (cmdTail task)) ≤ s.left capacity := by
  have hpaths := printable_hydraPaths task.taskId.nulFree
  rw [cmdTexts_eq, cmdRoom_append, cmdRoom_append] at hfit
  have hlogin := hpaths (hydraPaths task.taskId.text).loginFile (by simp [HydraPaths.all])
  have hpasswd := hpaths (hydraPaths task.taskId.text).passwdFile (by simp [HydraPaths.all])
  have hprintable := printable_cmdHead hlogin hpasswd
  have hempty : CmdParams.left capacity {} = capacity := rfl
  obtain ⟨s, hs, hholds, hleft⟩ := CmdParams.holds_empty.foldlM_add hprintable
    (by rw [hempty]; omega) (by rw [length_cmdHead]; decide)
  exact ⟨s, hs, hholds, by omega⟩

/-- The array is closed behind the last argument. -/
theorem argv_of_holds {s : CmdParams} {texts : List Text} {items : List CmdItem}
    (h : s.Holds service outfile texts)
    (hprintable : ∀ t ∈ printedTexts items, 0 < t.length ∧ '\x00' ∉ t)
    (hfit : cmdRoom (printedTexts items) ≤ s.left capacity)
    (hroom : texts.length + items.length < maxCmdParamSize) :
    ∃ added, items.foldlM (CmdParams.add capacity) s = some added ∧
      (added.push none).argv service outfile =
        texts ++ items.map (CmdItem.string service outfile) := by
  obtain ⟨added, hadded, hholds, -⟩ := h.foldlM_add hprintable hfit (by omega)
  exact ⟨added, hadded, hholds.argv_push_none (by simpa using hroom)⟩

theorem fillCmdParams_of_parts {paths : HydraPaths} {s t u : CmdParams}
    (hs : (cmdHead paths).foldlM (CmdParams.add (leftOf capacity)) {} = some s)
    (ht : addHosts (leftOf capacity) task paths s = some t)
    (hu : (cmdTail task).foldlM (CmdParams.add (leftOf capacity)) t = some u) :
    fillCmdParams capacity task paths = some (u.push none) := by
  simp only [fillCmdParams, hs, Option.bind_eq_bind, Option.bind_some, ht, hu]

theorem hydraCmdLine_eq (task : ListHydraTask) (paths : HydraPaths) (service outfile : Text) :
    hydraCmdLine task paths service outfile =
      (cmdHead paths).map (CmdItem.string service outfile) ++ hostsArgs task paths ++
        (cmdTail task).map (CmdItem.string service outfile) := by
  unfold hydraCmdLine cmdTail
  cases task.opts.text.isEmpty <;> rfl

/-- A list of hosts gives the intended line. -/
theorem argv_ipList (hfit : cmdRoom (cmdTexts task (hydraPaths task.taskId.text)) ≤ leftOf capacity)
    (htype : task.hostsType = .ipList) :
    (fillCmdParams capacity task (hydraPaths task.taskId.text)).map
        (CmdParams.argv service outfile) =
      some (hydraCmdLine task (hydraPaths task.taskId.text) service outfile) := by
  let paths := hydraPaths task.taskId.text
  obtain ⟨s, hs, hholds, hleft⟩ := holds_cmdHead service outfile hfit
  have hfile := printable_hydraPaths task.taskId.nulFree paths.ipListFile
    (by simp [HydraPaths.all, paths])
  have hprintable : ∀ t ∈ printedTexts [.text "-M".toList, .text paths.ipListFile],
      0 < t.length ∧ '\x00' ∉ t := by
    change ∀ t ∈ ["-M".toList, paths.ipListFile], _
    simp only [List.forall_mem_cons, List.not_mem_nil, false_implies, implies_true, and_true]
    exact ⟨by decide, hfile⟩
  have htexts : hostsTexts task paths =
      printedTexts [.text "-M".toList, .text paths.ipListFile] := by
    rw [hostsTexts, htype]
    rfl
  rw [htexts] at hleft
  have hfirst : cmdRoom (printedTexts [.text "-M".toList, .text paths.ipListFile]) ≤
      s.left (leftOf capacity) := by omega
  have htwo : ((cmdHead paths).map (CmdItem.string service outfile)).length +
      [CmdItem.text "-M".toList, .text paths.ipListFile].length ≤ maxCmdParamSize := by
    rw [List.length_map, length_cmdHead]
    simp [maxCmdParamSize]
  obtain ⟨t, ht, hholds, hrest⟩ := hholds.foldlM_add hprintable hfirst htwo
  have htail := length_cmdTail task
  have hlast : cmdRoom (printedTexts (cmdTail task)) ≤ t.left (leftOf capacity) := by omega
  obtain ⟨u, hu, hargv⟩ := argv_of_holds hholds (printable_cmdTail task) hlast (by
    rw [List.length_append, List.length_map, length_cmdHead]
    simp only [List.length_map, List.length_cons, List.length_nil, maxCmdParamSize]
    omega)
  have hhosts : addHosts (leftOf capacity) task paths s = some t := by
    rw [addHosts, htype]
    exact ht
  rw [fillCmdParams_of_parts hs hhosts hu, Option.map_some, hargv, hydraCmdLine_eq, hostsArgs,
    htype]
  rfl

/-- A block without a port gives the intended line. -/
theorem argv_ipBlock (hfit : cmdRoom (cmdTexts task (hydraPaths task.taskId.text)) ≤ leftOf capacity)
    (htype : task.hostsType = .ipBlock) (hne : task.hosts.text ≠ [])
    (hcolon : ':' ∉ task.hosts.text) :
    (fillCmdParams capacity task (hydraPaths task.taskId.text)).map
        (CmdParams.argv service outfile) =
      some (hydraCmdLine task (hydraPaths task.taskId.text) service outfile) := by
  obtain ⟨s, hs, hholds, hleft⟩ := holds_cmdHead service outfile hfit
  have htexts : hostsTexts task (hydraPaths task.taskId.text) =
      ["-s".toList, task.hosts.text] := by rw [hostsTexts, htype]
  rw [htexts] at hleft
  have hfirst : cmdRoom ["-s".toList, task.hosts.text] ≤ s.left (leftOf capacity) := by omega
  obtain ⟨block, hblock, hholds, hrest⟩ := hholds.push_block (List.length_pos_iff.mpr hne)
    task.hosts.nulFree hcolon hfirst (by rw [List.length_map, length_cmdHead]; decide)
  -- the service overwrites the option, and then only the options of the task are left
  obtain ⟨opts, hopts⟩ : ∃ opts, cmdTail task = .service :: opts := ⟨_, rfl⟩
  have hprintable : ∀ t ∈ printedTexts opts, 0 < t.length ∧ '\x00' ∉ t := by
    have hall := printable_cmdTail task
    rwa [hopts] at hall
  have hlength := length_cmdTail task
  rw [hopts] at hleft hlength
  have hlast : cmdRoom (printedTexts opts) ≤ (block.push (some .service)).left (leftOf capacity) := by
    change _ + cmdRoom (printedTexts opts) ≤ s.left (leftOf capacity) at hleft
    rw [CmdParams.left_push, hrest]
    omega
  obtain ⟨u, hu, hargv⟩ := argv_of_holds hholds hprintable hlast (by
    rw [List.length_append, List.length_map, length_cmdHead]
    simp only [List.length_cons, List.length_nil, maxCmdParamSize] at hlength ⊢
    omega)
  have hhosts : addHosts (leftOf capacity) task (hydraPaths task.taskId.text) s = some block := by
    rw [addHosts, htype]
    exact hblock
  have hall : (cmdTail task).foldlM (CmdParams.add (leftOf capacity)) block = some u := by
    rw [hopts, List.foldlM_cons]
    exact hu
  have htake : task.hosts.text.takeWhile (· != ':') = task.hosts.text := by
    refine List.takeWhile_eq_self_iff.mpr fun c hc => ?_
    have : c ≠ ':' := fun heq => hcolon (heq ▸ hc)
    simpa using this
  rw [fillCmdParams_of_parts hs hhosts hall, Option.map_some, hargv, hydraCmdLine_eq, hostsArgs,
    htype, hopts]
  simp [hcolon, htake, CmdItem.string]

/-- With a port the line ends behind `-f`. -/
theorem length_argv_port (service outfile : Text)
    (hfit : cmdRoom (cmdTexts task (hydraPaths task.taskId.text)) ≤ leftOf capacity)
    (htype : task.hostsType = .ipBlock) (hcolon : ':' ∈ task.hosts.text) {filled : CmdParams}
    (hfilled : fillCmdParams capacity task (hydraPaths task.taskId.text) = some filled) :
    (filled.argv service outfile).length = 17 := by
  obtain ⟨s, hs, hholds, hleft⟩ := holds_cmdHead service outfile hfit
  have htexts : hostsTexts task (hydraPaths task.taskId.text) =
      ["-s".toList, task.hosts.text] := by rw [hostsTexts, htype]
  rw [htexts] at hleft
  have hfirst : cmdRoom ["-s".toList, task.hosts.text] ≤ s.left (leftOf capacity) := by omega
  have hne : 0 < task.hosts.text.length := List.length_pos_of_mem hcolon
  simp only [fillCmdParams, hs, Option.bind_eq_bind, Option.bind_some] at hfilled
  obtain ⟨block, hblock, hfilled⟩ := Option.bind_eq_some_iff.mp hfilled
  obtain ⟨u, hu, hfilled⟩ := Option.bind_eq_some_iff.mp hfilled
  obtain rfl := Option.some.inj hfilled
  rw [addHosts, htype] at hblock
  obtain ⟨args, hlength, hskips⟩ := hholds.skips_block hne hfirst hcolon
    (by rw [List.length_map, length_cmdHead]; decide) hblock
  rw [((hskips.foldlM_add hu).push none).length_argv, hlength, List.length_map, length_cmdHead]

/-- An empty block is not printed. -/
theorem fillCmdParams_nil (htype : task.hostsType = .ipBlock) (hnil : task.hosts.text = []) :
    fillCmdParams capacity task (hydraPaths task.taskId.text) = none := by
  unfold fillCmdParams
  cases (cmdHead (hydraPaths task.taskId.text)).foldlM (CmdParams.add (leftOf capacity)) {} with
  | none => rfl
  | some s =>
    rw [Option.bind_eq_bind, Option.bind_some, addHosts, htype]
    dsimp only
    rw [hnil, addIpBlock_nil]
    rfl

/-- With enough room the command line is the intended one exactly for a list of hosts and for a
block without a port. -/
theorem hydraCommand_iff (capacity : ℕ) (task : ListHydraTask) (service outfile : Text)
    (hroom : cmdRoom (cmdTexts task (hydraPaths task.taskId.text)) ≤ intOfSize capacity) :
    (fillCmdParams capacity task (hydraPaths task.taskId.text)).map
        (CmdParams.argv service outfile) =
      some (hydraCmdLine task (hydraPaths task.taskId.text) service outfile) ↔
    task.hostsType = .ipList ∨ task.hosts.text ≠ [] ∧ ':' ∉ task.hosts.text := by
  have hfit : cmdRoom (cmdTexts task (hydraPaths task.taskId.text)) ≤ leftOf capacity := by
    unfold leftOf
    omega
  constructor
  · intro hline
    cases htype : task.hostsType with
    | ipList => exact .inl rfl
    | ipBlock =>
      refine .inr ⟨fun hnil => ?_, fun hcolon => ?_⟩
      · rw [fillCmdParams_nil htype hnil] at hline
        simp at hline
      · obtain ⟨filled, hfilled, hargv⟩ := Option.map_eq_some_iff.mp hline
        have hshort := length_argv_port service outfile hfit htype hcolon
          hfilled
        rw [hargv, hydraCmdLine_eq, List.length_append, List.length_append, List.length_map,
          length_cmdHead, hostsArgs, htype] at hshort
        simp only [hcolon, if_true, List.length_cons, List.length_nil, List.length_map] at hshort
        omega
  · rintro (htype | ⟨hne, hcolon⟩)
    · exact argv_ipList hfit htype
    · cases htype : task.hostsType with
      | ipList => exact argv_ipList hfit htype
      | ipBlock => exact argv_ipBlock hfit htype hne hcolon

end Line

/-- A request to create a task for a block of hosts. -/
def sampleBlockCreate (block : Text) : Text :=
  "audit\x011\x01".toList ++ block ++ "\x01ssh\x01-V\x01users\x01words\x010\x01\x01\x01".toList

/-- The line of a task for a block without a port. -/
theorem hydraCommand_iff_sampleBlockCreate :
    (fillCmdParams maxCacheSize (sampleAccepted (sampleBlockCreate "10.0.0.0/24".toList))
        (hydraPaths (sampleAccepted (sampleBlockCreate "10.0.0.0/24".toList)).taskId.text)).map
      (CmdParams.argv "ssh".toList "out".toList) =
    some (hydraCmdLine (sampleAccepted (sampleBlockCreate "10.0.0.0/24".toList))
      (hydraPaths (sampleAccepted (sampleBlockCreate "10.0.0.0/24".toList)).taskId.text)
      "ssh".toList "out".toList) :=
  (hydraCommand_iff maxCacheSize _ _ _ (by decide +kernel)).mpr
    (.inr ⟨by decide +kernel, by decide +kernel⟩)

/-- The line of a created task for a block with a port is not the intended one. -/
theorem not_hydraCommand_sampleBlockCreate :
    ¬ ∀ task, CreatedHydra task → ∀ capacity service outfile,
      cmdRoom (cmdTexts task (hydraPaths task.taskId.text)) ≤ intOfSize capacity →
      (fillCmdParams capacity task (hydraPaths task.taskId.text)).map
          (CmdParams.argv service outfile) =
        some (hydraCmdLine task (hydraPaths task.taskId.text) service outfile) := by
  intro hclaim
  let t := sampleAccepted (sampleBlockCreate "10.0.0.0/24:2222".toList)
  have ht : CreatedHydra t := createdHydra_sampleAccepted (by decide +kernel) (by decide +kernel)
  have hfit : cmdRoom (cmdTexts t (hydraPaths t.taskId.text)) ≤ leftOf maxCacheSize := by
    decide +kernel
  have hline := hclaim t ht maxCacheSize "ssh".toList "out".toList (by decide +kernel)
  obtain ⟨filled, hfilled, hargv⟩ := Option.map_eq_some_iff.mp hline
  have hshort := length_argv_port "ssh".toList "out".toList hfit (by decide +kernel)
    (by decide +kernel) hfilled
  rw [hargv] at hshort
  exact absurd hshort (by decide +kernel)

end OpenvasTool
