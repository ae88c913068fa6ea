import OpenvasTool.Gvm.Files

/-!
# Writing files through streams

`writeFile` counts what `fwrite` accepted, but a stream may still hold these bytes,
and `fclose` is what brings them to the file. Its result is not looked at. So a
safe write is all or nothing, exactly unless `fclose` loses bytes of a text that
the stream accepted as a whole, or the size of the buffer is more than an `int`
can count.
-/

namespace OpenvasTool

open Posix

/-! ### Streams -/

/-- The outcome of one `fwrite`: how many bytes the stream accepts at most, and whether its error is
set then. -/
structure Fwrite where
  accepted : ℕ
  err : Bool
  deriving DecidableEq, Repr

/-- The outcomes of all calls on one stream. -/
structure Stream where
  /-- `fopen`. -/
  opened : Bool
  /-- The `fwrite` with this number. -/
  fwrite : ℕ → Fwrite
  /-- How many of the accepted bytes are in the file when `fclose` returns. -/
  stored : ℕ

namespace Stream

/-- Each `fwrite` makes progress or sets the error. -/
def Progress (o : Stream) : Prop := ∀ k, 0 < (o.fwrite k).accepted ∨ (o.fwrite k).err = true

/-- From the call with number `k` on, `n` bytes are accepted before an error stops the loop. -/
inductive Accepts (o : Stream) : ℕ → ℕ → Prop
  | done (k : ℕ) : Accepts o k 0
  | last {k n : ℕ} : n ≤ (o.fwrite k).accepted → Accepts o k n
  | more {k n : ℕ} : (o.fwrite k).err = false →
      Accepts o (k + 1) (n - (o.fwrite k).accepted) → Accepts o k n

/-- The loop of `writeFile` and `appendFile`: what the stream accepted, and what is left. There is no
result when the fuel runs out. -/
def fwriteLoop (o : Stream) : ℕ → ℕ → Bool → Text → Text → Option (Text × Text)
  | 0, _, _, _, _ => none
  | fuel + 1, k, ferror, total, left =>
      if 0 < left.length ∧ ferror = false then
        let cnt := (o.fwrite k).accepted
        fwriteLoop o fuel (k + 1) (o.fwrite k).err (total ++ left.take cnt) (left.drop cnt)
      else some (total, left)

/-- The common body of `writeFile` and `appendFile`, where the opened file begins with `start`. The
loop does not begin when `left` is negative. -/
def putFile (o : Stream) (fuel : ℕ) (start buffer path : Text) (files : Files) :
    Option (ℤ × Files) :=
  let left := intOfSize buffer.length
  if o.opened then
    (o.fwriteLoop fuel 0 false [] (buffer.take left.toNat)).map fun r =>
      (if r.2.isEmpty ∧ 0 ≤ left then 0 else -2, files.set path (some (start ++ r.1.take o.stored)))
  else some (-1, files)

/-- `writeFile`: the mode `wb` truncates the file. -/
def writeFile (o : Stream) (fuel : ℕ) (buffer path : Text) (files : Files) : Option (ℤ × Files) :=
  o.putFile fuel [] buffer path files

/-- `appendFile`: the mode `ab` keeps what the file has. -/
def appendFile (o : Stream) (fuel : ℕ) (buffer path : Text) (files : Files) : Option (ℤ × Files) :=
  o.putFile fuel ((files path).getD []) buffer path files

/-- `writeFileSafe`; `rename` is the outcome of the last call. -/
def writeFileSafe (o : Stream) (rename : Bool) (fuel : ℕ) (buffer normalFile tmpFile : Text)
    (files : Files) : Option (ℤ × Files) :=
  (o.writeFile fuel buffer tmpFile files).map fun r =>
    if r.1 = 0 then
      if rename then (0, (r.2.set normalFile (r.2 tmpFile)).set tmpFile none) else (-3, r.2)
    else r

/-! ### The write loop -/

variable {o : Stream}

theorem accepts_iff {k n : ℕ} : o.Accepts k n ↔ n = 0 ∨ n ≤ (o.fwrite k).accepted ∨
    ((o.fwrite k).err = false ∧ o.Accepts (k + 1) (n - (o.fwrite k).accepted)) := by
  constructor
  · intro h
    cases h with
    | done => exact Or.inl rfl
    | last hle => exact Or.inr (Or.inl hle)
    | more herr hrest => exact Or.inr (Or.inr ⟨herr, hrest⟩)
  · rintro (rfl | hle | ⟨herr, hrest⟩)
    · exact Accepts.done k
    · exact Accepts.last hle
    · exact Accepts.more herr hrest

/-- The loop leaves nothing exactly when the stream accepts all bytes, and it loses none. -/
theorem fwriteLoop_spec {fuel k : ℕ} {total left total' left' : Text}
    (h : o.fwriteLoop fuel k false total left = some (total', left')) :
    total' ++ left' = total ++ left ∧ (left' = [] ↔ o.Accepts k left.length) := by
  induction fuel generalizing k total left with
  | zero => simp [fwriteLoop] at h
  | succ fuel ih =>
    rw [fwriteLoop] at h
    by_cases hleft : 0 < left.length
    · rw [if_pos ⟨hleft, rfl⟩] at h
      cases herr : (o.fwrite k).err with
      | false =>
        rw [herr] at h
        obtain ⟨htext, hiff⟩ := ih h
        refine ⟨by rw [htext]; simp, hiff.trans ?_⟩
        rw [List.length_drop]
        constructor
        · exact Accepts.more herr
        · intro hacc
          rcases accepts_iff.mp hacc with hzero | hle | ⟨_, hrest⟩
          · omega
          · rw [Nat.sub_eq_zero_of_le hle]
            exact Accepts.done _
          · exact hrest
      | true =>
        -- the error ends the loop after this call
        rw [herr] at h
        cases fuel with
        | zero => simp [fwriteLoop] at h
        | succ fuel =>
          rw [fwriteLoop, if_neg (by simp), Option.some.injEq, Prod.mk.injEq] at h
          obtain ⟨rfl, rfl⟩ := h
          refine ⟨by simp, ?_⟩
          rw [List.drop_eq_nil_iff]
          constructor
          · exact Accepts.last
          · intro hacc
            rcases accepts_iff.mp hacc with hzero | hle | ⟨hno, _⟩
            · omega
            · exact hle
            · simp [herr] at hno
    · rw [if_neg (fun hcond => hleft hcond.1), Option.some.injEq, Prod.mk.injEq] at h
      obtain ⟨rfl, rfl⟩ := h
      have hnil : left = [] := List.length_eq_zero_iff.mp (Nat.eq_zero_of_not_pos hleft)
      subst hnil
      exact ⟨rfl, iff_of_true rfl (Accepts.done k)⟩

/-- **The write loop ends**, when each `fwrite` makes progress or sets the error. -/
theorem fwriteLoop_isSome (hprog : o.Progress) {fuel k : ℕ} {ferror : Bool} {total left : Text}
    (hfuel : left.length + 1 < fuel) : (o.fwriteLoop fuel k ferror total left).isSome := by
  induction fuel generalizing k ferror total left with
  | zero => omega
  | succ fuel ih =>
    rw [fwriteLoop]
    by_cases hcond : 0 < left.length ∧ ferror = false
    · rw [if_pos hcond]
      rcases hprog k with hpos | herr
      · apply ih
        rw [List.length_drop]
        omega
      · rw [herr]
        cases fuel with
        | zero => omega
        | succ fuel =>
          rw [fwriteLoop, if_neg (by simp)]
          rfl
    · rw [if_neg hcond]
      rfl

/-- Without progress the loop still ends when all bytes are accepted. -/
theorem Accepts.fwriteLoop {k n : ℕ} (h : o.Accepts k n) {total left : Text} (hn : left.length = n) :
    ∃ fuel, (o.fwriteLoop fuel k false total left).isSome := by
  induction h generalizing total left with
  | done k =>
    refine ⟨1, ?_⟩
    rw [Stream.fwriteLoop, if_neg (by omega)]
    rfl
  | @last k n hle =>
    refine ⟨2, ?_⟩
    rw [Stream.fwriteLoop]
    split
    · rw [Stream.fwriteLoop, if_neg (by simp; omega)]
      rfl
    · rfl
  | @more k n herr _ ih =>
    have hrest : ∃ fuel, (o.fwriteLoop fuel (k + 1) false
        (total ++ left.take (o.fwrite k).accepted)
        (left.drop (o.fwrite k).accepted)).isSome := ih (by rw [List.length_drop, hn])
    obtain ⟨fuel, hfuel⟩ := hrest
    refine ⟨fuel + 1, ?_⟩
    rw [Stream.fwriteLoop]
    split
    · rwa [herr]
    · rfl

/-- The bytes of the buffer that the loop writes. -/
theorem length_counted (buffer : Text) :
    (buffer.take (intOfSize buffer.length).toNat).length = (intOfSize buffer.length).toNat := by
  have hle := (intOfSize_bounds buffer.length).1
  rw [List.length_take]
  omega

/-- What the call leaves in the file, and when it returns 0. -/
theorem putFile_spec {fuel : ℕ} {start buffer path : Text} {files : Files} {r : ℤ × Files}
    (h : o.putFile fuel start buffer path files = some r) :
    (r.1 = 0 ↔ o.opened = true ∧ 0 ≤ intOfSize buffer.length ∧
        o.Accepts 0 (intOfSize buffer.length).toNat) ∧
      (r.1 = 0 → r.2 = files.set path
        (some (start ++ (buffer.take (intOfSize buffer.length).toNat).take o.stored))) ∧
      ∀ path' ≠ path, r.2 path' = files path' := by
  unfold putFile at h
  dsimp only at h
  split at h
  · rename_i hopen
    obtain ⟨⟨total, left⟩, hloop, rfl⟩ := Option.map_eq_some_iff.mp h
    obtain ⟨htext, hiff⟩ := fwriteLoop_spec hloop
    refine ⟨?_, fun hzero => ?_, fun path' hne => by simp [Files.set, hne]⟩
    · by_cases hcounted : 0 ≤ intOfSize buffer.length
      · rw [length_counted buffer] at hiff
        rw [← hiff]
        cases left <;> simp [hopen, hcounted]
      · simp [hcounted]
    · have hleft : left = [] := by
        cases left with
        | nil => rfl
        | cons c cs => simp at hzero
      subst hleft
      rw [List.append_nil, List.nil_append] at htext
      rw [htext]
  · rename_i hopen
    obtain rfl := Option.some.inj h
    exact ⟨by simp [hopen], by simp, fun _ _ => rfl⟩

/-- The size of most buffers is an `int`. -/
theorem putFile_spec_of_lt {fuel : ℕ} {start buffer path : Text} {files : Files} {r : ℤ × Files}
    (hsize : buffer.length < 2 ^ 31) (h : o.putFile fuel start buffer path files = some r) :
    (r.1 = 0 ↔ o.opened = true ∧ o.Accepts 0 buffer.length) ∧
      (r.1 = 0 → r.2 = files.set path (some (start ++ buffer.take o.stored))) ∧
      ∀ path' ≠ path, r.2 path' = files path' := by
  obtain ⟨hzero, hfiles, hother⟩ := putFile_spec h
  rw [intOfSize_of_lt hsize, Int.toNat_natCast] at hzero hfiles
  rw [List.take_length] at hfiles
  refine ⟨?_, hfiles, hother⟩
  rw [hzero]
  simp

theorem putFile_isSome (hprog : o.Progress) {fuel : ℕ} {start buffer path : Text} {files : Files}
    (hfuel : buffer.length + 1 < fuel) : (o.putFile fuel start buffer path files).isSome := by
  have hle := List.length_take_le' (intOfSize buffer.length).toNat buffer
  unfold putFile
  dsimp only
  split
  · rw [Option.isSome_map]
    exact fwriteLoop_isSome hprog (by omega)
  · rfl

end Stream

/-! ### Safe writes -/

/-- A safe write replaces the file by the buffer and returns 0, or it leaves the file alone. -/
structure AllOrNothing (buffer normalFile : Text) (files : Files) (r : ℤ × Files) : Prop where
  written : r.1 = 0 → r.2 normalFile = some buffer
  kept : r.1 ≠ 0 → r.2 normalFile = files normalFile

section SafeWrites

variable {o : Stream} {rename : Bool} {fuel : ℕ} {buffer normalFile tmpFile : Text} {files : Files}
  {r : ℤ × Files}

/-- When `writeFileSafe` returns 0, and what the file holds then and otherwise. -/
theorem Stream.writeFileSafe_spec (hne : normalFile ≠ tmpFile)
    (h : o.writeFileSafe rename fuel buffer normalFile tmpFile files = some r) :
    (r.1 = 0 ↔ o.opened = true ∧ (0 ≤ intOfSize buffer.length ∧
        o.Accepts 0 (intOfSize buffer.length).toNat) ∧ rename = true) ∧
      (r.1 = 0 → r.2 = (files.set tmpFile none).set normalFile
        (some ((buffer.take (intOfSize buffer.length).toNat).take o.stored))) ∧
      (r.1 ≠ 0 → r.2 normalFile = files normalFile) := by
  obtain ⟨w, hw, hr⟩ := Option.map_eq_some_iff.mp h
  obtain ⟨hzero, hfiles, hother⟩ := Stream.putFile_spec hw
  by_cases hcode : w.1 = 0
  · rw [if_pos hcode] at hr
    have hacc := hzero.mp hcode
    have hset := hfiles hcode
    rw [List.nil_append] at hset
    cases hrename : rename with
    | false =>
      rw [hrename, if_neg (by simp)] at hr
      subst hr
      refine ⟨by simp, by simp, fun _ => ?_⟩
      exact hother normalFile hne
    | true =>
      rw [hrename, if_pos rfl] at hr
      subst hr
      refine ⟨by simp [hacc], fun _ => ?_, by simp⟩
      rw [hset]
      funext path
      by_cases hnormal : path = normalFile
      · subst hnormal
        simp [Files.set, hne]
      · by_cases htmp : path = tmpFile
        · subst htmp
          simp [Files.set, hnormal]
        · simp [Files.set, hnormal, htmp]
  · rw [if_neg hcode] at hr
    subst hr
    refine ⟨iff_of_false hcode fun hall => hcode (hzero.mpr ⟨hall.1, hall.2.1.1, hall.2.1.2⟩),
      fun h0 => absurd h0 hcode, fun _ => hother normalFile hne⟩

/-- The daemon's view of a safe write: one of the outcomes of `Env.writeFileSafe`, when no byte is
lost by `fclose`. -/
theorem Stream.writeFileSafe_outcome (hsize : buffer.length < 2 ^ 31)
    (hstored : buffer.length ≤ o.stored)
    (h : o.writeFileSafe rename fuel buffer normalFile tmpFile files = some r) :
    ∃ outcome, ∀ env : Env, env.write normalFile = outcome →
      r.1 = (env.writeFileSafe buffer normalFile tmpFile files).1 ∧
        ∀ path ≠ tmpFile, r.2 path = (env.writeFileSafe buffer normalFile tmpFile files).2 path := by
  obtain ⟨w, hw, hr⟩ := Option.map_eq_some_iff.mp h
  obtain ⟨hzero, hfiles, hother⟩ := Stream.putFile_spec_of_lt hsize hw
  by_cases hcode : w.1 = 0
  · have hset := hfiles hcode
    rw [List.nil_append, List.take_of_length_le hstored] at hset
    rw [if_pos hcode] at hr
    cases rename with
    | true =>
      obtain rfl := hr
      refine ⟨.ok, fun env henv => ?_⟩
      rw [Env.writeFileSafe, henv]
      refine ⟨rfl, fun path hpath => ?_⟩
      simp [hset, Files.set, Function.update_apply, hpath]
    | false =>
      obtain rfl := hr
      refine ⟨.renameErr, fun env henv => ?_⟩
      rw [Env.writeFileSafe, henv]
      exact ⟨rfl, fun path hpath => by simp [Files.set, hpath, hother path hpath]⟩
  · rw [if_neg hcode] at hr
    subst hr
    unfold Stream.writeFile Stream.putFile at hw
    split at hw
    · obtain ⟨⟨total, left⟩, -, rfl⟩ := Option.map_eq_some_iff.mp hw
      have hminus : (if left.isEmpty ∧ 0 ≤ intOfSize buffer.length then 0 else -2 : ℤ) = -2 := by
        split
        · rename_i hempty
          simp [hempty] at hcode
        · rfl
      refine ⟨.writeErr [], fun env henv => ?_⟩
      rw [Env.writeFileSafe, henv]
      exact ⟨hminus, fun path hpath => by simp [Files.set, hpath]⟩
    · obtain rfl := Option.some.inj hw
      refine ⟨.openErr, fun env henv => ?_⟩
      rw [Env.writeFileSafe, henv]
      exact ⟨rfl, fun path _ => rfl⟩

/-- **A safe write is all or nothing**, exactly unless a text that was accepted as far as the program
counts it is renamed although its size is no `int` or `fclose` does not store all of it. -/
theorem writeFileSafe_iff (hne : normalFile ≠ tmpFile) (o : Stream) (rename : Bool) (buffer : Text)
    (files : Files) :
    ((∀ fuel r, o.writeFileSafe rename fuel buffer normalFile tmpFile files = some r →
        AllOrNothing buffer normalFile files r) ∧
      (o.Progress → ∃ fuel, (o.writeFileSafe rename fuel buffer normalFile tmpFile files).isSome)) ↔
    (o.opened = true → 0 ≤ intOfSize buffer.length →
      o.Accepts 0 (intOfSize buffer.length).toNat → rename = true →
        intOfSize buffer.length = buffer.length ∧ buffer.length ≤ o.stored) := by
  have hcount := (intOfSize_bounds buffer.length).1
  constructor
  · rintro ⟨hall, -⟩ hopen hcounted hacc hrename
    have hends : ∃ fuel, (o.fwriteLoop fuel 0 false []
        (buffer.take (intOfSize buffer.length).toNat)).isSome :=
      hacc.fwriteLoop (Stream.length_counted buffer)
    obtain ⟨fuel, hfuel⟩ := hends
    obtain ⟨loop, hloop⟩ := Option.isSome_iff_exists.mp hfuel
    have hsome : (o.writeFileSafe rename fuel buffer normalFile tmpFile files).isSome := by
      simp [Stream.writeFileSafe, Stream.writeFile, Stream.putFile, hopen, hloop]
    obtain ⟨r, hr⟩ := Option.isSome_iff_exists.mp hsome
    obtain ⟨hzero, hfiles, -⟩ := Stream.writeFileSafe_spec hne hr
    have hcode := hzero.mpr ⟨hopen, ⟨hcounted, hacc⟩, hrename⟩
    have hwritten := (hall fuel r hr).written hcode
    rw [hfiles hcode] at hwritten
    simp only [Files.set, Function.update_self, Option.some.injEq] at hwritten
    have hlen := congrArg List.length hwritten
    rw [List.length_take, List.length_take] at hlen
    omega
  · intro hcond
    constructor
    · intro fuel r hr
      obtain ⟨hzero, hfiles, hkept⟩ := Stream.writeFileSafe_spec hne hr
      refine ⟨fun hcode => ?_, hkept⟩
      obtain ⟨hopen, ⟨hcounted, hacc⟩, hrename⟩ := hzero.mp hcode
      obtain ⟨hsize, hstored⟩ := hcond hopen hcounted hacc hrename
      rw [hfiles hcode, hsize, Int.toNat_natCast, List.take_length, List.take_of_length_le hstored]
      simp [Files.set]
    · intro hprog
      refine ⟨buffer.length + 2, ?_⟩
      rw [Stream.writeFileSafe, Option.isSome_map]
      exact Stream.putFile_isSome hprog (Nat.lt_succ_self _)

/-- A write that succeeds, to the two paths of the task file. -/
theorem writeFileSafe_iff_gvmTaskFile :
    ((∀ fuel r, (⟨true, fun _ => ⟨4096, false⟩, 4096⟩ : Stream).writeFileSafe true fuel "scan".toList
          gvmTaskFile gvmTaskFileTmp (fun _ => none) = some r →
        AllOrNothing "scan".toList gvmTaskFile (fun _ => none) r) ∧
      ((⟨true, fun _ => ⟨4096, false⟩, 4096⟩ : Stream).Progress → ∃ fuel,
        ((⟨true, fun _ => ⟨4096, false⟩, 4096⟩ : Stream).writeFileSafe true fuel "scan".toList
          gvmTaskFile gvmTaskFileTmp fun _ => none).isSome)) :=
  (writeFileSafe_iff gvmTaskFile_ne_gvmTaskFileTmp _ _ _ _).mpr fun _ _ _ _ => by decide

/-- A stream that accepts everything, and that loses it when it is closed on a full disk. -/
def fullDisk : Stream := ⟨true, fun _ => ⟨maxCacheSize, false⟩, 0⟩

/-- The task file is replaced by an empty one, and the write is reported as a success. -/
theorem not_allOrNothing_fullDisk :
    ¬ ∀ (o : Stream) rename fuel buffer files r,
      o.writeFileSafe rename fuel buffer gvmTaskFile gvmTaskFileTmp files = some r →
        AllOrNothing buffer gvmTaskFile files r := by
  intro hclaim
  have hcall : (fullDisk.writeFileSafe true 2 "scan".toList gvmTaskFile gvmTaskFileTmp fun _ =>
      none).map (fun r => (r.1, r.2 gvmTaskFile)) = some (0, some []) := by decide
  obtain ⟨r, hr, heq⟩ := Option.map_eq_some_iff.mp hcall
  obtain ⟨hcode, hfile⟩ := Prod.mk.inj heq
  have hwritten := (hclaim _ _ _ _ _ _ hr).written hcode
  rw [hfile] at hwritten
  simp at hwritten

end SafeWrites

end OpenvasTool
